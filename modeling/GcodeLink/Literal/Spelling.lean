import GcodeLink.Literal.Basic

/-!
# What a literal spells

The value of a literal can be read off its bytes as a whole.  Only the bytes
after the last sign count; of those, the digits spell a number, and the digits
after the first point are its places.  Bytes that belong to no literal are read
over.
-/

namespace GcodeLink.Spelling

/-- The bytes after the last sign, or all of them if there is none. -/
def unsigned (bytes : List UInt8) : List UInt8 :=
  (bytes.reverse.takeWhile (· != Byte.minus)).reverse

/-- Some byte is a sign. -/
def isSigned (bytes : List UInt8) : Bool :=
  bytes.contains Byte.minus

/-- Some byte is a decimal point. -/
def hasPoint (bytes : List UInt8) : Bool :=
  bytes.contains Byte.point

/-- The digits among the bytes. -/
def digits (bytes : List UInt8) : List Nat :=
  (bytes.filter Byte.isDigit).map Byte.digit

/-- The number that decimal digits spell. -/
def number (digits : List Nat) : Nat :=
  digits.foldl (fun sum digit => sum * 10 + digit) 0

/-- The number of digits after the first decimal point. -/
def fraction (bytes : List UInt8) : Nat :=
  (digits (bytes.dropWhile (· != Byte.point))).length

end GcodeLink.Spelling

/-!
# Bytes of the line protocol

The protocol is written in ASCII.  This module names the bytes that carry
meaning and the three classes that decide where things end: line terminators,
letters, and the marks that close an open field.  Letters are compared after
folding to upper case; every byte outside `a`..`z` folds to itself.
-/

namespace GcodeLink.Byte

/-- The line feed that ends a line. -/
def lineFeed : UInt8 := 10

/-- The carriage return, which ends a line as well. -/
def carriageReturn : UInt8 := 13

/-- The blank that ends a filename. -/
def space : UInt8 := 32

/-- The byte that opens a comment between parentheses. -/
def openParen : UInt8 := 40

/-- The byte that closes a comment between parentheses. -/
def closeParen : UInt8 := 41

/-- The byte that opens the checksum field. -/
def asterisk : UInt8 := 42

/-- The sign of a literal. -/
def minus : UInt8 := 45

/-- The decimal point of a literal. -/
def point : UInt8 := 46

/-- The byte that opens a comment up to the end of the line. -/
def semicolon : UInt8 := 59

/-- A carriage return or a line feed. -/
def isTerminator (byte : UInt8) : Bool :=
  byte == carriageReturn || byte == lineFeed

/-- An upper-case letter. -/
def isCapital (byte : UInt8) : Bool :=
  65 ≤ byte && byte ≤ 90

/-- A decimal digit. -/
def isDigit (byte : UInt8) : Bool :=
  48 ≤ byte && byte ≤ 57

/-- The number that a digit stands for. -/
def digit (byte : UInt8) : Nat :=
  byte.toNat - 48

/-- Fold a lower-case letter to its capital and keep every other byte. -/
def fold (byte : UInt8) : UInt8 :=
  if 97 ≤ byte && byte ≤ 122 then byte - 32 else byte

/-- A folded byte that closes the field open before it. -/
def endsField (byte : UInt8) : Bool :=
  isCapital byte || byte == asterisk || byte == semicolon || byte == openParen ||
    isTerminator byte

/-- A folded byte that opens a field: a letter, or the asterisk of the checksum. -/
def opensField (byte : UInt8) : Bool :=
  isCapital byte || byte == asterisk

/-- A byte that closes a filename. -/
def endsFilename (byte : UInt8) : Bool :=
  isTerminator byte || byte == space || byte == asterisk

@[simp]
theorem isTerminator_lineFeed : isTerminator lineFeed = true := rfl

theorem isTerminator_iff {byte : UInt8} :
    isTerminator byte = true ↔ byte = carriageReturn ∨ byte = lineFeed := by
  simp [isTerminator]

/-- Folding neither makes nor removes a terminator. -/
@[simp]
theorem isTerminator_fold (byte : UInt8) :
    isTerminator (fold byte) = isTerminator byte := by
  unfold fold
  split
  · next lower =>
    have bounds : 97 ≤ byte.toNat ∧ byte.toNat ≤ 122 := by
      simpa [UInt8.le_iff_toNat_le] using lower
    have folded : (byte - 32).toNat = byte.toNat - 32 := by
      rw [UInt8.toNat_sub_of_le]
      · rfl
      · rw [UInt8.le_iff_toNat_le]
        show 32 ≤ byte.toNat
        omega
    have distinct (mark : UInt8) (small : mark.toNat < 65) :
        ((byte - 32) == mark) = false ∧ (byte == mark) = false := by
      constructor <;> rw [beq_eq_false_iff_ne] <;> intro same
      · have := congrArg UInt8.toNat same
        omega
      · have := congrArg UInt8.toNat same
        omega
    simp [isTerminator, distinct carriageReturn (by decide),
      distinct lineFeed (by decide)]
  · rfl

/-- A terminator closes any open field. -/
theorem endsField_of_isTerminator {byte : UInt8} (ends : isTerminator byte = true) :
    endsField byte = true := by
  simp [endsField, ends]

end GcodeLink.Byte

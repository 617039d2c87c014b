import GcodeLink.Byte

/-!
# Decimal literals, one byte at a time

A numeric field is accumulated as a sign, an unsigned mantissa and the number of
digits met after the decimal point.  No floating point is involved, and nothing
is scaled before the field is complete.

The sign restarts the literal, so `1-2` reads as `-2`.  Only the first decimal
point counts.  A digit for which the mantissa or the count of places has no room
makes the literal overflow, and an overflowed literal takes in no further digit
until a sign restarts it.
-/

namespace GcodeLink

/-- The most digits that can be counted after a decimal point, plus one. -/
def placesLimit : Nat := 255

/-- A decimal literal in the making. -/
structure Literal where
  negative : Bool
  mantissa : UInt32
  /-- The number of digits after the decimal point, once the point is met. -/
  places : Option (Fin placesLimit)
  /-- Whether a digit did not fit. -/
  overflowed : Bool
  deriving DecidableEq, Repr

namespace Literal

/-- The literal before its first byte. -/
def zero : Literal :=
  { negative := false, mantissa := 0, places := none, overflowed := false }

/-- The number of digits after the decimal point, none of them without a point. -/
def fraction (value : Literal) : Nat :=
  match value.places with
  | none => 0
  | some count => count.val

/-- The places as one byte: zero without a point, one more than the count otherwise. -/
def placesByte (value : Literal) : UInt8 :=
  match value.places with
  | none => 0
  | some count => UInt8.ofNat (count.val + 1)

/-- The places that a byte of `placesByte` stands for. -/
def placesOfByte (byte : UInt8) : Option (Fin placesLimit) :=
  if marked : byte = 0 then
    none
  else
    some ⟨byte.toNat - 1, by
      have := byte.toNat_lt
      have : byte.toNat ≠ 0 := fun empty => marked (UInt8.toNat_inj.mp empty)
      unfold placesLimit
      omega⟩

theorem toNat_placesByte (value : Literal) :
    value.placesByte.toNat =
      ((value.places.map (·.val)).map (· + 1)).getD 0 := by
  unfold placesByte
  cases value.places with
  | none => rfl
  | some count =>
    have bound : count.val < 255 := count.isLt
    exact UInt8.toNat_ofNat_of_lt' (by show count.val + 1 < 256; omega)

/-- The byte that stands for the places counts the digits after the point, and the point. -/
theorem fraction_eq (value : Literal) : value.fraction = value.placesByte.toNat - 1 := by
  rw [toNat_placesByte, fraction]
  cases value.places <;> rfl

/-- The mantissa with one more digit, if it fits. -/
def mantissaWith (mantissa : UInt32) (digit : Nat) : Option UInt32 :=
  if fits : mantissa.toNat * 10 + digit < UInt32.size then
    some (UInt32.ofNatLT (mantissa.toNat * 10 + digit) fits)
  else
    none

/-- The places after one more digit, if it can be counted. -/
def placesWithDigit : Option (Fin placesLimit) → Option (Option (Fin placesLimit))
  | none => some none
  | some count =>
      if fits : count.val + 1 < placesLimit then
        some (some ⟨count.val + 1, fits⟩)
      else
        none

/-- Append one digit, or record that it does not fit. -/
def appendDigit (value : Literal) (digit : Nat) : Literal :=
  if value.overflowed then
    value
  else
    match mantissaWith value.mantissa digit, placesWithDigit value.places with
    | some mantissa, some places => { value with mantissa, places }
    | _, _ => { value with overflowed := true }

/-- Start counting places, unless a point did so before. -/
def markPoint (value : Literal) : Literal :=
  match value.places with
  | none => { value with places := some ⟨0, by decide⟩ }
  | some _ => value

/-- Read one byte of the literal; `none` for a byte that belongs to no literal. -/
def push? (value : Literal) (byte : UInt8) : Option Literal :=
  if byte == Byte.minus then
    some { zero with negative := true }
  else if byte == Byte.point then
    some value.markPoint
  else if Byte.isDigit byte then
    some (value.appendDigit (Byte.digit byte))
  else
    none

/-- Read one byte, skipping one that belongs to no literal. -/
def push (value : Literal) (byte : UInt8) : Literal :=
  (value.push? byte).getD value

/-- Read bytes in order. -/
def pushAll (value : Literal) (bytes : List UInt8) : Literal :=
  bytes.foldl push value

@[simp]
theorem pushAll_nil (value : Literal) : value.pushAll [] = value := rfl

@[simp]
theorem pushAll_cons (value : Literal) (byte : UInt8) (rest : List UInt8) :
    value.pushAll (byte :: rest) = (value.push byte).pushAll rest := rfl

theorem pushAll_append (value : Literal) (front rest : List UInt8) :
    value.pushAll (front ++ rest) = (value.pushAll front).pushAll rest := by
  simp [pushAll]

/-- A sign forgets all that stood before it. -/
@[simp]
theorem push_minus (value : Literal) :
    value.push Byte.minus = { zero with negative := true } := rfl

@[simp]
theorem push_point (value : Literal) : value.push Byte.point = value.markPoint := rfl

end Literal

end GcodeLink

import GcodeLink.Fault

/-!
# Slots of fixed width

A field of a command is stored in a slot whose width is fixed.  A slot type
names the least and the greatest number it holds.  Narrowing a number to a slot
fails instead of wrapping, and where it succeeds the slot stands for the number.
-/

namespace GcodeLink

/-- A type of slots, each of which stands for one number of an interval. -/
class Slot (width : Type) where
  least : Int
  greatest : Int
  ofInt : Int → width
  toInt : width → Int
  toInt_ofInt : ∀ number, least ≤ number → number ≤ greatest →
    toInt (ofInt number) = number

instance : Slot UInt8 where
  least := 0
  greatest := 255
  ofInt number := UInt8.ofNat number.toNat
  toInt slot := slot.toNat
  toInt_ofInt number := by
    intro low high
    rw [UInt8.toNat_ofNat_of_lt' (by show number.toNat < 256; omega)]
    omega

instance : Slot UInt16 where
  least := 0
  greatest := 65535
  ofInt number := UInt16.ofNat number.toNat
  toInt slot := slot.toNat
  toInt_ofInt number := by
    intro low high
    rw [UInt16.toNat_ofNat_of_lt' (by show number.toNat < 65536; omega)]
    omega

instance : Slot UInt32 where
  least := 0
  greatest := 4294967295
  ofInt number := UInt32.ofNat number.toNat
  toInt slot := slot.toNat
  toInt_ofInt number := by
    intro low high
    rw [UInt32.toNat_ofNat_of_lt' (by show number.toNat < 4294967296; omega)]
    omega

instance : Slot Int16 where
  least := -32768
  greatest := 32767
  ofInt := Int16.ofInt
  toInt := Int16.toInt
  toInt_ofInt number := by
    intro low high
    exact Int16.toInt_ofInt_of_le low (by omega)

instance : Slot Int32 where
  least := -2147483648
  greatest := 2147483647
  ofInt := Int32.ofInt
  toInt := Int32.toInt
  toInt_ofInt number := by
    intro low high
    exact Int32.toInt_ofInt_of_le low (by omega)

/-- Store a number in a slot, if the slot holds it. -/
def narrow {width : Type} [Slot width] (number : Int) : Except Fault width :=
  if Slot.least width ≤ number ∧ number ≤ Slot.greatest width then
    .ok (Slot.ofInt number)
  else
    .error .numberOverflow

/-- A narrowed number is the one that was narrowed. -/
theorem toInt_of_narrow {width : Type} [Slot width] {number : Int} {slot : width}
    (stored : narrow number = .ok slot) : Slot.toInt slot = number := by
  unfold narrow at stored
  split at stored
  · next within =>
    cases stored
    exact Slot.toInt_ofInt number within.1 within.2
  · cases stored

/-- Narrowing fails exactly outside the interval of the slot. -/
theorem narrow_eq_error_iff {width : Type} [Slot width] {number : Int} {fault : Fault} :
    (narrow number : Except Fault width) = .error fault ↔
      fault = .numberOverflow ∧
        (number < Slot.least width ∨ Slot.greatest width < number) := by
  unfold narrow
  split
  · next within =>
    simp only [reduceCtorEq, false_iff, not_and, not_or]
    intro _
    omega
  · next outside =>
    simp only [Except.error.injEq]
    constructor
    · rintro rfl
      exact ⟨rfl, by omega⟩
    · rintro ⟨rfl, -⟩
      rfl

end GcodeLink

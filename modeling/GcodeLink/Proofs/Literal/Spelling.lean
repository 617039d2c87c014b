import Mathlib.Data.List.Induction
import Mathlib.Data.List.TakeWhile
import GcodeLink.Literal.Spelling

/-!
# A literal is what its bytes spell

A literal is accumulated one byte at a time in a mantissa and a count of places,
either of which may overflow.  What comes out can be read off the bytes as a
whole: the sign if there is one, and the number and the places that the bytes
after the last sign spell.  If the number fits the mantissa and the places can
be counted, both are exact; otherwise the literal has overflowed.

Once a literal has overflowed it takes in no more digits.  That is as good as
taking them in, since neither the number nor the count of places ever goes down
as long as no sign restarts the literal.
-/

namespace GcodeLink

/-! ## What one more byte spells -/

namespace Spelling

theorem unsigned_concat (bytes : List UInt8) (byte : UInt8) :
    unsigned (bytes ++ [byte]) =
      if byte = Byte.minus then [] else unsigned bytes ++ [byte] := by
  rw [unsigned, List.reverse_concat]
  split
  · next sign =>
      rw [List.takeWhile_cons_of_neg (by simp [sign]), List.reverse_nil]
  · next inside =>
      rw [List.takeWhile_cons_of_pos (by simp [inside]), List.reverse_cons]
      rfl

theorem isSigned_concat (bytes : List UInt8) (byte : UInt8) :
    isSigned (bytes ++ [byte]) = (isSigned bytes || byte == Byte.minus) := by
  rw [isSigned, isSigned, List.contains_append, List.contains_cons,
    List.contains_nil, Bool.or_false, Bool.beq_comm]

theorem hasPoint_concat (bytes : List UInt8) (byte : UInt8) :
    hasPoint (bytes ++ [byte]) = (hasPoint bytes || byte == Byte.point) := by
  rw [hasPoint, hasPoint, List.contains_append, List.contains_cons,
    List.contains_nil, Bool.or_false, Bool.beq_comm]

theorem digits_concat (bytes : List UInt8) (byte : UInt8) :
    digits (bytes ++ [byte]) =
      digits bytes ++ if Byte.isDigit byte then [Byte.digit byte] else [] := by
  rw [digits, List.filter_append, List.map_append]
  split
  · next digit =>
      rw [List.filter_cons_of_pos digit]
      rfl
  · next other =>
      rw [List.filter_cons_of_neg other]
      rfl

/-- The number that the digits of the bytes spell. -/
def value (bytes : List UInt8) : Nat :=
  number (digits bytes)

theorem value_concat (bytes : List UInt8) (byte : UInt8) :
    value (bytes ++ [byte]) =
      if Byte.isDigit byte then value bytes * 10 + Byte.digit byte
      else value bytes := by
  rw [value, digits_concat, number, List.foldl_append]
  split <;> rfl

theorem dropWhile_eq_nil_iff (bytes : List UInt8) :
    bytes.dropWhile (· != Byte.point) = [] ↔ hasPoint bytes = false := by
  rw [List.dropWhile_eq_nil_iff, hasPoint, List.contains_eq_mem,
    decide_eq_false_iff_not]
  constructor
  · intro other member
    simpa using other Byte.point member
  · rintro absent byte member
    rw [bne_iff_ne]
    rintro rfl
    exact absent member

/-- Without a point there are no places. -/
theorem fraction_of_no_point
    {bytes : List UInt8} (none : hasPoint bytes = false) :
    fraction bytes = 0 := by
  rw [fraction, (dropWhile_eq_nil_iff bytes).mpr none]
  rfl

/-- The number of places, if there is a point. -/
def places? (bytes : List UInt8) : Option Nat :=
  if hasPoint bytes then some (fraction bytes) else none

theorem fraction_eq (bytes : List UInt8) :
    fraction bytes = (places? bytes).getD 0 := by
  rw [places?]
  split
  · rfl
  · next none =>
      rw [fraction_of_no_point (Bool.eq_false_iff.mpr none)]
      rfl

/-- A point starts the count of places if it is the first, and a digit goes on with it. -/
theorem places?_concat (bytes : List UInt8) (byte : UInt8) :
    places? (bytes ++ [byte]) =
      if byte = Byte.point then some (fraction bytes)
      else if Byte.isDigit byte then (places? bytes).map (· + 1)
      else places? bytes := by
  cases found : hasPoint bytes with
  | true =>
      have started : (bytes.dropWhile (· != Byte.point)).isEmpty = false := by
        rw [List.isEmpty_eq_false_iff, Ne, dropWhile_eq_nil_iff, found]
        simp
      rw [places?, places?, hasPoint_concat, found, Bool.true_or, if_pos rfl,
        if_pos rfl, fraction, List.dropWhile_append, started,
        if_neg Bool.false_ne_true, digits_concat, List.length_append, ← fraction]
      by_cases point : byte = Byte.point
      · rw [if_pos point, point]
        rfl
      · rw [if_neg point]
        split <;> rfl
  | false =>
      rw [places?, places?, hasPoint_concat, found, Bool.false_or,
        if_neg Bool.false_ne_true, fraction_of_no_point found, fraction,
        List.dropWhile_append, (dropWhile_eq_nil_iff bytes).mpr found,
        List.isEmpty_nil, if_pos rfl]
      by_cases point : byte = Byte.point
      · rw [if_pos point, point]
        rfl
      · rw [if_neg point, if_neg (by simpa using point)]
        split <;> rfl

/-- No byte takes a place away. -/
theorem fraction_le_concat (bytes : List UInt8) (byte : UInt8) :
    fraction bytes ≤ fraction (bytes ++ [byte]) := by
  rw [fraction_eq (bytes ++ [byte]), places?_concat]
  split_ifs
  · exact Nat.le_refl (fraction bytes)
  · rw [fraction_eq]
    cases places? bytes with
    | none => exact Nat.le_refl 0
    | some count => exact Nat.le_succ count
  · rw [← fraction_eq]

/-- No byte makes the number smaller. -/
theorem value_le_concat (bytes : List UInt8) (byte : UInt8) :
    value bytes ≤ value (bytes ++ [byte]) := by
  rw [value_concat]
  split
  · omega
  · exact Nat.le_refl (value bytes)

/-- The number fits no mantissa, or the places cannot be counted. -/
def Overflows (bytes : List UInt8) : Prop :=
  4294967295 < value bytes ∨ 254 < fraction bytes

instance (bytes : List UInt8) : Decidable (Overflows bytes) :=
  inferInstanceAs (Decidable (_ ∨ _))

/-- What overflows goes on to overflow. -/
theorem Overflows.concat
    {bytes : List UInt8} (overflows : Overflows bytes) (byte : UInt8) :
    Overflows (bytes ++ [byte]) :=
  overflows.imp
    (fun large => Nat.lt_of_lt_of_le large (value_le_concat bytes byte))
    (fun many => Nat.lt_of_lt_of_le many (fraction_le_concat bytes byte))

end Spelling

namespace Literal

/-! ## What one more byte does -/

theorem push?_eq_none_iff {value : Literal} {byte : UInt8} :
    value.push? byte = none ↔
      byte ≠ Byte.minus ∧ byte ≠ Byte.point ∧ Byte.isDigit byte = false := by
  rw [push?]
  split_ifs with sign point digit <;> simp_all

theorem push_digit
    (value : Literal) {byte : UInt8} (digit : Byte.isDigit byte = true) :
    value.push byte = value.appendDigit (Byte.digit byte) := by
  have sign : byte ≠ Byte.minus := by
    rintro rfl
    cases digit
  have point : byte ≠ Byte.point := by
    rintro rfl
    cases digit
  rw [push, push?, if_neg (by simpa using sign), if_neg (by simpa using point),
    if_pos digit]
  rfl

theorem push_other
    (value : Literal) {byte : UInt8} (sign : byte ≠ Byte.minus)
    (point : byte ≠ Byte.point) (digit : Byte.isDigit byte = false) :
    value.push byte = value := by
  rw [push, push?_eq_none_iff.mpr ⟨sign, point, digit⟩]
  rfl

/-- The mantissa has room for a digit exactly if the number it makes fits. -/
theorem mantissaWith_cases (mantissa : UInt32) (digit : Nat) :
    (∃ larger,
        mantissaWith mantissa digit = some larger ∧
          larger.toNat = mantissa.toNat * 10 + digit ∧
            mantissa.toNat * 10 + digit ≤ 4294967295) ∨
      mantissaWith mantissa digit = none ∧
        4294967295 < mantissa.toNat * 10 + digit := by
  rw [mantissaWith]
  split
  · next fits =>
      exact
        Or.inl
          ⟨_, rfl, UInt32.toNat_ofNatLT, Nat.le_of_lt_succ fits⟩
  · next large =>
      exact Or.inr ⟨rfl, Nat.lt_of_succ_le (Nat.le_of_not_lt large)⟩

/-- One more place can be counted unless there are as many as can be. -/
theorem placesWithDigit_cases (places : Option (Fin placesLimit)) :
    (∃ more,
        placesWithDigit places = some more ∧
          more.map (·.val) = (places.map (·.val)).map (· + 1) ∧
            ((places.map (·.val)).map (· + 1)).getD 0 ≤ 254) ∨
      placesWithDigit places = none ∧
        ((places.map (·.val)).map (· + 1)).getD 0 = 255 := by
  cases places with
  | none =>
      exact Or.inl ⟨none, rfl, rfl, Nat.zero_le 254⟩
  | some count =>
      rw [placesWithDigit]
      split
      · next fits =>
          exact Or.inl ⟨_, rfl, rfl, Nat.le_of_lt_succ fits⟩
      · next full =>
          have bound : count.val < 255 := count.isLt
          have full : ¬ count.val + 1 < 255 := full
          refine Or.inr ⟨rfl, ?_⟩
          show count.val + 1 = 255
          omega

/-! ## What all bytes do -/

/-- The literal is what the bytes spell, or has overflowed if that does not fit. -/
structure Holds (value : Literal) (bytes : List UInt8) : Prop where
  overflowed_iff : value.overflowed = true ↔ Spelling.Overflows bytes
  mantissa_eq :
    value.overflowed = false →
      value.mantissa.toNat = Spelling.value bytes
  places_eq :
    value.overflowed = false →
      value.places.map (·.val) = Spelling.places? bytes

namespace Holds

variable {value : Literal} {bytes : List UInt8} {byte : UInt8}

/-- A literal that was just started holds no bytes. -/
theorem start (negative : Bool) : { zero with negative }.Holds [] where
  overflowed_iff := iff_of_false Bool.false_ne_true (by decide)
  mantissa_eq _ := rfl
  places_eq _ := rfl

/-- Of a literal that has overflowed nothing else is asked. -/
theorem of_overflowed
    (overflowed : value.overflowed = true)
    (overflows : Spelling.Overflows bytes) :
    value.Holds bytes where
  overflowed_iff := iff_of_true overflowed overflows
  mantissa_eq fits := by
    rw [overflowed] at fits
    cases fits
  places_eq fits := by
    rw [overflowed] at fits
    cases fits

/-- A byte that belongs to no literal is read over. -/
theorem other
    (holds : value.Holds bytes) (point : byte ≠ Byte.point)
    (digit : Byte.isDigit byte = false) :
    value.Holds (bytes ++ [byte]) := by
  have number : Spelling.value (bytes ++ [byte]) = Spelling.value bytes := by
    rw [Spelling.value_concat, digit, if_neg Bool.false_ne_true]
  have places : Spelling.places? (bytes ++ [byte]) = Spelling.places? bytes := by
    rw [Spelling.places?_concat, if_neg point, digit, if_neg Bool.false_ne_true]
  refine ⟨?_, ?_, ?_⟩
  · rw [holds.overflowed_iff, Spelling.Overflows, Spelling.Overflows, number,
      Spelling.fraction_eq (bytes ++ [byte]), places, ← Spelling.fraction_eq]
  · rw [number]
    exact holds.mantissa_eq
  · rw [places]
    exact holds.places_eq

/-- A point starts the count of places, unless one did so before. -/
theorem markPoint (holds : value.Holds bytes) :
    value.markPoint.Holds (bytes ++ [Byte.point]) := by
  have number : Spelling.value (bytes ++ [Byte.point]) = Spelling.value bytes := by
    rw [Spelling.value_concat]
    rfl
  have places :
      Spelling.places? (bytes ++ [Byte.point]) =
        some (Spelling.fraction bytes) := by
    rw [Spelling.places?_concat, if_pos rfl]
  have marked :
      value.markPoint.overflowed = value.overflowed ∧
        value.markPoint.mantissa = value.mantissa ∧
          value.markPoint.places.map (·.val) =
            some ((value.places.map (·.val)).getD 0) := by
    rw [Literal.markPoint]
    cases found : value.places with
    | none => exact ⟨rfl, rfl, rfl⟩
    | some count => exact ⟨rfl, rfl, by rw [found]; rfl⟩
  obtain ⟨overflow, mantissa, count⟩ := marked
  refine ⟨?_, ?_, ?_⟩
  · rw [overflow, holds.overflowed_iff, Spelling.Overflows, Spelling.Overflows,
      number, Spelling.fraction_eq (bytes ++ [Byte.point]), places, Option.getD_some]
  · rw [overflow, mantissa, number]
    exact holds.mantissa_eq
  · intro fits
    rw [overflow] at fits
    rw [count, holds.places_eq fits, places, Spelling.fraction_eq]

/-- A digit makes the number larger and is counted, or it does not fit. -/
theorem appendDigit
    (holds : value.Holds bytes) (digit : Byte.isDigit byte = true) :
    (value.appendDigit (Byte.digit byte)).Holds (bytes ++ [byte]) := by
  cases before : value.overflowed with
  | true =>
      have same : value.appendDigit (Byte.digit byte) = value :=
        if_pos before
      rw [same]
      exact of_overflowed before ((holds.overflowed_iff.mp before).concat byte)
  | false =>
      have number :
          Spelling.value (bytes ++ [byte]) =
            value.mantissa.toNat * 10 + Byte.digit byte := by
        rw [Spelling.value_concat, if_pos digit, holds.mantissa_eq before]
      have point : byte ≠ Byte.point := by
        rintro rfl
        cases digit
      have places :
          Spelling.places? (bytes ++ [byte]) =
            (value.places.map (·.val)).map (· + 1) := by
        rw [Spelling.places?_concat, if_neg point, if_pos digit,
          holds.places_eq before]
      have overflows_iff :
          Spelling.Overflows (bytes ++ [byte]) ↔
            4294967295 < value.mantissa.toNat * 10 + Byte.digit byte ∨
              254 < ((value.places.map (·.val)).map (· + 1)).getD 0 := by
        rw [Spelling.Overflows, number, Spelling.fraction_eq, places]
      rw [Literal.appendDigit, before, if_neg Bool.false_ne_true]
      rcases mantissaWith_cases value.mantissa (Byte.digit byte) with
        ⟨larger, mantissa, larger_eq, fits⟩ | ⟨mantissa, large⟩
      · rcases placesWithDigit_cases value.places with
          ⟨more, counted, more_eq, few⟩ | ⟨counted, many⟩
        · rw [mantissa, counted]
          refine ⟨?_, ?_, ?_⟩
          · rw [overflows_iff]
            refine iff_of_false Bool.false_ne_true ?_
            omega
          · intro _
            rw [number, ← larger_eq]
          · intro _
            rw [places, ← more_eq]
        · rw [mantissa, counted]
          exact of_overflowed rfl (overflows_iff.mpr (Or.inr (by omega)))
      · rw [mantissa]
        exact of_overflowed rfl (overflows_iff.mpr (Or.inl large))

/-- After any byte the literal holds the bytes after the last sign. -/
theorem push (holds : value.Holds (Spelling.unsigned bytes)) (byte : UInt8) :
    (value.push byte).Holds (Spelling.unsigned (bytes ++ [byte])) := by
  rw [Spelling.unsigned_concat]
  by_cases sign : byte = Byte.minus
  · rw [if_pos sign, sign, push_minus]
    exact start true
  rw [if_neg sign]
  by_cases point : byte = Byte.point
  · rw [point, push_point]
    exact holds.markPoint
  by_cases digit : Byte.isDigit byte = true
  · rw [push_digit value digit]
    exact holds.appendDigit digit
  · have digit := Bool.eq_false_iff.mpr digit
    rw [push_other value sign point digit]
    exact holds.other point digit

end Holds

/-- A literal holds the bytes after the last sign that it has read. -/
theorem holds_pushAll (bytes : List UInt8) :
    (zero.pushAll bytes).Holds (Spelling.unsigned bytes) := by
  induction bytes using List.reverseRecOn with
  | nil =>
      exact Holds.start false
  | append_singleton front byte ih =>
      rw [pushAll_append]
      exact ih.push byte

theorem negative_push (value : Literal) (byte : UInt8) :
    (value.push byte).negative = (value.negative || byte == Byte.minus) := by
  by_cases sign : byte = Byte.minus
  · rw [sign, push_minus, beq_self_eq_true, Bool.or_true]
  rw [beq_false_of_ne sign, Bool.or_false]
  by_cases point : byte = Byte.point
  · rw [point, push_point, markPoint]
    split <;> rfl
  by_cases digit : Byte.isDigit byte = true
  · rw [push_digit value digit, appendDigit]
    split_ifs
    · rfl
    · split <;> rfl
  · rw [push_other value sign point (Bool.eq_false_iff.mpr digit)]

/-- A literal is negative exactly if it has read a sign. -/
theorem negative_pushAll (bytes : List UInt8) :
    (zero.pushAll bytes).negative = Spelling.isSigned bytes := by
  induction bytes using List.reverseRecOn with
  | nil =>
      rfl
  | append_singleton front byte ih =>
      rw [pushAll_append, pushAll_cons, pushAll_nil, negative_push, ih,
        Spelling.isSigned_concat]

/-! ## The literal that comes out -/

/--
A new literal that has read any bytes is negative exactly if there is a sign
among them, and has overflowed exactly if the bytes after the last sign spell a
number that does not fit the mantissa, or more places than can be counted.
Otherwise its mantissa is that number and its places are those.  Bytes that
belong to no literal change nothing, and what stands before a sign is forgotten.
-/
theorem pushAll_spells (bytes : List UInt8) :
    (∀ (value : Literal) (byte : UInt8),
        (value.push? byte = none ↔
          byte ≠ Byte.minus ∧ byte ≠ Byte.point ∧ Byte.isDigit byte = false) ∧
        (value.push? byte = none → value.push byte = value)) ∧
      (zero.pushAll bytes).negative = Spelling.isSigned bytes ∧
      ((zero.pushAll bytes).overflowed = true ↔
        4294967295 < Spelling.number (Spelling.digits (Spelling.unsigned bytes)) ∨
          254 < Spelling.fraction (Spelling.unsigned bytes)) ∧
      ((zero.pushAll bytes).overflowed = false →
        (zero.pushAll bytes).mantissa.toNat =
            Spelling.number (Spelling.digits (Spelling.unsigned bytes)) ∧
          (zero.pushAll bytes).placesByte.toNat =
            if Spelling.hasPoint (Spelling.unsigned bytes) then
              Spelling.fraction (Spelling.unsigned bytes) + 1
            else 0) ∧
      ∀ before : List UInt8,
        zero.pushAll (before ++ Byte.minus :: bytes) =
          zero.pushAll (Byte.minus :: bytes) := by
  have holds := holds_pushAll bytes
  refine ⟨?_, negative_pushAll bytes, holds.overflowed_iff, ?_, ?_⟩
  · intro value byte
    refine ⟨push?_eq_none_iff, ?_⟩
    intro skipped
    rw [push, skipped, Option.getD_none]
  · intro fits
    refine ⟨holds.mantissa_eq fits, ?_⟩
    rw [toNat_placesByte, holds.places_eq fits, Spelling.places?]
    split <;> rfl
  · intro before
    rw [pushAll_append, pushAll_cons, push_minus, pushAll_cons, push_minus]

end Literal

end GcodeLink

import Mathlib.Data.Rat.Floor
import GcodeLink.Literal.Scaled

/-!
# A scaled literal is truncated once

Scaling divides several times: by the divisor, and then by a power of ten, five
digits at a time.  Each of these divisions truncates, and the sign is applied
between them.  All the same nothing is lost on the way.  The number that comes
out is the exact quotient, truncated toward zero once at the end, so that
literals for the same number are scaled to the same integer however many digits
they are written with.

The arithmetic of the machine is that of signed words.  `scaledInWords` checks
each operation where it is carried out, and skips a multiplication or a division
by one.
-/

namespace GcodeLink

/-- The integer next to a number on the way to zero. -/
def towardZero (number : ℚ) : ℤ :=
  if 0 ≤ number then ⌊number⌋ else ⌈number⌉

theorem towardZero_neg (number : ℚ) : towardZero (-number) = -towardZero number := by
  rcases lt_trichotomy number 0 with negative | rfl | positive
  · rw [towardZero, towardZero, if_pos (neg_nonneg.mpr negative.le),
      if_neg (not_le.mpr negative), Int.floor_neg]
  · simp [towardZero]
  · rw [towardZero, towardZero, if_neg (not_le.mpr (neg_lt_zero.mpr positive)),
      if_pos positive.le, Int.ceil_neg]

/-- A division that truncates is an exact one that is truncated. -/
theorem towardZero_div (number divisor : ℤ) :
    towardZero ((number : ℚ) / divisor) = number.tdiv divisor := by
  have natural (number divisor : ℕ) :
      towardZero ((number : ℚ) / divisor) = (number : ℤ).tdiv divisor := by
    rw [towardZero, if_pos (by positivity), Rat.floor_natCast_div_natCast,
      ← Int.ofNat_tdiv, Int.natCast_ediv]
  rcases number.eq_nat_or_neg with ⟨number, rfl | rfl⟩ <;>
    rcases divisor.eq_nat_or_neg with ⟨divisor, rfl | rfl⟩
  · exact natural number divisor
  · push_cast
    rw [div_neg, towardZero_neg, natural, Int.tdiv_neg]
  · push_cast
    rw [neg_div, towardZero_neg, natural, Int.neg_tdiv]
  · push_cast
    rw [neg_div_neg_eq, natural, Int.neg_tdiv, Int.tdiv_neg, neg_neg]

/-- Divisions that truncate one after the other truncate once. -/
theorem tdiv_tdiv (number first second : ℤ) :
    (number.tdiv first).tdiv second = number.tdiv (first * second) := by
  rcases number.eq_nat_or_neg with ⟨number, rfl | rfl⟩ <;>
    rcases first.eq_nat_or_neg with ⟨first, rfl | rfl⟩ <;>
      rcases second.eq_nat_or_neg with ⟨second, rfl | rfl⟩ <;>
        simp only [Int.neg_tdiv, Int.tdiv_neg, neg_mul, mul_neg, neg_neg,
          ← Int.ofNat_tdiv, ← Nat.cast_mul, Nat.div_div_eq_div_mul]

/-- Dropping digits in chunks drops as many as there are. -/
theorem dropDigits_eq (count : ℕ) (number : ℤ) :
    dropDigits count number = number.tdiv (10 ^ count) := by
  fun_induction dropDigits count number with
  | case1 count number ih =>
      show _ = number.tdiv (10 ^ (count + 5))
      rw [ih, tdiv_tdiv, pow_add, mul_comm]
      rfl
  | case2 | case3 | case4 | case5 =>
      rfl
  | case6 number =>
      exact number.tdiv_one.symm

/-- A word divided by a positive number is a word. -/
theorem IsWide.tdiv {number : ℤ} (wide : IsWide number) {divisor : ℤ}
    (positive : 0 < divisor) :
    IsWide (number.tdiv divisor) := by
  have bound := Int.natAbs_tdiv_le_natAbs number divisor
  rw [IsWide] at wide ⊢
  rcases le_total 0 number with above | below
  · have := Int.tdiv_nonneg above positive.le
    omega
  · have := Int.tdiv_nonneg (neg_nonneg.mpr below) positive.le
    rw [Int.neg_tdiv] at this
    omega

/-! ## Operations on words -/

/-- A number, unless it does not fit a signed word of 64 bits. -/
def word? (number : ℤ) : Except Fault ℤ :=
  if IsWide number then .ok number else .error .numberOverflow

/-- The product, checked; a factor of one is not applied. -/
def times? (number factor : ℤ) : Except Fault ℤ :=
  if factor = 1 then .ok number else word? (number * factor)

/-- The truncated quotient, checked; a divisor of one is not applied. -/
def over? (number divisor : ℤ) : Except Fault ℤ :=
  if divisor = 1 then .ok number
  else if divisor = 0 then .error .numberOverflow
  else word? (number.tdiv divisor)

theorem word?_of_wide {number : ℤ} (wide : IsWide number) :
    word? number = .ok number :=
  if_pos wide

theorem times?_eq {number : ℤ} (wide : IsWide number) (factor : ℤ) :
    times? number factor = word? (number * factor) := by
  rw [times?]
  split
  · next one => rw [one, mul_one, word?_of_wide wide]
  · rfl

theorem over?_eq {number : ℤ} (wide : IsWide number) (divisor : ℤ) :
    over? number divisor =
      if divisor = 0 then .error .numberOverflow
      else word? (number.tdiv divisor) := by
  rw [over?]
  split
  · next one =>
      rw [one, if_neg one_ne_zero, Int.tdiv_one, word?_of_wide wide]
  · rfl

namespace Literal

/-- The mantissa with the sign of the literal. -/
def signed (value : Literal) : ℤ :=
  if value.negative then -value.mantissa.toNat else value.mantissa.toNat

/-- The number that a literal stands for. -/
def exactValue (value : Literal) : ℚ :=
  value.signed / 10 ^ (value.placesByte.toNat - 1)

/-- The mantissa times the factor over the divisor, truncated. -/
def wholeQuotient (value : Literal) (ratio : Ratio) : ℤ :=
  towardZero ((value.mantissa.toNat * ratio.factor : ℚ) / ratio.divisor)

/-- The literal overflowed, the divisor is zero, or a number on the way fits no word. -/
def OutOfRange (value : Literal) (ratio : Ratio) : Prop :=
  value.overflowed = true ∨
    ¬ IsWide (value.mantissa.toNat * ratio.factor) ∨
    ratio.divisor = 0 ∨
    ¬ IsWide (value.wholeQuotient ratio)

instance (value : Literal) (ratio : Ratio) :
    Decidable (value.OutOfRange ratio) :=
  inferInstanceAs (Decidable (_ ∨ _))

/-- The sign does not turn the least word around, which has no opposite. -/
def Negatable (value : Literal) (ratio : Ratio) : Prop :=
  value.negative = true → value.wholeQuotient ratio ≠ -9223372036854775808

/-- The operations of scaling in their order, each checked where it is carried out. -/
def scaledInWords (value : Literal) (ratio : Ratio) : Except Fault ℤ :=
  if value.overflowed then
    .error .numberOverflow
  else do
    let product ← times? value.mantissa.toNat ratio.factor
    let quotient ← over? product ratio.divisor
    let signed ← word? (if value.negative then -quotient else quotient)
    return dropDigits value.fraction signed

variable {value : Literal} {ratio : Ratio}

/-! ## One quotient -/

theorem wholeQuotient_eq (value : Literal) (ratio : Ratio) :
    value.wholeQuotient ratio = value.quotient ratio := by
  rw [wholeQuotient, quotient, product, ← towardZero_div]
  push_cast
  rfl

theorem outOfRange_iff : value.OutOfRange ratio ↔ value.Unscalable ratio := by
  rw [OutOfRange, wholeQuotient_eq]
  exact Iff.rfl

theorem signedQuotient_eq (value : Literal) (ratio : Ratio) :
    value.signedQuotient ratio =
      (value.signed * ratio.factor).tdiv ratio.divisor := by
  rw [signedQuotient, signed, quotient, product]
  split
  · rw [neg_mul, Int.neg_tdiv]
  · rfl

/-- All divisions together are one division by the divisor and the places. -/
theorem dropDigits_signedQuotient (value : Literal) (ratio : Ratio) :
    dropDigits value.fraction (value.signedQuotient ratio) =
      towardZero (value.exactValue * ratio.factor / ratio.divisor) := by
  have together :
      value.exactValue * ratio.factor / ratio.divisor =
        ((value.signed * ratio.factor : ℤ) : ℚ) /
          (ratio.divisor * 10 ^ value.fraction : ℤ) := by
    rw [exactValue, ← fraction_eq]
    push_cast
    ring
  rw [dropDigits_eq, signedQuotient_eq, tdiv_tdiv, together, towardZero_div]

/-! ## Checking every operation -/

theorem isWide_mantissa (value : Literal) : IsWide value.mantissa.toNat := by
  have bound := value.mantissa.toNat_lt
  rw [IsWide]
  omega

/-- A quotient that fits a word fits one with its sign as well. -/
theorem isWide_signedQuotient
    (wide : IsWide (value.quotient ratio)) (negatable : value.Negatable ratio) :
    IsWide (value.signedQuotient ratio) := by
  rw [Negatable, wholeQuotient_eq] at negatable
  rw [signedQuotient]
  split
  · next negative =>
      have := negatable negative
      rw [IsWide] at wide ⊢
      omega
  · exact wide

/-- The operations in their order scale a literal. -/
theorem scaledInWords_eq (negatable : value.Negatable ratio) :
    value.scaledInWords ratio = value.scaled ratio := by
  have failed (unscalable : value.Unscalable ratio) :
      value.scaled ratio = .error .numberOverflow :=
    scaled_eq_error_iff.mpr ⟨rfl, unscalable⟩
  rw [scaledInWords]
  by_cases overflowed : value.overflowed = true
  · rw [if_pos overflowed, failed (Or.inl overflowed)]
  rw [if_neg overflowed, times?_eq value.isWide_mantissa]
  show (word? (value.product ratio)).bind _ = _
  by_cases product : IsWide (value.product ratio)
  case neg =>
    rw [word?, if_neg product, failed (Or.inr (Or.inl product))]
    rfl
  rw [word?_of_wide product]
  show (over? (value.product ratio) ratio.divisor).bind _ = _
  rw [over?_eq product]
  by_cases divisor : ratio.divisor = 0
  case pos =>
    rw [if_pos divisor, failed (Or.inr (Or.inr (Or.inl divisor)))]
    rfl
  rw [if_neg divisor]
  show (word? (value.quotient ratio)).bind _ = _
  by_cases quotient : IsWide (value.quotient ratio)
  case neg =>
    rw [word?, if_neg quotient, failed (Or.inr (Or.inr (Or.inr quotient)))]
    rfl
  rw [word?_of_wide quotient]
  show (word? (value.signedQuotient ratio)).bind _ = _
  have scalable : ¬ value.Unscalable ratio := by
    simp [Unscalable, overflowed, product, divisor, quotient]
  rw [word?_of_wide (isWide_signedQuotient quotient negatable), scaled,
    if_neg scalable]
  rfl

/-! ## The number that comes out -/

/--
A literal is scaled by one exact division that is truncated toward zero once, and
this fails exactly if the literal overflowed, the divisor is zero, or the product
or the quotient fits no word.  Checking every operation on its own comes to the
same.  So two literals for the same number are scaled to the same integer.
-/
theorem scaled_exact
    (value : Literal) (ratio : Ratio) (negatable : value.Negatable ratio) :
    value.scaledInWords ratio = value.scaled ratio ∧
      value.scaled ratio =
        (if value.OutOfRange ratio then .error .numberOverflow
          else
            .ok (towardZero (value.exactValue * ratio.factor / ratio.divisor))) ∧
      (∀ number, value.scaled ratio = .ok number → IsWide number) ∧
      ∀ other : Literal,
        other.Negatable ratio → other.exactValue = value.exactValue →
          ∀ number otherNumber,
            value.scaled ratio = .ok number →
              other.scaled ratio = .ok otherNumber → number = otherNumber := by
  refine ⟨scaledInWords_eq negatable, ?_, ?_, ?_⟩
  · rw [scaled, dropDigits_signedQuotient]
    simp only [outOfRange_iff]
  · intro number converted
    obtain ⟨scalable, rfl⟩ := scaled_eq_ok_iff.mp converted
    have wide : IsWide (value.quotient ratio) := by
      by_contra outside
      exact scalable (Or.inr (Or.inr (Or.inr outside)))
    rw [dropDigits_eq]
    exact (isWide_signedQuotient wide negatable).tdiv (by positivity)
  · intro other _ same number otherNumber converted otherConverted
    obtain ⟨_, rfl⟩ := scaled_eq_ok_iff.mp converted
    obtain ⟨_, rfl⟩ := scaled_eq_ok_iff.mp otherConverted
    rw [dropDigits_signedQuotient, dropDigits_signedQuotient, same]

/-- The literals `-1.9` and `-1.90`, scaled by `254/10`. -/
theorem scaled_exact_inches :
    let value : Literal :=
      { negative := true, mantissa := 19, overflowed := false
        places := some ⟨1, by decide⟩ }
    let other : Literal :=
      { negative := true, mantissa := 190, overflowed := false
        places := some ⟨2, by decide⟩ }
    let ratio : Ratio := { factor := 254, divisor := 10 }
    (value.Negatable ratio ∧ other.Negatable ratio ∧
        other.exactValue = value.exactValue) ∧
      value.scaledInWords ratio = value.scaled ratio ∧
      value.scaled ratio =
        (if value.OutOfRange ratio then .error .numberOverflow
          else
            .ok (towardZero (value.exactValue * ratio.factor / ratio.divisor))) ∧
      (∀ number, value.scaled ratio = .ok number → IsWide number) ∧
      ∀ number otherNumber,
        value.scaled ratio = .ok number →
          other.scaled ratio = .ok otherNumber → number = otherNumber := by
  intro value other ratio
  have negatable : value.Negatable ratio := by
    rw [Negatable, wholeQuotient_eq]
    decide
  have otherNegatable : other.Negatable ratio := by
    rw [Negatable, wholeQuotient_eq]
    decide
  have same : other.exactValue = value.exactValue := by
    have places : other.placesByte.toNat = 3 ∧ value.placesByte.toNat = 2 := by
      decide
    have signs : other.signed = -190 ∧ value.signed = -19 := by
      decide
    rw [exactValue, exactValue, places.1, places.2, signs.1, signs.2]
    norm_num
  obtain ⟨inWords, equation, wide, agrees⟩ := scaled_exact value ratio negatable
  exact
    ⟨⟨negatable, otherNegatable, same⟩, inWords, equation, wide,
      agrees other otherNegatable same⟩

end Literal

end GcodeLink

import GcodeLink.Literal.Basic
import GcodeLink.Slot

/-!
# Literals scaled to integers

A complete literal is turned into an integer by a ratio.  The order of the
operations is fixed: multiply by the factor, divide by the divisor, apply the
sign, then drop the fractional digits.  Every division truncates toward zero.
The product and the quotient must each fit a signed word of 64 bits.

The fractional digits are dropped five at a time, which keeps the divisors
small.
-/

namespace GcodeLink

/-- The factor and the divisor that turn a literal into units. -/
structure Ratio where
  factor : Int
  divisor : Int
  deriving DecidableEq, Repr

/-- The ratio that leaves a literal as it is. -/
def Ratio.one : Ratio :=
  { factor := 1, divisor := 1 }

/-- The number fits a signed word of 64 bits. -/
def IsWide (number : Int) : Prop :=
  -9223372036854775808 ≤ number ∧ number ≤ 9223372036854775807

instance (number : Int) : Decidable (IsWide number) :=
  inferInstanceAs (Decidable (_ ∧ _))

/-- Drop decimal digits from the right, five at a time. -/
def dropDigits : Nat → Int → Int
  | count + 5, number => dropDigits count (number.tdiv 100000)
  | 4, number => number.tdiv 10000
  | 3, number => number.tdiv 1000
  | 2, number => number.tdiv 100
  | 1, number => number.tdiv 10
  | 0, number => number

namespace Literal

/-- The mantissa times the factor. -/
def product (value : Literal) (ratio : Ratio) : Int :=
  value.mantissa.toNat * ratio.factor

/-- The product over the divisor, truncated, before sign and places. -/
def quotient (value : Literal) (ratio : Ratio) : Int :=
  (value.product ratio).tdiv ratio.divisor

/-- A step on the way to the scaled literal cannot be carried out. -/
def Unscalable (value : Literal) (ratio : Ratio) : Prop :=
  value.overflowed = true ∨ ¬IsWide (value.product ratio) ∨ ratio.divisor = 0 ∨
    ¬IsWide (value.quotient ratio)

instance (value : Literal) (ratio : Ratio) : Decidable (value.Unscalable ratio) :=
  inferInstanceAs (Decidable (_ ∨ _))

/--
The quotient with the sign of the literal.  The sign is applied to an integer
without bounds.  A signed word of 64 bits gives the same for every quotient that
it holds but the least, -2^63, whose opposite fits no such word.
-/
def signedQuotient (value : Literal) (ratio : Ratio) : Int :=
  if value.negative then -value.quotient ratio else value.quotient ratio

/-- The literal as an integer, scaled by a ratio. -/
def scaled (value : Literal) (ratio : Ratio) : Except Fault Int :=
  if value.Unscalable ratio then
    .error .numberOverflow
  else
    .ok (dropDigits value.fraction (value.signedQuotient ratio))

/-- The literal scaled and stored in a slot. -/
def fit {width : Type} [Slot width] (value : Literal) (ratio : Ratio) :
    Except Fault width :=
  (value.scaled ratio).bind narrow

/-- Scaling fails exactly where a step cannot be carried out. -/
theorem scaled_eq_error_iff {value : Literal} {ratio : Ratio} {fault : Fault} :
    value.scaled ratio = .error fault ↔
      fault = .numberOverflow ∧ value.Unscalable ratio := by
  unfold scaled
  split
  · next failed => simp [failed, eq_comm]
  · next fine => simp [fine]

/-- Everywhere else the digits of the signed quotient are dropped. -/
theorem scaled_eq_ok_iff {value : Literal} {ratio : Ratio} {number : Int} :
    value.scaled ratio = .ok number ↔
      ¬value.Unscalable ratio ∧
        number = dropDigits value.fraction (value.signedQuotient ratio) := by
  unfold scaled
  split
  · next failed => simp [failed]
  · next fine => simp [fine, eq_comm]

/-- What is stored in a slot stands for the scaled literal. -/
theorem scaled_of_fit {width : Type} [Slot width] {value : Literal} {ratio : Ratio} {slot : width}
    (stored : value.fit ratio = .ok slot) : value.scaled ratio = .ok (Slot.toInt slot) := by
  unfold fit at stored
  cases scaled : value.scaled ratio with
  | error fault =>
    rw [scaled] at stored
    cases stored
  | ok number =>
    rw [scaled] at stored
    rw [toInt_of_narrow stored]

end Literal

end GcodeLink

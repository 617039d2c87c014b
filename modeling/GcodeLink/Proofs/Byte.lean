import Mathlib.Data.List.Basic
import GcodeLink.Byte

/-!
# Classes of bytes, and sums of bytes

The classes of the protocol overlap in a few places only, and the reading of a
line turns on exactly which.  A terminator closes whatever is open and opens
nothing; the asterisk closes a field or a filename and opens a field; folding
changes letters and no mark.  The second half treats the exclusive or of a list
of bytes, in which one changed byte always shows.
-/

namespace GcodeLink.Byte

/-! ## Folding -/

/-- Folding keeps every byte that is not a lower-case letter. -/
theorem fold_of_not_lower
    {byte : UInt8}
    (outside : ¬ (97 ≤ byte.toNat ∧ byte.toNat ≤ 122)) :
    fold byte = byte := by
  rw [fold, if_neg]
  simpa [UInt8.le_iff_toNat_le] using outside

/-- A folded lower-case letter is a capital. -/
theorem isCapital_fold_of_lower
    {byte : UInt8}
    (low : 97 ≤ byte.toNat) (high : byte.toNat ≤ 122) :
    isCapital (fold byte) = true := by
  have lower : (97 ≤ byte && byte ≤ 122) = true := by
    simp [UInt8.le_iff_toNat_le, low, high]
  have shifted : (byte - 32).toNat = byte.toNat - 32 := by
    rw [UInt8.toNat_sub_of_le]
    · rfl
    · rw [UInt8.le_iff_toNat_le]
      exact Nat.le_trans (by decide) low
  rw [fold, if_pos lower]
  simp only [isCapital, Bool.and_eq_true, decide_eq_true_eq,
    UInt8.le_iff_toNat_le, shifted]
  constructor
  · show 65 ≤ byte.toNat - 32
    omega
  · show byte.toNat - 32 ≤ 90
    omega

/-- A byte folds to a mark other than a letter only if it is that mark. -/
theorem fold_eq_iff
    {mark : UInt8} (noLetter : isCapital mark = false)
    (small : mark.toNat < 97) (byte : UInt8) :
    fold byte = mark ↔ byte = mark := by
  by_cases lower : 97 ≤ byte.toNat ∧ byte.toNat ≤ 122
  · constructor
    · intro folded
      have capital := isCapital_fold_of_lower lower.1 lower.2
      rw [folded, noLetter] at capital
      cases capital
    · rintro rfl
      exact absurd lower.1 (Nat.not_le.mpr small)
  · rw [fold_of_not_lower lower]

@[simp]
theorem fold_eq_asterisk_iff (byte : UInt8) :
    fold byte = asterisk ↔ byte = asterisk :=
  fold_eq_iff rfl (by decide) byte

@[simp]
theorem fold_eq_space_iff (byte : UInt8) :
    fold byte = space ↔ byte = space :=
  fold_eq_iff rfl (by decide) byte

@[simp]
theorem fold_eq_semicolon_iff (byte : UInt8) :
    fold byte = semicolon ↔ byte = semicolon :=
  fold_eq_iff rfl (by decide) byte

@[simp]
theorem fold_eq_openParen_iff (byte : UInt8) :
    fold byte = openParen ↔ byte = openParen :=
  fold_eq_iff rfl (by decide) byte

@[simp]
theorem fold_eq_closeParen_iff (byte : UInt8) :
    fold byte = closeParen ↔ byte = closeParen :=
  fold_eq_iff rfl (by decide) byte

/-- Folding neither makes nor removes the end of a filename. -/
@[simp]
theorem endsFilename_fold (byte : UInt8) :
    endsFilename (fold byte) = endsFilename byte := by
  have blank : (fold byte == space) = (byte == space) := by
    rw [Bool.eq_iff_iff]
    simp
  have mark : (fold byte == asterisk) = (byte == asterisk) := by
    rw [Bool.eq_iff_iff]
    simp
  simp only [endsFilename, isTerminator_fold, blank, mark]

/-- A byte that an open field goes on with is its own fold. -/
theorem fold_of_not_endsField
    {byte : UInt8} (inside : endsField (fold byte) = false) :
    fold byte = byte := by
  by_cases lower : 97 ≤ byte.toNat ∧ byte.toNat ≤ 122
  · have capital := isCapital_fold_of_lower lower.1 lower.2
    simp [endsField, capital] at inside
  · exact fold_of_not_lower lower

/-! ## Terminators and the asterisk -/

/-- A terminator is its own fold. -/
theorem fold_of_isTerminator
    {byte : UInt8} (ends : isTerminator byte = true) :
    fold byte = byte := by
  rcases isTerminator_iff.mp ends with rfl | rfl <;> rfl

/-- A terminator is no letter. -/
theorem isCapital_of_isTerminator
    {byte : UInt8} (ends : isTerminator byte = true) :
    isCapital byte = false := by
  rcases isTerminator_iff.mp ends with rfl | rfl <;> rfl

/-- A terminator opens no field. -/
theorem opensField_of_isTerminator
    {byte : UInt8} (ends : isTerminator byte = true) :
    opensField byte = false := by
  rcases isTerminator_iff.mp ends with rfl | rfl <;> rfl

/-- A terminator opens no comment and closes none. -/
theorem ne_of_isTerminator
    {byte : UInt8} (ends : isTerminator byte = true) :
    byte ≠ semicolon ∧ byte ≠ openParen ∧ byte ≠ closeParen ∧
      byte ≠ asterisk := by
  rcases isTerminator_iff.mp ends with rfl | rfl <;> decide

/-- A terminator ends a filename. -/
theorem endsFilename_of_isTerminator
    {byte : UInt8} (ends : isTerminator byte = true) :
    endsFilename byte = true := by
  simp [endsFilename, ends]

/-! ## Lines and their sums -/

/-- No byte of the list ends a line. -/
def Unterminated (bytes : List UInt8) : Prop :=
  ∀ byte ∈ bytes, isTerminator byte = false

theorem unterminated_nil : Unterminated [] := by
  intro byte member
  cases member

theorem unterminated_cons {byte : UInt8} {rest : List UInt8} :
    Unterminated (byte :: rest) ↔
      isTerminator byte = false ∧ Unterminated rest := by
  simp [Unterminated]

theorem unterminated_append {front rest : List UInt8} :
    Unterminated (front ++ rest) ↔
      Unterminated front ∧ Unterminated rest := by
  simp only [Unterminated, List.mem_append]
  constructor
  · intro plain
    exact
      ⟨fun byte member => plain byte (Or.inl member),
        fun byte member => plain byte (Or.inr member)⟩
  · rintro ⟨left, right⟩ byte (member | member)
    · exact left byte member
    · exact right byte member

theorem unterminated_concat
    {front : List UInt8} (plain : Unterminated front)
    {byte : UInt8} (inside : ¬ isTerminator byte = true) :
    Unterminated (front ++ [byte]) := by
  apply unterminated_append.mpr
  refine ⟨plain, ?_⟩
  apply unterminated_cons.mpr
  exact ⟨Bool.eq_false_iff.mpr inside, unterminated_nil⟩

theorem unterminated_set
    {bytes : List UInt8} (plain : Unterminated bytes)
    {byte : UInt8} (inside : isTerminator byte = false) (index : Nat) :
    Unterminated (bytes.set index byte) := by
  intro other member
  rcases List.mem_or_eq_of_mem_set member with kept | rfl
  · exact plain other kept
  · exact inside

instance (bytes : List UInt8) : Decidable (Unterminated bytes) :=
  List.decidableBAll (isTerminator · = false) bytes

/-- Bytes without a terminator apart, there is a first one among them. -/
theorem unterminated_or_exists (bytes : List UInt8) :
    Unterminated bytes ∨
      ∃ text terminator rest,
        bytes = text ++ terminator :: rest ∧
          Unterminated text ∧ isTerminator terminator = true := by
  induction bytes with
  | nil =>
      exact Or.inl unterminated_nil
  | cons byte rest ih =>
      by_cases ends : isTerminator byte = true
      · exact Or.inr ⟨[], byte, rest, rfl, unterminated_nil, ends⟩
      · have inside := Bool.eq_false_iff.mpr ends
        rcases ih with plain | ⟨text, terminator, later, rfl, plain, closes⟩
        · exact Or.inl (unterminated_cons.mpr ⟨inside, plain⟩)
        · exact
            Or.inr
              ⟨byte :: text, terminator, later, rfl,
                unterminated_cons.mpr ⟨inside, plain⟩, closes⟩

/-- Every byte of the list is a digit. -/
def Decimal (bytes : List UInt8) : Prop :=
  ∀ byte ∈ bytes, isDigit byte = true

instance (bytes : List UInt8) : Decidable (Decimal bytes) :=
  List.decidableBAll (isDigit · = true) bytes

/-- The exclusive or of all bytes. -/
def sum (bytes : List UInt8) : UInt8 :=
  bytes.foldl (· ^^^ ·) 0

@[simp]
theorem sum_nil : sum [] = 0 := rfl

/-- A start value comes out of the fold. -/
theorem foldl_xor (start : UInt8) (bytes : List UInt8) :
    bytes.foldl (· ^^^ ·) start = start ^^^ sum bytes := by
  induction bytes generalizing start with
  | nil =>
      simp
  | cons byte rest ih =>
      rw [sum, List.foldl_cons, List.foldl_cons, ih (start ^^^ byte),
        ih (0 ^^^ byte), UInt8.zero_xor, UInt8.xor_assoc]

@[simp]
theorem sum_cons (byte : UInt8) (rest : List UInt8) :
    sum (byte :: rest) = byte ^^^ sum rest := by
  rw [sum, List.foldl_cons, foldl_xor, UInt8.zero_xor]

@[simp]
theorem sum_append (front rest : List UInt8) :
    sum (front ++ rest) = sum front ^^^ sum rest := by
  rw [sum, List.foldl_append, ← sum, foldl_xor]

/-- Changing one byte changes the sum. -/
theorem sum_set_ne
    {bytes : List UInt8} {index : Nat} {byte : UInt8}
    (inside : index < bytes.length) (changed : byte ≠ bytes[index]) :
    sum (bytes.set index byte) ≠ sum bytes := by
  induction bytes generalizing index with
  | nil =>
      exact absurd inside (Nat.not_lt_zero index)
  | cons first rest ih =>
      cases index with
      | zero =>
          simp only [List.set_cons_zero, sum_cons]
          intro same
          exact changed ((UInt8.xor_left_inj (sum rest)).mp same)
      | succ index =>
          simp only [List.set_cons_succ, sum_cons]
          intro same
          exact
            ih (Nat.lt_of_succ_lt_succ inside) changed
              ((UInt8.xor_right_inj first).mp same)

end GcodeLink.Byte

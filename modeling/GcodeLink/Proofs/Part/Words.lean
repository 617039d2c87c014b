import GcodeLink.Proofs.Part.Entries
import GcodeLink.Proofs.Part.Stepping

/-!
# The words of a line

A filename is a word that directly follows an `M23` or `M28`.  It starts with
the letter that closes the field, and it goes on up to the next blank, asterisk
or the end of the line; nothing of it is folded or left out.  If a line has
several such words, the last of them is its name.
-/

namespace GcodeLink.Part

/-- The word stands between these parts of a line, as a whole and where a filename may stand. -/
structure Surrounds (front : List Part) (word : List UInt8) (back : List Part) :
    Prop where
  /-- The word directly follows a field that takes a filename. -/
  follows : ∃ earlier opener body,
    front = earlier ++ [field opener body] ∧ takesName opener body = true
  letter : startsWithLetter word = true
  inside : ∀ byte ∈ word, Byte.endsFilename byte = false
  /-- The word goes on up to the next byte that ends a filename. -/
  ends : ∀ byte, (back.flatMap text).head? = some byte →
    Byte.endsFilename byte = true

/-- The word is the last one of the line that directly follows a field which takes a filename. -/
def LastWord (line word : List UInt8) : Prop :=
  ∃ front back,
    ofBytes line = front ++ filename word :: back ∧
      Surrounds front word back ∧
      ∀ name, filename name ∉ back

/-! ## The place of a word -/

theorem not_endsFilename_of_isCapital
    {byte : UInt8} (letter : Byte.isCapital (Byte.fold byte) = true) :
    Byte.endsFilename byte = false := by
  rw [← Byte.endsFilename_fold, ← Bool.not_eq_true]
  intro ends
  rw [Byte.endsFilename, Bool.or_eq_true, Bool.or_eq_true, beq_iff_eq,
    beq_iff_eq] at ends
  rcases ends with (ends | blank) | mark
  · rw [Byte.isCapital_of_isTerminator ends] at letter
    cases letter
  · rw [blank] at letter
    cases letter
  · rw [mark] at letter
    cases letter

/-- A word starts with the letter that closed the field before it. -/
theorem startsWithLetter_takeWhile
    {bytes : List UInt8} (letter : startsWithLetter bytes = true) :
    startsWithLetter (bytes.takeWhile isName) = true := by
  cases bytes with
  | nil =>
      cases letter
  | cons byte rest =>
      have inside : isName byte = true := by
        rw [isName, not_endsFilename_of_isCapital letter]
        rfl
      rw [List.takeWhile_cons_of_pos inside]
      exact letter

/-- What surrounds a word still does with one more part in front of it. -/
theorem Surrounds.cons
    {front back : List Part} {word : List UInt8}
    (surrounds : Surrounds front word back) (part : Part) :
    Surrounds (part :: front) word back where
  follows := by
    obtain ⟨earlier, opener, body, rfl, takes⟩ := surrounds.follows
    exact ⟨part :: earlier, opener, body, rfl, takes⟩
  letter := surrounds.letter
  inside := surrounds.inside
  ends := surrounds.ends

/-- The first of some parts stands before the word among them, unless it is the word. -/
theorem exists_front
    {first : Part} {rest front back : List Part} {word : List UInt8}
    (unnamed : first.name? = none)
    (split : first :: rest = front ++ filename word :: back) :
    ∃ others,
      front = first :: others ∧ rest = others ++ filename word :: back := by
  cases front with
  | nil =>
      rw [List.nil_append, List.cons.injEq] at split
      rw [split.1] at unnamed
      cases unnamed
  | cons part others =>
      rw [List.cons_append, List.cons.injEq] at split
      exact ⟨others, by rw [split.1], split.2⟩

/-- Every filename of a line stands where a word may stand, and is a whole one. -/
theorem surrounds_of_ofBytes
    {line word : List UInt8} {back : List Part} :
    ∀ {front}, ofBytes line = front ++ filename word :: back →
      Surrounds front word back := by
  fun_induction ofBytes line with
  | case1 =>
      intro front split
      cases front <;> cases split
  | case2 byte rest opens body after named =>
      rename_i ih
      intro front split
      obtain ⟨others, rfl, later⟩ := exists_front rfl split
      cases others with
      | nil =>
          rw [List.nil_append, List.cons.injEq, filename.injEq] at later
          obtain ⟨rfl, rfl⟩ := later
          rw [Bool.and_eq_true] at named
          constructor
          case follows =>
            exact ⟨[], byte, body, rfl, named.1⟩
          case letter =>
            exact startsWithLetter_takeWhile named.2
          case inside =>
            intro inner member
            simpa [isName] using List.mem_takeWhile_imp member
          case ends =>
            intro next first
            rw [flatMap_text_ofBytes] at first
            obtain ⟨others, follows⟩ := List.head?_eq_some_iff.mp first
            simpa [isName] using stops_of_dropWhile follows
      | cons name others =>
          rw [List.cons_append, List.cons.injEq] at later
          exact ((ih later.2).cons name).cons (field byte body)
  | case3 byte rest opens body after unnamed =>
      rename_i ih
      intro front split
      obtain ⟨others, rfl, later⟩ := exists_front rfl split
      exact (ih later).cons (field byte body)
  | case4 byte rest opens semicolon =>
      intro front split
      obtain ⟨others, rfl, later⟩ := exists_front rfl split
      cases others <;> cases later
  | case5 byte rest opens semicolon paren ih =>
      intro front split
      obtain ⟨others, rfl, later⟩ := exists_front rfl split
      exact (ih later).cons _
  | case6 byte rest opens semicolon paren ih =>
      intro front split
      obtain ⟨others, rfl, later⟩ := exists_front rfl split
      exact (ih later).cons (blank byte)

/-! ## The last word -/

theorem exists_lastName
    {parts : List Part} (named : lastName parts ≠ []) :
    ∃ front back,
      parts = front ++ filename (lastName parts) :: back ∧
        ∀ name, filename name ∉ back := by
  induction parts using List.reverseRecOn with
  | nil =>
      exact absurd rfl named
  | append_singleton parts part ih =>
      cases named? : part.name? with
      | some name =>
          cases part with
          | filename name =>
              rw [lastName_append_filename]
              exact ⟨parts, [], rfl, fun _ => List.not_mem_nil⟩
          | field _ _ | comment _ | blank _ =>
              cases named?
      | none =>
          rw [lastName_append_of_none parts named?] at named ⊢
          obtain ⟨front, back, split, later⟩ := ih named
          refine ⟨front, back ++ [part], ?_, ?_⟩
          · rw [← List.cons_append, ← List.append_assoc, ← split]
          · intro name member
            rcases List.mem_append.mp member with member | member
            · exact later name member
            · rw [← List.mem_singleton.mp member] at named?
              cases named?

theorem lastName_of_last
    {front back : List Part} {word : List UInt8}
    (last : ∀ name, filename name ∉ back) :
    lastName (front ++ filename word :: back) = word := by
  have unnamed : back.filterMap name? = [] := by
    rw [List.filterMap_eq_nil_iff]
    intro part member
    cases part with
    | filename name => exact absurd member (last name)
    | field _ _ | comment _ | blank _ => rfl
  have own : name? (filename word) = some word := rfl
  rw [lastName, List.filterMap_append, List.filterMap_cons_some own, unnamed,
    List.getLast?_concat]
  rfl

/-- The name of a line is its last word; a line without words has no name. -/
theorem lastWord_iff {line word : List UInt8} :
    LastWord line word ↔ lastName (ofBytes line) = word ∧ word ≠ [] := by
  constructor
  · rintro ⟨front, back, split, surrounds, last⟩
    rw [split, lastName_of_last last]
    refine ⟨rfl, ?_⟩
    rintro rfl
    cases surrounds.letter
  · rintro ⟨rfl, named⟩
    obtain ⟨front, back, split, last⟩ := exists_lastName named
    exact ⟨front, back, split, surrounds_of_ofBytes split, last⟩

end GcodeLink.Part

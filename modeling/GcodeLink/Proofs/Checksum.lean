import GcodeLink.Proofs.Reading

/-!
# The checksum of a line

The checksum of a line is marked by its first asterisk outside comments.  The
bytes before the mark are summed, the mark itself if the policy says so, and
nothing after it; a line without a mark is summed as a whole, with its
terminator.  On what the sum covers, the cut of a line into parts and the
receiver agree after every byte, and from there the verdict is a matter of
comparing two numbers with what was read.
-/

namespace GcodeLink

namespace Part

/-! ## Asterisks in the parts of a line -/

/-- The part is a comment. -/
def isComment : Part → Bool
  | comment _ => true
  | _ => false

theorem asterisk_not_mem_takeWhile
    {test : UInt8 → Bool} (stops : test Byte.asterisk = false)
    (bytes : List UInt8) :
    Byte.asterisk ∉ bytes.takeWhile test := by
  intro member
  rw [List.mem_takeWhile_imp member] at stops
  cases stops

/-- An asterisk stands in a comment, or it opens a checksum field. -/
theorem isMark_or_isComment_of_asterisk
    {line : List UInt8} {part : Part}
    (member : part ∈ ofBytes line) (asterisk : Byte.asterisk ∈ part.text) :
    part.isMark = true ∨ part.isComment = true := by
  have opening {opener : UInt8} {body : List UInt8}
      (inside : Byte.asterisk ∈ opener :: body.takeWhile isBody) :
      (opener == Byte.asterisk) = true := by
    rcases List.mem_cons.mp inside with rfl | inside
    · rfl
    · exact absurd inside (asterisk_not_mem_takeWhile rfl body)
  fun_induction ofBytes line with
  | case1 =>
      cases member
  | case2 byte rest opens body after named ih =>
      rcases List.mem_cons.mp member with rfl | member
      · exact Or.inl (opening asterisk)
      · rcases List.mem_cons.mp member with rfl | member
        · exact absurd asterisk (asterisk_not_mem_takeWhile rfl after)
        · exact ih member
  | case3 byte rest opens body after unnamed ih =>
      rcases List.mem_cons.mp member with rfl | member
      · exact Or.inl (opening asterisk)
      · exact ih member
  | case4 byte rest opens semicolon =>
      rw [List.mem_singleton] at member
      exact Or.inr (by rw [member]; rfl)
  | case5 byte rest opens semicolon paren ih =>
      rcases List.mem_cons.mp member with rfl | member
      · exact Or.inr rfl
      · exact ih member
  | case6 byte rest opens semicolon paren ih =>
      rcases List.mem_cons.mp member with rfl | member
      · rw [text, List.mem_singleton] at asterisk
        exact absurd (by rw [← asterisk]; rfl) opens
      · exact ih member

/-! ## What the sum covers -/

variable (includesMark : Bool)

theorem covered_of_unmarked
    {parts : List Part} (unmarked : parts.any isMark = false) :
    covered includesMark parts = parts.flatMap text := by
  induction parts with
  | nil =>
      rfl
  | cons part rest ih =>
      rw [List.any_cons, Bool.or_eq_false_iff] at unmarked
      rw [covered, unmarked.1, if_neg Bool.false_ne_true, ih unmarked.2,
        List.flatMap_cons]

theorem covered_append
    {front : List Part} (unmarked : front.any isMark = false)
    (rest : List Part) :
    covered includesMark (front ++ rest) =
      front.flatMap text ++ covered includesMark rest := by
  induction front with
  | nil =>
      rfl
  | cons part front ih =>
      rw [List.any_cons, Bool.or_eq_false_iff] at unmarked
      rw [List.cons_append, covered, unmarked.1, if_neg Bool.false_ne_true,
        ih unmarked.2, List.flatMap_cons, List.append_assoc]

/-- A line that starts with an asterisk starts with a checksum field. -/
theorem ofBytes_asterisk (back : List UInt8) :
    ofBytes (Byte.asterisk :: back) =
      field Byte.asterisk (back.takeWhile isBody) ::
        ofBytes (back.dropWhile isBody) := by
  apply ofBytes_of_unnamed
  · rfl
  · rfl

/-- Nothing is covered after the mark. -/
theorem covered_ofBytes_asterisk (back : List UInt8) :
    covered includesMark (ofBytes (Byte.asterisk :: back)) =
      if includesMark then [Byte.asterisk] else [] := by
  rw [ofBytes_asterisk]
  rfl

end Part

namespace Receiver

variable {receiver : Receiver}

/-! ## The mark, in the receiver and in the parts -/

/-- The checksum counts as seen as soon as the bytes so far hold a mark. -/
theorem checksum_stepAll
    (start : receiver.AtLineStart) (bytes : List UInt8) :
    (receiver.stepAll bytes).command.seen.checksum =
      (Part.ofBytes bytes).any Part.isMark := by
  have ends : Byte.isTerminator Byte.lineFeed = true := rfl
  have read := reads_complete start bytes ends
  rw [← read.checksum, complete, checksum_absorbAll, stepAll_append,
    stepAll_cons, stepAll_nil, checksum_step_of_isTerminator _ ends]

/-- A line with a mark is cut in two at its first mark. -/
theorem exists_first_mark
    (start : receiver.AtLineStart) {line : List UInt8}
    (marked : (Part.ofBytes line).any Part.isMark = true) :
    ∃ front back,
      line = front ++ Byte.asterisk :: back ∧
        (Part.ofBytes front).any Part.isMark = false ∧
        (receiver.stepAll front).phase.isComment = false := by
  have unmarked : receiver.command.seen.checksum = false := by
    rw [start.2.1]
    rfl
  rw [← checksum_stepAll start] at marked
  obtain ⟨front, back, text, before, outside⟩ := exists_mark unmarked marked
  rw [checksum_stepAll start] at before
  exact ⟨front, back, text, before, outside⟩

/-- Of a line with a mark, the bytes before its first mark are covered. -/
theorem covered_ofBytes
    (start : receiver.AtLineStart) {front : List UInt8}
    (unmarked : (Part.ofBytes front).any Part.isMark = false)
    (outside : (receiver.stepAll front).phase.isComment = false)
    (includesMark : Bool) (back : List UInt8) :
    Part.covered includesMark (Part.ofBytes (front ++ Byte.asterisk :: back)) =
      front ++ if includesMark then [Byte.asterisk] else [] := by
  rw [Part.ofBytes_append_asterisk start.1 outside,
    Part.covered_append includesMark unmarked, Part.flatMap_text_ofBytes,
    Part.covered_ofBytes_asterisk]

/-- The sum of bytes without a mark is that of them all. -/
theorem sum_absorbAll_unmarked
    (start : receiver.AtLineStart) {bytes : List UInt8}
    (unmarked : (Part.ofBytes bytes).any Part.isMark = false) :
    (receiver.absorbAll bytes).command.sum = Byte.sum bytes := by
  have zero : receiver.command.sum = 0 := start.2.2.2.2.1
  rw [← checksum_stepAll start] at unmarked
  rw [sum_absorbAll_of_unmarked unmarked, zero, UInt8.zero_xor]

/-- After any bytes of a line the sum is that of the bytes it covers. -/
theorem sum_absorbAll
    (start : receiver.AtLineStart) (bytes : List UInt8) :
    (receiver.absorbAll bytes).command.sum =
      Byte.sum
        (Part.covered receiver.policy.sumIncludesMark (Part.ofBytes bytes)) := by
  cases marks : (Part.ofBytes bytes).any Part.isMark with
  | false =>
      rw [sum_absorbAll_unmarked start marks, Part.covered_of_unmarked _ marks,
        Part.flatMap_text_ofBytes]
  | true =>
      obtain ⟨front, back, rfl, unmarked, outside⟩ := exists_first_mark start marks
      have zero : receiver.command.sum = 0 := start.2.2.2.2.1
      rw [covered_ofBytes start unmarked outside]
      rw [← checksum_stepAll start] at unmarked
      rw [sum_absorbAll_of_mark unmarked outside, zero, UInt8.zero_xor]

/-- The bytes before others hold no mark if there is none among them all. -/
theorem unmarked_of_append
    (start : receiver.AtLineStart) {front rest : List UInt8}
    (unmarked : (Part.ofBytes (front ++ rest)).any Part.isMark = false) :
    (Part.ofBytes front).any Part.isMark = false := by
  rw [← checksum_stepAll start, ← Bool.not_eq_true]
  intro marked
  rw [← checksum_stepAll start, stepAll_append,
    checksum_stepAll_of_checksum marked] at unmarked
  cases unmarked

/-- What is covered so far is as much of what the line covers. -/
theorem covered_of_append
    (start : receiver.AtLineStart) (includesMark : Bool)
    (front rest : List UInt8) :
    Part.covered includesMark (Part.ofBytes front) =
      (Part.covered includesMark (Part.ofBytes (front ++ rest))).take
        front.length := by
  have whole {bytes : List UInt8}
      (unmarked : (Part.ofBytes bytes).any Part.isMark = false) :
      Part.covered includesMark (Part.ofBytes bytes) = bytes := by
    rw [Part.covered_of_unmarked _ unmarked, Part.flatMap_text_ofBytes]
  cases marks : (Part.ofBytes (front ++ rest)).any Part.isMark with
  | false =>
      rw [whole (unmarked_of_append start marks), whole marks, List.take_left]
  | true =>
      obtain ⟨before, back, text, unmarked, outside⟩ :=
        exists_first_mark start marks
      rw [text, covered_ofBytes start unmarked outside]
      rcases List.append_eq_append_iff.mp text with
        ⟨between, rfl, _⟩ | ⟨between, rfl, after⟩
      · -- the bytes so far end before the mark
        rw [whole (unmarked_of_append start unmarked), List.append_assoc,
          List.take_left]
      · cases between with
        | nil =>
            rw [List.append_nil, whole unmarked, List.take_left]
        | cons mark between =>
            -- the mark is among the bytes so far
            rw [List.cons_append, List.cons.injEq] at after
            rw [← after.1, covered_ofBytes start unmarked outside,
              List.take_of_length_le]
            cases includesMark <;> simp

/-- A terminator is covered as well if the line has no mark. -/
theorem sum_complete
    (start : receiver.AtLineStart) {line : List UInt8} {terminator : UInt8}
    (ends : Byte.isTerminator terminator = true) :
    (receiver.complete line terminator).command.sum =
      Byte.sum
        (Part.covered receiver.policy.sumIncludesMark (Part.ofBytes line) ++
          if (Part.ofBytes line).any Part.isMark then [] else [terminator]) := by
  cases marks : (Part.ofBytes line).any Part.isMark with
  | false =>
      have unmarked :
          (receiver.stepAll (line ++ [terminator])).command.seen.checksum =
            false := by
        rw [stepAll_append, stepAll_cons, stepAll_nil,
          checksum_step_of_isTerminator _ ends, checksum_stepAll start, marks]
      have zero : receiver.command.sum = 0 := start.2.2.2.2.1
      rw [complete, sum_absorbAll_of_unmarked unmarked, zero, UInt8.zero_xor,
        Part.covered_of_unmarked _ marks, Part.flatMap_text_ofBytes]
      rfl
  | true =>
      have marked : (receiver.absorbAll line).command.seen.checksum = true := by
        rw [checksum_absorbAll, checksum_stepAll start, marks]
      rw [complete, absorbAll_append, sum_absorbAll_of_marked marked,
        sum_absorbAll start, if_pos rfl, List.append_nil]

end Receiver

end GcodeLink

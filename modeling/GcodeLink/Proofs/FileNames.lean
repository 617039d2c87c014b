import GcodeLink.Proofs.Acknowledgement
import GcodeLink.Proofs.Channel.Abandonment
import GcodeLink.Proofs.Command.Agreement
import GcodeLink.Proofs.Part.Words

/-!
# The names of files

A file is created under the name that its line gives it, and under no other.
The name is collected in the middle of the line, in a buffer that may still hold
an earlier one and may be too small for it, and it is looked at no sooner than
when the line has ended.  Still no name is shortened, and none outlives its
line: a line whose last word is too long, or that has no word, creates nothing.

A line is here what was pushed since the last terminator, in whatever pieces it
came.  A line that was refused for its length is no part of it.
-/

namespace GcodeLink

variable {State : Type}

/-! ## What creates a file -/

namespace Disposition

/-- A file is created for an accepted line in order that says so and has a complete name. -/
theorem ofLine_eq_beginCapture_iff
    {writing : Bool} {verdict : Verdict} {command : Command}
    {name : List UInt8} :
    ofLine writing verdict command = .beginCapture name ↔
      verdict = .accepted ∧ writing = false ∧ command.malformed = false ∧
        command.mCode? = some 28 ∧ command.filename.isComplete = true ∧
        command.filename.bytes = name := by
  constructor
  · intro begins
    have idle : writing = false := by
      have suits := suits_ofLine writing verdict command
      rw [begins] at suits
      exact suits
    cases verdict with
    | rejected fault =>
        cases begins
    | accepted =>
        rw [idle, ofLine_not_writing, executing] at begins
        split_ifs at begins with malformed opens complete
        exact
          ⟨rfl, idle, Bool.eq_false_iff.mpr malformed, opens, complete,
            Disposition.beginCapture.inj begins⟩
  · rintro ⟨rfl, rfl, converted, opens, complete, rfl⟩
    rw [ofLine_not_writing, executing, converted, if_neg Bool.false_ne_true,
      if_pos opens, if_pos complete]

/-- Only the beginning of a file creates one, and it answers the host after that. -/
theorem eq_beginCapture_of_create
    {operations : Machine State} {machine : State} {command : Command}
    {line : Line} {disposition : Disposition} {early late : List Call}
    {name : List UInt8} {failure : Option StorageFailure}
    (creates :
      disposition.calls operations machine command line =
        early ++ .create name failure :: late) :
    disposition = .beginCapture name ∧ early = [] ∧
      late = [.reply (.after failure .ok .openFailed)] := by
  have member := List.mem_iff_append.mpr ⟨early, late, creates⟩
  cases disposition with
  | beginCapture other =>
      cases early with
      | nil =>
          rw [List.nil_append, calls, List.cons.injEq, Call.create.injEq] at creates
          obtain ⟨⟨rfl, rfl⟩, rfl⟩ := creates
          exact ⟨rfl, rfl, rfl⟩
      | cons first early =>
          rw [calls, List.cons_append, List.cons.injEq] at creates
          have replied := List.mem_iff_append.mpr ⟨early, late, creates.2⟩
          cases List.mem_singleton.mp replied
  | refuse fault =>
      obtain ⟨_, _, impossible⟩ := List.mem_map.mp member
      cases impossible
  | execute =>
      rw [calls] at member
      split at member <;> simp at member
  | refuseMalformed | refuseName | acknowledge | endCapture | store =>
      simp [calls] at member

end Disposition

/-- The name in the record is complete exactly if that of its line is there and fits. -/
theorem Command.Reads.isComplete_iff
    {record before : Command} {scale : Scale} {parts : List Part}
    (reads : record.Reads before scale parts) :
    record.filename.isComplete = true ↔
      Part.lastName parts ≠ [] ∧ (Part.lastName parts).length ≤ 120 := by
  have empty : record.filename.isEmpty = (Part.lastName parts).isEmpty := by
    show record.filename.bytes.isEmpty = _
    rw [reads.filename]
    cases Part.lastName parts <;> rfl
  rw [Filename.isComplete, empty, reads.truncated, Bool.and_eq_true,
    Bool.not_eq_true', Bool.not_eq_true', List.isEmpty_eq_false_iff,
    decide_eq_false_iff_not, Nat.not_lt]
  rfl

/-- A complete name in the record is the last word of its line, neither empty nor too long. -/
theorem Command.Reads.lastWord_of_isComplete
    {record before : Command} {scale : Scale} {line : List UInt8}
    (reads : record.Reads before scale (Part.ofBytes line))
    (complete : record.filename.isComplete = true) :
    (∀ word, Part.LastWord line word ↔ word = record.filename.bytes) ∧
      1 ≤ record.filename.bytes.length ∧
      record.filename.bytes.length ≤ 120 := by
  obtain ⟨named, short⟩ := reads.isComplete_iff.mp complete
  have whole : record.filename.bytes = Part.lastName (Part.ofBytes line) := by
    rw [reads.filename]
    exact List.take_of_length_le short
  rw [whole]
  refine ⟨?_, List.length_pos_iff.mpr named, short⟩
  intro word
  rw [Part.lastWord_iff]
  constructor
  · exact fun found => found.1.symm
  · rintro rfl
    exact ⟨rfl, named⟩

namespace Channel

variable {operations : Machine State}

/-! ## The line that is being read -/

/-- The byte that an act pushes. -/
def Act.byte? : Act → Option UInt8
  | .push _ byte => some byte
  | .refuse => none

/-- The bytes that acts have pushed since the last terminator. -/
def openLine (acts : List Act) : List UInt8 :=
  Segment.opened [] (acts.filterMap Act.byte?)

theorem openLine_push (front : List Act) (line : Line) (byte : UInt8) :
    openLine (front ++ [.push line byte]) =
      if Byte.isTerminator byte then [] else openLine front ++ [byte] := by
  rw [openLine, List.filterMap_append, Segment.opened_append]
  rfl

theorem openLine_refuse (front : List Act) :
    openLine (front ++ [.refuse]) = openLine front := by
  rw [openLine, List.filterMap_append]
  exact congrArg (Segment.opened []) (List.append_nil _)

/-- The receiver has read the open line from its start, and nothing else of it. -/
theorem receiver_performAll
    (operations : Machine State)
    {channel : Channel State} (start : channel.receiver.AtLineStart)
    (acts : List Act) :
    ∃ beginning : Receiver,
      beginning.AtLineStart ∧
        (channel.performAll operations acts).receiver =
          beginning.absorbAll (openLine acts) := by
  induction acts using List.reverseRecOn with
  | nil =>
      exact ⟨channel.receiver, start, rfl⟩
  | append_singleton front act ih =>
      obtain ⟨beginning, fresh, read⟩ := ih
      rw [performAll_append, performAll_cons, performAll_nil]
      cases act with
      | refuse =>
          rw [openLine_refuse]
          exact ⟨beginning, fresh, read⟩
      | push line byte =>
          rw [openLine_push, perform, receiver_push]
          split
          · next ends =>
              have pushed (listener : Verdict → Command → Command)
                  (receiver : Receiver) :
                  ∃ beginning : Receiver,
                    beginning.AtLineStart ∧
                      receiver.push listener byte = beginning.absorbAll [] :=
                ⟨_, Receiver.atLineStart_push listener receiver ends, rfl⟩
              exact pushed _ _
          · next inside =>
              refine ⟨beginning, fresh, ?_⟩
              rw [Receiver.push_of_not_terminator _ _
                (Bool.eq_false_iff.mpr inside), read,
                Receiver.absorbAll_append]
              rfl

/-- The record that a terminator hands over says what the open line says. -/
theorem exists_reads_delivered
    (operations : Machine State)
    {channel : Channel State} (start : channel.receiver.AtLineStart)
    (acts : List Act) {terminator : UInt8}
    (ends : Byte.isTerminator terminator = true) :
    ∃ before scale,
      ((channel.performAll operations acts).receiver.absorb
          terminator).delivered.Reads before scale
        (Part.ofBytes (openLine acts)) := by
  obtain ⟨beginning, fresh, read⟩ :=
    receiver_performAll operations start acts
  have reads := Receiver.reads_delivered fresh (openLine acts) ends
  rw [Receiver.complete, Receiver.absorbAll_append, ← read] at reads
  exact ⟨beginning.command, beginning.scale, reads⟩

/-! ## The act behind a call -/

/-- Every call is made by some act, after the calls of the acts before it. -/
theorem exists_act_of_call
    {channel : Channel State} (silent : channel.outlet.calls = [])
    {acts : List Act} {earlier later : List Call} {call : Call}
    (split :
      (channel.performAll operations acts).outlet.calls =
        earlier ++ call :: later) :
    ∃ front act back early late,
      acts = front ++ act :: back ∧
        earlier = (channel.performAll operations front).outlet.calls ++ early ∧
        ((channel.performAll operations front).perform operations
            act).outlet.calls =
          (channel.performAll operations front).outlet.calls ++
            (early ++ call :: late) := by
  induction acts using List.reverseRecOn generalizing later with
  | nil =>
      rw [performAll_nil, silent] at split
      cases earlier <;> cases split
  | append_singleton front act ih =>
      obtain ⟨made, calls, _⟩ :=
        acknowledged_perform operations (channel.performAll operations front) act
      rw [performAll_append, performAll_cons, performAll_nil, calls] at split
      rcases List.append_eq_append_iff.mp split with
        ⟨early, place, made_eq⟩ | ⟨between, before, after⟩
      · -- the act itself makes the call
        refine ⟨front, act, [], early, later, rfl, place, ?_⟩
        rw [calls, made_eq]
      · cases between with
        | nil =>
            refine ⟨front, act, [], [], later, rfl, ?_, ?_⟩
            · rw [before, List.append_nil, List.append_nil]
            · rw [calls, List.nil_append, after, List.nil_append]
        | cons first between =>
            -- an act before it does
            rw [List.cons_append, List.cons.injEq] at after
            obtain ⟨rfl, _⟩ := after
            obtain ⟨start, other, back, early, late, rfl, place, made⟩ :=
              ih before
            exact
              ⟨start, other, back ++ [act], early, late,
                List.append_assoc start (other :: back) [act], place, made⟩

/-- A file is created by an act that ends a line, and by nothing else in it. -/
theorem ended_of_create
    {channel : Channel State} {act : Act} {early late : List Call}
    {name : List UInt8} {failure : Option StorageFailure}
    (creates :
      (channel.perform operations act).outlet.calls =
        channel.outlet.calls ++ (early ++ .create name failure :: late)) :
    ∃ line terminator,
      act = .push line terminator ∧
        Byte.isTerminator terminator = true ∧
        Disposition.ofLine channel.outlet.capturing
            (channel.receiver.absorb terminator).verdict
            (channel.receiver.absorb terminator).delivered =
          .beginCapture name ∧
        early = [] ∧ late = [.reply (.after failure .ok .openFailed)] := by
  cases act with
  | refuse =>
      rw [perform, refuse, Outlet.calls_refuse,
        List.append_cancel_left_eq] at creates
      have replied := List.mem_iff_append.mpr ⟨early, late, creates⟩
      obtain ⟨_, _, impossible⟩ := List.mem_map.mp replied
      cases impossible
  | push line byte =>
      by_cases ends : Byte.isTerminator byte = true
      · have ended : channel.ended? (.push line byte) = _ := if_pos ends
        rw [calls_perform_of_ended operations ended,
          List.append_cancel_left_eq] at creates
        obtain ⟨begins, first, last⟩ :=
          Disposition.eq_beginCapture_of_create creates
        exact ⟨line, byte, rfl, ends, begins, first, last⟩
      · rw [perform_of_inside operations channel line
          (Bool.eq_false_iff.mpr ends), List.self_eq_append_right] at creates
        cases early <;> cases creates

/-! ## The names that come out -/

/--
At this terminator the line is accepted and in order, its last code is `M28`, and
no file is being written.
-/
structure AsksFile
    (channel : Channel State) (line : List UInt8) (terminator : UInt8) :
    Prop where
  ends : Byte.isTerminator terminator = true
  executing : channel.outlet.capturing = false
  accepted : (channel.receiver.absorb terminator).verdict = .accepted
  converted : (channel.receiver.absorb terminator).delivered.malformed = false
  code : Entry.mCode? (Part.entries (Part.ofBytes line)) = some 28

/-- A line that asks for a file is refused if no word of it is short enough. -/
theorem ofLine_of_asksFile
    {channel : Channel State} {line : List UInt8} {terminator : UInt8}
    (asks : channel.AsksFile line terminator)
    {before : Command} {scale : Scale}
    (reads :
      (channel.receiver.absorb terminator).delivered.Reads before scale
        (Part.ofBytes line))
    (unnamed : ∀ word, Part.LastWord line word → 120 < word.length) :
    Disposition.ofLine channel.outlet.capturing
        (channel.receiver.absorb terminator).verdict
        (channel.receiver.absorb terminator).delivered =
      .refuseName := by
  have incomplete :
      ¬ (channel.receiver.absorb terminator).delivered.filename.isComplete =
        true := by
    intro complete
    obtain ⟨words, _, short⟩ := reads.lastWord_of_isComplete complete
    exact Nat.not_lt.mpr short (unnamed _ ((words _).mpr rfl))
  have code :
      (channel.receiver.absorb terminator).delivered.mCode? = some 28 :=
    reads.entries.mCode.trans asks.code
  rw [asks.executing, asks.accepted, Disposition.ofLine_not_writing,
    Disposition.executing, asks.converted, if_neg Bool.false_ne_true,
    if_pos code, if_neg incomplete]

/-- A line that is refused for its name is answered once, and nothing else comes of it. -/
theorem perform_of_refuseName
    (operations : Machine State)
    {channel : Channel State} (line : Line) {terminator : UInt8}
    (ends : Byte.isTerminator terminator = true)
    (refused :
      Disposition.ofLine channel.outlet.capturing
          (channel.receiver.absorb terminator).verdict
          (channel.receiver.absorb terminator).delivered =
        .refuseName) :
    (channel.perform operations (.push line terminator)).outlet.calls =
        channel.outlet.calls ++ [.reply .openFailed] ∧
      (channel.perform operations (.push line terminator)).outlet.capturing =
        channel.outlet.capturing := by
  rw [perform, push, if_pos ends]
  constructor
  · show (channel.outlet.route operations _ _ line).outlet.calls = _
    rw [Outlet.calls_route, refused]
    rfl
  · show (channel.outlet.route operations _ _ line).outlet.capturing = _
    rw [Outlet.capturing_route, refused]
    rfl

/--
However a new channel is used, it creates a file only at the end of a line that
asks for one, and under the last word of that line, which is whole.  A line that
asks for a file and has no word, or one that is too long, is answered once and
creates nothing.
-/
theorem serveAll_names
    (operations : Machine State) (policy : Policy) (scale : Scale)
    (machine : State) (requests : List Request) :
    let fresh := Channel.new (Receiver.new policy scale) machine
    let acts := Channel.acts operations fresh requests
    let reached := fun front : List Act => fresh.performAll operations front
    reached acts = fresh.serveAll operations requests ∧
      (∀ earlier name failure later,
        (fresh.serveAll operations requests).outlet.calls =
            earlier ++ .create name failure :: later →
          ∃ front line terminator back,
            acts = front ++ .push line terminator :: back ∧
              (reached front).outlet.calls = earlier ∧
              (reached front).AsksFile (openLine front) terminator ∧
              (∀ word, Part.LastWord (openLine front) word ↔ word = name) ∧
              1 ≤ name.length ∧ name.length ≤ 120 ∧
              (reached (front ++ [.push line terminator])).outlet.calls =
                earlier ++
                  [.create name failure,
                    .reply (.after failure .ok .openFailed)]) ∧
      ∀ front line terminator back,
        acts = front ++ .push line terminator :: back →
          (reached front).AsksFile (openLine front) terminator →
            (∀ word, Part.LastWord (openLine front) word → 120 < word.length) →
              (reached (front ++ [.push line terminator])).outlet.calls =
                  (reached front).outlet.calls ++ [.reply .openFailed] ∧
                (reached (front ++ [.push line terminator])).outlet.capturing =
                  false := by
  intro fresh acts reached
  have start : fresh.receiver.AtLineStart := Receiver.atLineStart_new policy scale
  have next (front : List Act) (act : Act) :
      reached (front ++ [act]) = (reached front).perform operations act :=
    fresh.performAll_append operations front [act]
  refine ⟨performAll_acts operations fresh requests, ?_, ?_⟩
  · intro earlier name failure later split
    rw [← performAll_acts] at split
    obtain ⟨front, act, back, early, late, place, before, creates⟩ :=
      exists_act_of_call rfl split
    obtain ⟨line, terminator, rfl, ends, begins, rfl, rfl⟩ :=
      ended_of_create creates
    obtain ⟨accepted, executing, converted, code, complete, rfl⟩ :=
      Disposition.ofLine_eq_beginCapture_iff.mp begins
    obtain ⟨record, units, reads⟩ :=
      exists_reads_delivered operations start front ends
    obtain ⟨words, nonempty, short⟩ := reads.lastWord_of_isComplete complete
    have asks : (reached front).AsksFile (openLine front) terminator :=
      ⟨ends, executing, accepted, converted, reads.entries.mCode.symm.trans code⟩
    rw [List.append_nil] at before
    refine
      ⟨front, line, terminator, back, place, before.symm, asks, words, nonempty,
        short, ?_⟩
    rw [next, before]
    exact creates
  · intro front line terminator back _ asks unnamed
    obtain ⟨record, units, reads⟩ :=
      exists_reads_delivered operations start front asks.ends
    obtain ⟨calls, capturing⟩ :=
      perform_of_refuseName operations line asks.ends
        (ofLine_of_asksFile asks reads unnamed)
    rw [next]
    exact ⟨calls, capturing.trans asks.executing⟩

end Channel

end GcodeLink

import Mathlib.Data.List.Induction
import GcodeLink.Proofs.Channel.Requests
import GcodeLink.Proofs.Outlet

/-!
# One file at a time

A channel uses storage as a file is used: a file is created, written and closed
before the next one is created, and no command is executed in between.  Whether
a file is open can be told from the calls alone, and the channel's mode is never
anything else.

The invariant is a small automaton over the calls, `Call.file?`, which refuses a
call that is out of order.  Every line that is routed makes calls that the
automaton takes, from the mode of the outlet before it to the mode after it.
-/

namespace GcodeLink

namespace Call

/-- A successful create has not been followed by a close yet. -/
def FileOpen (calls : List Call) : Prop :=
  ∃ front name back,
    calls = front ++ .create name none :: back ∧
      ∀ failure, .close failure ∉ back

/-- The calls use storage as a file is used, one file at a time. -/
structure Orderly (calls : List Call) : Prop where
  /-- A file is created while none is open, and is open then unless that failed. -/
  create : ∀ {front name failure back},
    calls = front ++ .create name failure :: back →
      ¬ FileOpen front ∧
        (FileOpen (front ++ [.create name failure]) ↔ failure = none)
  /-- Bytes are written to an open file, which stays open even if that fails. -/
  write : ∀ {front data failure back},
    calls = front ++ .write data failure :: back →
      FileOpen front ∧ FileOpen (front ++ [.write data failure])
  /-- A close ends the one file created since the close before, even if it fails. -/
  close : ∀ {front failure back},
    calls = front ++ .close failure :: back →
      ¬ FileOpen (front ++ [.close failure]) ∧
        ∃ earlier name between,
          front = earlier ++ .create name none :: between ∧
            ¬ FileOpen earlier ∧
            (∀ other, .create other none ∉ between) ∧
            ∀ other, .close other ∉ between
  /-- Commands are executed while no file is open. -/
  process : ∀ {front command back},
    calls = front ++ .process command :: back → ¬ FileOpen front

/-! ## The automaton -/

/-- Whether a file is open after a call, given whether one was; `none` for a call out of order. -/
def file? (opened : Bool) : Call → Option Bool
  | .reply _ => some opened
  | .process _ => if opened then none else some false
  | .create _ failure => if opened then none else some failure.isNone
  | .write _ _ => if opened then some true else none
  | .close _ => if opened then some false else none

/-- Whether a file is open after calls in order. -/
def fileAfter? (opened : Bool) (calls : List Call) : Option Bool :=
  calls.foldlM file? opened

theorem fileAfter?_append (opened : Bool) (front back : List Call) :
    fileAfter? opened (front ++ back) =
      (fileAfter? opened front).bind fun between =>
        fileAfter? between back :=
  List.foldlM_append

theorem fileAfter?_concat (opened : Bool) (front : List Call) (call : Call) :
    fileAfter? opened (front ++ [call]) =
      (fileAfter? opened front).bind fun between => file? between call := by
  rw [fileAfter?_append]
  congr 1
  funext between
  exact bind_pure _

/--
Calls in order are in order up to any of them, and that one is in order after
those before it.
-/
theorem exists_file?
    {start opened : Bool} {front back : List Call} {call : Call}
    (order : fileAfter? start (front ++ call :: back) = some opened) :
    ∃ before after,
      fileAfter? start front = some before ∧
        file? before call = some after ∧
        fileAfter? after back = some opened := by
  rw [fileAfter?_append] at order
  obtain ⟨before, reached, later⟩ := Option.bind_eq_some_iff.mp order
  rw [fileAfter?, List.foldlM_cons] at later
  obtain ⟨after, taken, rest⟩ := Option.bind_eq_some_iff.mp later
  exact ⟨before, after, reached, taken, rest⟩

/-- An open file stays open until a call closes it. -/
theorem fileAfter?_of_unclosed
    {calls : List Call} {opened : Bool}
    (order : fileAfter? true calls = some opened)
    (unclosed : ∀ failure, .close failure ∉ calls) :
    opened = true := by
  induction calls with
  | nil =>
      exact (Option.some.inj order).symm
  | cons call rest ih =>
      rw [fileAfter?, List.foldlM_cons] at order
      obtain ⟨after, taken, later⟩ := Option.bind_eq_some_iff.mp order
      have still : after = true := by
        cases call with
        | reply _ | write _ _ =>
            exact (Option.some.inj taken).symm
        | close failure =>
            exact absurd List.mem_cons_self (unclosed failure)
        | process _ | create _ _ =>
            cases taken
      rw [still] at later
      exact ih later fun failure member =>
        unclosed failure (List.mem_cons_of_mem call member)

/-- An open file was created once, and has not been closed since. -/
theorem exists_create
    {calls : List Call} (order : fileAfter? false calls = some true) :
    ∃ earlier name between,
      calls = earlier ++ .create name none :: between ∧
        fileAfter? false earlier = some false ∧
        (∀ other, .create other none ∉ between) ∧
        ∀ other, .close other ∉ between := by
  induction calls using List.reverseRecOn with
  | nil =>
      cases order
  | append_singleton front call ih =>
      obtain ⟨before, after, reached, taken, same⟩ := exists_file? order
      cases same
      cases before with
      | false =>
          cases call with
          | create name failure =>
              cases failure with
              | none =>
                  exact
                    ⟨front, name, [], rfl, reached, fun _ => List.not_mem_nil,
                      fun _ => List.not_mem_nil⟩
              | some failure =>
                  cases taken
          | reply _ | process _ | write _ _ | close _ =>
              cases taken
      | true =>
          obtain ⟨earlier, name, between, rfl, closed, single, unclosed⟩ :=
            ih reached
          refine
            ⟨earlier, name, between ++ [call], List.append_assoc _ _ _, closed,
              ?_, ?_⟩
          · intro other member
            rcases List.mem_append.mp member with member | member
            · exact single other member
            · cases List.mem_singleton.mp member
              cases taken
          · intro other member
            rcases List.mem_append.mp member with member | member
            · exact unclosed other member
            · cases List.mem_singleton.mp member
              cases taken

/-- Of calls in order, the automaton tells whether a file is open. -/
theorem fileOpen_iff
    {calls : List Call} {opened : Bool}
    (order : fileAfter? false calls = some opened) :
    FileOpen calls ↔ opened = true := by
  constructor
  · rintro ⟨front, name, back, rfl, unclosed⟩
    obtain ⟨before, after, _, taken, later⟩ := exists_file? order
    have created : after = true := by
      cases before with
      | false => exact (Option.some.inj taken).symm
      | true => cases taken
    rw [created] at later
    exact fileAfter?_of_unclosed later unclosed
  · rintro rfl
    obtain ⟨earlier, name, between, rfl, _, _, unclosed⟩ := exists_create order
    exact ⟨earlier, name, between, rfl, unclosed⟩

/-- Calls that the automaton takes are orderly. -/
theorem orderly_of_order
    {calls : List Call} {opened : Bool}
    (order : fileAfter? false calls = some opened) :
    Orderly calls := by
  have around {front back : List Call} {call : Call}
      (place : calls = front ++ call :: back) :
      ∃ before after,
        file? before call = some after ∧
          fileAfter? false front = some before ∧
          (FileOpen front ↔ before = true) ∧
          (FileOpen (front ++ [call]) ↔ after = true) := by
    rw [place] at order
    obtain ⟨before, after, reached, taken, _⟩ := exists_file? order
    have next : fileAfter? false (front ++ [call]) = some after := by
      rw [fileAfter?_concat, reached]
      exact taken
    exact
      ⟨before, after, taken, reached, fileOpen_iff reached, fileOpen_iff next⟩
  constructor
  case create =>
    intro front name failure back place
    obtain ⟨before, after, taken, _, opened, next⟩ := around place
    cases before with
    | true =>
        cases taken
    | false =>
        cases Option.some.inj taken
        rw [opened, next, Option.isNone_iff_eq_none]
        exact ⟨Bool.false_ne_true, Iff.rfl⟩
  case write =>
    intro front data failure back place
    obtain ⟨before, after, taken, _, opened, next⟩ := around place
    cases before with
    | false =>
        cases taken
    | true =>
        cases taken
        exact ⟨opened.mpr rfl, next.mpr rfl⟩
  case close =>
    intro front failure back place
    obtain ⟨before, after, taken, reached, _, next⟩ := around place
    cases before with
    | false =>
        cases taken
    | true =>
        cases taken
        obtain ⟨earlier, name, between, split, closed, single, unclosed⟩ :=
          exists_create reached
        have none : ¬ FileOpen earlier := by
          rw [fileOpen_iff closed]
          exact Bool.false_ne_true
        refine ⟨?_, earlier, name, between, split, none, single, unclosed⟩
        rw [next]
        exact Bool.false_ne_true
  case process =>
    intro front command back place
    obtain ⟨before, after, taken, _, opened, _⟩ := around place
    cases before with
    | true =>
        cases taken
    | false =>
        rw [opened]
        exact Bool.false_ne_true

end Call

/-! ## The calls of a channel -/

variable {State : Type} {operations : Machine State}

/-- The calls so far are in order, and the mode says whether a file is open after them. -/
def Outlet.TracksFile (outlet : Outlet State) : Prop :=
  Call.fileAfter? false outlet.calls = some outlet.capturing

/-- Replies make nothing of the file. -/
theorem Call.fileAfter?_replies (opened : Bool) (replies : List Reply) :
    fileAfter? opened (replies.map .reply) = some opened := by
  induction replies with
  | nil =>
      rfl
  | cons reply rest ih =>
      exact ih

/-- The calls of a disposition are in order in the mode that it suits. -/
theorem Disposition.fileAfter?_calls
    {writing : Bool} {disposition : Disposition}
    (suits : disposition.Suits writing)
    (operations : Machine State) (machine : State) (command : Command)
    (line : Line) :
    Call.fileAfter? writing
        (disposition.calls operations machine command line) =
      some (disposition.writingAfter operations machine writing) := by
  cases disposition with
  | refuse fault =>
      exact Call.fileAfter?_replies writing _
  | refuseMalformed | refuseName | acknowledge =>
      rfl
  | execute =>
      cases suits
      rw [calls]
      split <;> rfl
  | beginCapture _ | endCapture | store =>
      cases suits
      rfl

/-- Before its first line an outlet has made no call. -/
theorem Outlet.tracksFile_new (machine : State) :
    (Outlet.new machine).TracksFile :=
  rfl

theorem Outlet.TracksFile.route
    {outlet : Outlet State} (tracks : outlet.TracksFile)
    (verdict : Verdict) (command : Command) (line : Line) :
    (outlet.route operations verdict command line).outlet.TracksFile := by
  rw [TracksFile, calls_route, capturing_route, Call.fileAfter?_append, tracks]
  exact
    Disposition.fileAfter?_calls
      (Disposition.suits_ofLine outlet.capturing verdict command) operations
      outlet.machine command line

namespace Channel

theorem tracksFile_push
    (channel : Channel State) (line : Line) (byte : UInt8)
    (tracks : channel.outlet.TracksFile) :
    (channel.push operations line byte).1.outlet.TracksFile := by
  rw [push]
  split
  · exact tracks.route _ _ line
  · exact tracks

theorem tracksFile_refuse
    (channel : Channel State) (tracks : channel.outlet.TracksFile) :
    (channel.refuse .lineTooLong).outlet.TracksFile := by
  show Call.fileAfter? false (channel.outlet.refuse _ _).calls = _
  rw [Outlet.calls_refuse, Call.fileAfter?_append, tracks]
  exact Call.fileAfter?_replies _ _

/--
However a new channel is used, whatever its machine does and whichever storage
operations fail: its calls use storage one file at a time, and lines are stored
instead of executed exactly as long as a file is open.
-/
theorem serveAll_orderly
    (operations : Machine State) (receiver : Receiver) (machine : State)
    (requests : List Request) :
    let outlet :=
      ((Channel.new receiver machine).serveAll operations requests).outlet
    Call.Orderly outlet.calls ∧
      (outlet.capturing = true ↔ Call.FileOpen outlet.calls) := by
  intro outlet
  have tracks : outlet.TracksFile :=
    holds_serveAll (fun channel => channel.outlet.TracksFile) tracksFile_push
      tracksFile_refuse (Outlet.tracksFile_new machine) requests
  exact ⟨Call.orderly_of_order tracks, (Call.fileOpen_iff tracks).symm⟩

end Channel

end GcodeLink

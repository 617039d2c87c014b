import Mathlib.Tactic.SplitIfs
import GcodeLink.Outlet

/-!
# What the outlet does with a line

Each disposition of a line comes with the calls it makes and with what it
leaves of the mode.  Both are said here once, for all dispositions, so that the
history of a channel can be followed line by line without opening the outlet.
-/

namespace GcodeLink

variable {State : Type}

/-- The replies to a line that is refused for a fault, while this number is awaited. -/
def Fault.replies (expected : UInt32) : Fault → List Reply
  | .badLineNumber number => [.expectedLineNumber number, .resend expected]
  | .badChecksum computed => [.expectedChecksum computed, .resend expected]
  | .lineTooLong => [.lineTooLong]
  | .numberOverflow | .filenameTruncated => [.resend expected]

/-- One reply or another, as a storage operation succeeded or failed. -/
def Reply.after (failure : Option StorageFailure) (done failed : Reply) : Reply :=
  if failure.isNone then done else failed

namespace Disposition

/-- The calls that a disposition makes. -/
def calls
    (operations : Machine State) (machine : State) (command : Command)
    (line : Line) : Disposition → List Call
  | .refuse fault => (fault.replies command.expected).map .reply
  | .refuseMalformed => [.reply .numberOverflow]
  | .refuseName => [.reply .openFailed]
  | .beginCapture name =>
      let failure := (operations.create machine name).2
      [.create name failure, .reply (.after failure .ok .openFailed)]
  | .execute =>
      .process command ::
        if (operations.process machine command).acknowledge then [.reply .ok]
        else []
  | .endCapture =>
      let failure := (operations.close machine).2
      [.close failure, .reply (.after failure .doneSavingFile .writeFailed)]
  | .acknowledge => [.reply .ok]
  | .store =>
      let data := line.endWithLineFeed.bytes
      let failure := (operations.write machine data).2
      [.write data failure, .reply (.after failure .ok .writeFailed)]

/-- Whether a file is being written after a disposition, given whether one was before. -/
def writingAfter
    (operations : Machine State) (machine : State) (writing : Bool) :
    Disposition → Bool
  | .beginCapture name => writing || (operations.create machine name).2.isNone
  | .endCapture => false
  | _ => writing

/-- The disposition has its place while a file is being written, or while none is. -/
def Suits (writing : Bool) : Disposition → Prop
  | .refuse _ => True
  | .refuseMalformed | .refuseName | .beginCapture _ | .execute =>
      writing = false
  | .endCapture | .acknowledge | .store => writing = true

/-- A line is dealt with as the mode allows. -/
theorem suits_ofLine (writing : Bool) (verdict : Verdict) (command : Command) :
    (ofLine writing verdict command).Suits writing := by
  cases verdict with
  | rejected fault =>
      exact trivial
  | accepted =>
      cases writing with
      | false =>
          rw [ofLine_not_writing, executing]
          split_ifs <;> exact rfl
      | true =>
          rw [ofLine_writing, capturing]
          split
          · split_ifs <;> exact rfl
          · exact rfl

/-- An accepted line is not refused. -/
theorem ofLine_accepted_ne_refuse
    (writing : Bool) (command : Command) (fault : Fault) :
    ofLine writing .accepted command ≠ .refuse fault := by
  cases writing with
  | false =>
      rw [ofLine_not_writing, executing]
      split_ifs <;> exact nofun
  | true =>
      rw [ofLine_writing, capturing]
      split
      · split_ifs <;> exact nofun
      · exact nofun

/-- What is executed is an accepted line in order, while no file is being written. -/
theorem ofLine_eq_execute_iff
    {writing : Bool} {verdict : Verdict} {command : Command} :
    ofLine writing verdict command = .execute ↔
      verdict = .accepted ∧ writing = false ∧ command.malformed = false ∧
        command.mCode? ≠ some 28 := by
  constructor
  · intro executes
    have idle : writing = false := by
      have suits := suits_ofLine writing verdict command
      rw [executes] at suits
      exact suits
    cases verdict with
    | rejected fault =>
        cases executes
    | accepted =>
        rw [idle, ofLine_not_writing, executing] at executes
        split_ifs at executes with malformed opens
        exact ⟨rfl, idle, Bool.eq_false_iff.mpr malformed, opens⟩
  · rintro ⟨rfl, rfl, converted, other⟩
    rw [ofLine_not_writing, executing, converted, if_neg Bool.false_ne_true,
      if_neg other]

/-- What is stored is an accepted line that comes while a file is being written. -/
theorem accepted_of_store
    {writing : Bool} {verdict : Verdict} {command : Command}
    (stores : ofLine writing verdict command = .store) :
    verdict = .accepted ∧ writing = true := by
  have suits := suits_ofLine writing verdict command
  rw [stores] at suits
  cases verdict with
  | accepted =>
      exact ⟨rfl, suits⟩
  | rejected fault =>
      cases stores

/-- Nothing is written but a line that is stored, and it is written as it stands in its buffer. -/
theorem eq_store_of_write
    {operations : Machine State} {machine : State} {command : Command}
    {line : Line} {disposition : Disposition} {data : List UInt8}
    {failure : Option StorageFailure}
    (writes :
      Call.write data failure ∈
        disposition.calls operations machine command line) :
    disposition = .store ∧ data = line.endWithLineFeed.bytes := by
  cases disposition with
  | store =>
      rcases List.mem_cons.mp writes with written | replied
      · exact ⟨rfl, (Call.write.inj written).1⟩
      · cases List.mem_singleton.mp replied
  | refuse fault =>
      obtain ⟨_, _, impossible⟩ := List.mem_map.mp writes
      cases impossible
  | execute =>
      rw [calls] at writes
      split at writes <;> simp at writes
  | refuseMalformed | refuseName | acknowledge | endCapture | beginCapture _ =>
      simp [calls] at writes

end Disposition

namespace Outlet

variable (operations : Machine State) (outlet : Outlet State)

@[simp]
theorem calls_refuse (fault : Fault) (command : Command) :
    (outlet.refuse fault command).calls =
      outlet.calls ++ (fault.replies command.expected).map .reply := by
  cases fault with
  | badLineNumber _ | badChecksum _ =>
      exact List.append_assoc _ _ _
  | numberOverflow | filenameTruncated | lineTooLong =>
      rfl

@[simp]
theorem capturing_refuse (fault : Fault) (command : Command) :
    (outlet.refuse fault command).capturing = outlet.capturing := by
  cases fault <;> rfl

/-- A routed line adds the calls of its disposition. -/
theorem calls_route
    (verdict : Verdict) (command : Command) (line : Line) :
    (outlet.route operations verdict command line).outlet.calls =
      outlet.calls ++
        (Disposition.ofLine outlet.capturing verdict command).calls operations
          outlet.machine command line := by
  rw [route]
  cases Disposition.ofLine outlet.capturing verdict command with
  | refuse fault =>
      exact outlet.calls_refuse fault command
  | refuseMalformed | refuseName | acknowledge =>
      rfl
  | execute =>
      simp only [execute, Disposition.calls]
      split <;> simp
  | beginCapture name =>
      simp only [beginCapture, Disposition.calls]
      cases operations.create outlet.machine name with
      | mk machine failure => cases failure <;> simp [Reply.after]
  | endCapture =>
      simp only [endCapture, Disposition.calls]
      cases operations.close outlet.machine with
      | mk machine failure => cases failure <;> simp [Reply.after]
  | store =>
      simp only [store, Disposition.calls]
      cases operations.write outlet.machine line.endWithLineFeed.bytes with
      | mk machine failure => cases failure <;> simp [Reply.after]

/-- A routed line leaves the mode as its disposition says. -/
theorem capturing_route
    (verdict : Verdict) (command : Command) (line : Line) :
    (outlet.route operations verdict command line).outlet.capturing =
      (Disposition.ofLine outlet.capturing verdict command).writingAfter
        operations outlet.machine outlet.capturing := by
  rw [route]
  cases Disposition.ofLine outlet.capturing verdict command with
  | refuse fault =>
      exact outlet.capturing_refuse fault command
  | refuseMalformed | refuseName | acknowledge =>
      rfl
  | execute =>
      simp only [execute, Disposition.writingAfter]
      split <;> rfl
  | beginCapture name =>
      simp only [beginCapture, Disposition.writingAfter]
      cases operations.create outlet.machine name with
      | mk machine failure => cases failure <;> simp
  | endCapture =>
      simp only [endCapture, Disposition.writingAfter]
      cases operations.close outlet.machine with
      | mk machine failure => cases failure <;> rfl
  | store =>
      simp only [store, Disposition.writingAfter]
      cases operations.write outlet.machine line.endWithLineFeed.bytes with
      | mk machine failure => cases failure <;> rfl

end Outlet

end GcodeLink

import GcodeLink.Channel.Run

/-!
# Requests to a channel

A channel is used by pushing one byte, by pushing a whole line, or by running
it over a stream to the end or until the run is given up.  All of this comes
down to two acts: a byte is pushed with the buffer that holds its line, or a
line is refused for its length.  `acts` lists them, and what every act does or
keeps is done or kept by any sequence of requests.
-/

namespace GcodeLink.Channel

variable {State : Type}

/-- One use of a channel. -/
inductive Request where
  /-- Push one byte of the line in this buffer. -/
  | push (line : Line) (byte : UInt8)
  /-- Push a whole line. -/
  | pushLine (line : Line)
  /-- Run over a stream, and give up after waiting as often as the limit says. -/
  | run (limit : Option Nat) (signals : List Signal)

/-- The channel after a request. -/
def serve
    (operations : Machine State) (channel : Channel State) :
    Request → Channel State
  | .push line byte => (channel.push operations line byte).1
  | .pushLine line => (channel.pushLine operations line).1
  | .run limit signals => (channel.runWithin operations limit signals).channel

/-- The channel after requests in order. -/
def serveAll
    (operations : Machine State) (channel : Channel State)
    (requests : List Request) : Channel State :=
  requests.foldl (serve operations) channel

/-! ## Acts -/

/-- What every use of a channel comes down to. -/
inductive Act where
  /-- A byte is pushed with the buffer that holds its line. -/
  | push (line : Line) (byte : UInt8)
  /-- A line is refused for its length. -/
  | refuse
  deriving DecidableEq, Repr

/-- The channel after an act. -/
def perform
    (operations : Machine State) (channel : Channel State) :
    Act → Channel State
  | .push line byte => (channel.push operations line byte).1
  | .refuse => channel.refuse .lineTooLong

/-- The channel after acts in order. -/
def performAll
    (operations : Machine State) (channel : Channel State)
    (acts : List Act) : Channel State :=
  acts.foldl (perform operations) channel

@[simp]
theorem performAll_nil (operations : Machine State) (channel : Channel State) :
    channel.performAll operations [] = channel :=
  rfl

@[simp]
theorem performAll_cons
    (operations : Machine State) (channel : Channel State)
    (act : Act) (rest : List Act) :
    channel.performAll operations (act :: rest) =
      (channel.perform operations act).performAll operations rest :=
  rfl

theorem performAll_append
    (operations : Machine State) (channel : Channel State)
    (front rest : List Act) :
    channel.performAll operations (front ++ rest) =
      (channel.performAll operations front).performAll operations rest :=
  List.foldl_append

/-- Bytes of a line are pushed one by one, each with the buffer as the one before left it. -/
def actsOfBytes
    (operations : Machine State) :
    Channel State → Line → List UInt8 → List Act
  | _, _, [] => []
  | channel, line, byte :: rest =>
      .push line byte ::
        actsOfBytes operations (channel.push operations line byte).1
          (channel.push operations line byte).2 rest

/-- A whole line is pushed up to its first terminator, unless there is no room for one. -/
def actsOfLine
    (operations : Machine State) (channel : Channel State) (line : Line) :
    List Act :=
  if line.isEmpty then
    []
  else
    match line.close? with
    | some closed => actsOfBytes operations channel closed closed.bytes
    | none => [.refuse]

/-- What the framer answers is pushed, refused or passed over. -/
def actsOfPoll
    (operations : Machine State) (channel : Channel State) :
    Poll → List Act
  | .line line => actsOfLine operations channel line
  | .tooLong => [.refuse]
  | .pending | .ended => []

/-- A run acts on each answer of the framer, until it is finished. -/
def actsOfSignals
    (operations : Machine State) : Run State → List Signal → List Act
  | _, [] => []
  | run, signal :: rest =>
      (if run.finished then
          []
        else
          (run.framer.step signal).2.elim []
            (actsOfPoll operations run.channel)) ++
        actsOfSignals operations (run.step operations signal) rest

/-- The acts that a request comes down to. -/
def actsOf
    (operations : Machine State) (channel : Channel State) :
    Request → List Act
  | .push line byte => [.push line byte]
  | .pushLine line => actsOfLine operations channel line
  | .run limit signals =>
      actsOfSignals operations (.start channel) (Run.schedule limit signals)

/-- The acts that requests in order come down to. -/
def acts
    (operations : Machine State) : Channel State → List Request → List Act
  | _, [] => []
  | channel, request :: rest =>
      actsOf operations channel request ++
        acts operations (channel.serve operations request) rest

section Reduction

variable (operations : Machine State)

theorem performAll_actsOfBytes
    (channel : Channel State) (line : Line) (bytes : List UInt8) :
    channel.performAll operations (actsOfBytes operations channel line bytes) =
      (channel.pushAll operations line bytes).1 := by
  induction bytes generalizing channel line with
  | nil =>
      rfl
  | cons byte rest ih =>
      exact ih _ _

theorem performAll_actsOfLine (channel : Channel State) (line : Line) :
    channel.performAll operations (actsOfLine operations channel line) =
      (channel.pushLine operations line).1 := by
  rw [actsOfLine, pushLine]
  split
  · rfl
  · cases line.close? with
    | some closed =>
        exact performAll_actsOfBytes operations channel closed closed.bytes
    | none =>
        rfl

theorem performAll_actsOfPoll (channel : Channel State) (poll : Poll) :
    channel.performAll operations (actsOfPoll operations channel poll) =
      Run.handle operations channel poll := by
  cases poll with
  | line line =>
      exact performAll_actsOfLine operations channel line
  | tooLong | pending | ended =>
      rfl

theorem performAll_actsOfSignals (run : Run State) (signals : List Signal) :
    run.channel.performAll operations (actsOfSignals operations run signals) =
      (run.drive operations signals).channel := by
  induction signals generalizing run with
  | nil =>
      rfl
  | cons signal rest ih =>
      rw [actsOfSignals, performAll_append, Run.drive_cons, ← ih]
      congr 1
      rw [Run.step]
      split
      · rfl
      · cases run.framer.step signal with
        | mk framer answer =>
            cases answer with
            | none =>
                rfl
            | some poll =>
                exact performAll_actsOfPoll operations run.channel poll

theorem performAll_actsOf (channel : Channel State) (request : Request) :
    channel.performAll operations (actsOf operations channel request) =
      channel.serve operations request := by
  cases request with
  | push line byte =>
      rfl
  | pushLine line =>
      exact performAll_actsOfLine operations channel line
  | run limit signals =>
      exact performAll_actsOfSignals operations (.start channel) _

/-- Requests do what the acts do that they come down to. -/
theorem performAll_acts (channel : Channel State) (requests : List Request) :
    channel.performAll operations (acts operations channel requests) =
      channel.serveAll operations requests := by
  induction requests generalizing channel with
  | nil =>
      rfl
  | cons request rest ih =>
      rw [acts, performAll_append, performAll_actsOf]
      exact ih _

end Reduction

/-! ## What acts keep, and the calls that they make -/

section Invariant

variable
  {operations : Machine State} (Holds : Channel State → Prop)
  (pushes : ∀ channel line byte,
    Holds channel → Holds (channel.push operations line byte).1)
  (refuses : ∀ channel, Holds channel → Holds (channel.refuse .lineTooLong))

include pushes refuses

/-- What a byte and a refused line keep is kept by any sequence of requests. -/
theorem holds_serveAll
    {channel : Channel State} (holds : Holds channel)
    (requests : List Request) :
    Holds (channel.serveAll operations requests) := by
  rw [← performAll_acts]
  generalize acts operations channel requests = acts
  induction acts generalizing channel with
  | nil =>
      exact holds
  | cons act rest ih =>
      apply ih
      cases act with
      | push line byte =>
          exact pushes channel line byte holds
      | refuse =>
          exact refuses channel holds

end Invariant

/--
The calls of acts in order, cut into those of each act.  What is `Proper` of an
act may depend on the channel that the act finds.
-/
inductive Accounts
    (operations : Machine State)
    (Proper : Channel State → Act → List Call → Prop) :
    Channel State → List Act → List Call → Prop where
  | nil (channel : Channel State) :
      Accounts operations Proper channel [] []
  | cons
      {channel : Channel State} {act : Act} {calls : List Call}
      {rest : List Act} {others : List Call}
      (proper : Proper channel act calls)
      (later :
        Accounts operations Proper (channel.perform operations act) rest
          others) :
      Accounts operations Proper channel (act :: rest) (calls ++ others)

/-- If every act makes proper calls, so do acts in order. -/
theorem accounts_performAll
    {operations : Machine State}
    {Proper : Channel State → Act → List Call → Prop}
    (calls : ∀ channel act, ∃ made,
      (channel.perform operations act).outlet.calls =
          channel.outlet.calls ++ made ∧
        Proper channel act made)
    (channel : Channel State) (acts : List Act) :
    ∃ made,
      (channel.performAll operations acts).outlet.calls =
          channel.outlet.calls ++ made ∧
        Accounts operations Proper channel acts made := by
  induction acts generalizing channel with
  | nil =>
      exact ⟨[], (List.append_nil _).symm, .nil channel⟩
  | cons act rest ih =>
      obtain ⟨made, here, proper⟩ := calls channel act
      obtain ⟨others, there, later⟩ := ih (channel.perform operations act)
      refine ⟨made ++ others, ?_, .cons proper later⟩
      rw [performAll_cons, there, here, List.append_assoc]

end GcodeLink.Channel

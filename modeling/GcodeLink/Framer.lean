import GcodeLink.Line

/-!
# Framing a stream into lines

The input is a stream that delivers bytes, may have nothing to deliver for a
while, and may report its end, even more than once.  The framer cuts it into
lines.  A line ends with the terminator that closed it, or with a line feed when
the end of the input closed it; an empty line is skipped, which takes care of a
line feed after a carriage return.  A line of more bytes than fit before a
terminator is discarded up to its end and reported as too long.

The framer holds one line at a time, and holds it through pauses and ends of the
input.
-/

namespace GcodeLink

/-- What the input delivers when it is asked. -/
inductive Signal where
  | byte (byte : UInt8)
  /-- Nothing is there yet. -/
  | pending
  /-- The input has ended. -/
  | ended
  deriving DecidableEq, Repr

/-- What the framer answers when it is asked for a line. -/
inductive Poll where
  /-- No line is complete yet. -/
  | pending
  /-- A line with its terminator. -/
  | line (line : Line)
  /-- A line was discarded. -/
  | tooLong
  /-- There is no further line. -/
  | ended
  deriving DecidableEq, Repr

/-- The line in flight. -/
structure Framer where
  line : Line
  /-- Whether the line in flight is being discarded. -/
  overflowed : Bool
  deriving DecidableEq, Repr

namespace Framer

/-- The most bytes of a line that leave room for its terminator. -/
def longestLine : Nat := lineCapacity - 1

/-- A framer before its first byte. -/
def new : Framer :=
  { line := .empty, overflowed := false }

/-- Take in a byte that is not a terminator, or start to discard the line. -/
def take (framer : Framer) (byte : UInt8) : Framer :=
  if framer.overflowed then
    framer
  else if framer.line.length < longestLine then
    { framer with line := framer.line.push byte }
  else
    { framer with overflowed := true }

/-- End the line in flight with a terminator, if there is a line. -/
def close (framer : Framer) (terminator : UInt8) : Framer × Option Poll :=
  if framer.overflowed then
    ({ line := framer.line.clear, overflowed := false }, some .tooLong)
  else if framer.line.isEmpty then
    (framer, none)
  else
    ({ framer with line := .empty }, some (.line (framer.line.push terminator)))

/-- End the line in flight with the input, or report the end of the input. -/
def finish (framer : Framer) : Framer × Poll :=
  let closed := framer.close Byte.lineFeed
  (closed.1, closed.2.getD .ended)

/-- Take in what the input delivers, and answer as soon as there is an answer. -/
def step (framer : Framer) : Signal → Framer × Option Poll
  | .byte byte =>
      if Byte.isTerminator byte then framer.close byte else (framer.take byte, none)
  | .pending => (framer, some .pending)
  | .ended => (framer.finish.1, some framer.finish.2)

/-- The framer after the given signals. -/
def after (framer : Framer) (signals : List Signal) : Framer :=
  signals.foldl (fun framer signal => (framer.step signal).1) framer

/-- The answers given while the signals last. -/
def answers : Framer → List Signal → List Poll
  | _, [] => []
  | framer, signal :: rest =>
      (framer.step signal).2.toList ++ answers (framer.step signal).1 rest

/-- The answers given after the last signal, up to the report of the end. -/
def closing (framer : Framer) : List Poll :=
  match framer.finish with
  | (_, .ended) => [.ended]
  | (finished, poll) => [poll, finished.finish.2]

/-- The answers to a reader that asks until the input is used up and its end reported. -/
def polls (framer : Framer) (signals : List Signal) : List Poll :=
  let given := framer.answers signals
  if signals.getLast? = some .ended ∧ given.getLast? = some .ended then
    given
  else
    given ++ (framer.after signals).closing

@[simp]
theorem step_pending (framer : Framer) : framer.step .pending = (framer, some .pending) := rfl

@[simp]
theorem after_nil (framer : Framer) : framer.after [] = framer := rfl

@[simp]
theorem after_cons (framer : Framer) (signal : Signal) (rest : List Signal) :
    framer.after (signal :: rest) = (framer.step signal).1.after rest := rfl

@[simp]
theorem answers_nil (framer : Framer) : framer.answers [] = [] := rfl

@[simp]
theorem answers_cons (framer : Framer) (signal : Signal) (rest : List Signal) :
    framer.answers (signal :: rest) =
      (framer.step signal).2.toList ++ (framer.step signal).1.answers rest := rfl

theorem answers_append (framer : Framer) (front rest : List Signal) :
    framer.answers (front ++ rest) =
      framer.answers front ++ (framer.after front).answers rest := by
  induction front generalizing framer with
  | nil => rfl
  | cons signal front ih => simp [ih]

end Framer

end GcodeLink

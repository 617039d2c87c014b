/-!
# Byte buffers of fixed capacity

A buffer stores at most `capacity` bytes.  Clearing or shortening it forgets how
many bytes are held but leaves the storage behind them as it was: those bytes
are stale.  Two buffers are equal when both the held and the stale bytes agree,
so a cleared buffer differs from a new one as long as its old bytes are there.
-/

namespace GcodeLink

/-- Held bytes followed by the stale rest of the storage. -/
@[ext]
structure Buffer (capacity : Nat) where
  bytes : List UInt8
  stale : List UInt8
  length_add_length : bytes.length + stale.length = capacity
  deriving DecidableEq, Repr

namespace Buffer

variable {capacity : Nat}

/-- A new buffer, whose storage is zero. -/
def empty : Buffer capacity where
  bytes := []
  stale := List.replicate capacity 0
  length_add_length := by simp

/-- A new buffer that holds the given bytes, if they fit. -/
def ofBytes? (bytes : List UInt8) : Option (Buffer capacity) :=
  if fits : bytes.length ≤ capacity then
    some
      { bytes
        stale := List.replicate (capacity - bytes.length) 0
        length_add_length := by simp; omega }
  else
    none

/-- The number of bytes held. -/
def length (buffer : Buffer capacity) : Nat :=
  buffer.bytes.length

/-- No byte is held. -/
def isEmpty (buffer : Buffer capacity) : Bool :=
  buffer.bytes.isEmpty

/-- No further byte fits. -/
def isFull (buffer : Buffer capacity) : Bool :=
  buffer.stale.isEmpty

/-- Append a byte over the first stale one; `none` if the buffer is full. -/
def push? (buffer : Buffer capacity) (byte : UInt8) : Option (Buffer capacity) :=
  match room : buffer.stale with
  | [] => none
  | _ :: stale =>
      some
        { bytes := buffer.bytes ++ [byte]
          stale
          length_add_length := by
            have := buffer.length_add_length
            simp only [room, List.length_cons] at this
            simp only [List.length_append, List.length_cons, List.length_nil]
            omega }

/-- Append a byte, or leave a full buffer as it is. -/
def push (buffer : Buffer capacity) (byte : UInt8) : Buffer capacity :=
  (buffer.push? byte).getD buffer

/-- Forget all but the first bytes, which become stale. -/
def truncate (buffer : Buffer capacity) (count : Nat) : Buffer capacity where
  bytes := buffer.bytes.take count
  stale := buffer.bytes.drop count ++ buffer.stale
  length_add_length := by
    have := buffer.length_add_length
    simp only [List.length_take, List.length_append, List.length_drop]
    omega

/-- Forget every byte. -/
def clear (buffer : Buffer capacity) : Buffer capacity :=
  buffer.truncate 0

/-- Replace the last byte held, if there is one. -/
def setLast (buffer : Buffer capacity) (byte : UInt8) : Buffer capacity where
  bytes := if buffer.bytes.isEmpty then [] else buffer.bytes.dropLast ++ [byte]
  stale := buffer.stale
  length_add_length := by
    have := buffer.length_add_length
    split
    · next none => simp_all
    · next some =>
      have : 0 < buffer.bytes.length := by
        cases held : buffer.bytes <;> simp_all
      simp only [List.length_append, List.length_dropLast, List.length_cons, List.length_nil]
      omega

@[simp]
theorem bytes_truncate (buffer : Buffer capacity) (count : Nat) :
    (buffer.truncate count).bytes = buffer.bytes.take count := rfl

/-- A buffer that is no longer than that is not shortened. -/
theorem truncate_of_length_le
    (buffer : Buffer capacity) {count : Nat} (short : buffer.bytes.length ≤ count) :
    buffer.truncate count = buffer := by
  apply Buffer.ext
  · exact List.take_of_length_le short
  · show buffer.bytes.drop count ++ buffer.stale = buffer.stale
    rw [List.drop_of_length_le short, List.nil_append]

@[simp]
theorem bytes_clear (buffer : Buffer capacity) : buffer.clear.bytes = [] := by
  simp [clear]

@[simp]
theorem isEmpty_clear (buffer : Buffer capacity) : buffer.clear.isEmpty = true := by
  simp [isEmpty]

/-- A buffer never holds more than its capacity. -/
theorem length_le (buffer : Buffer capacity) : buffer.length ≤ capacity := by
  have := buffer.length_add_length
  unfold length
  omega

/-- A buffer is full when it holds as many bytes as its capacity. -/
theorem isFull_iff {buffer : Buffer capacity} :
    buffer.isFull = true ↔ buffer.length = capacity := by
  have := buffer.length_add_length
  unfold isFull length
  rw [List.isEmpty_iff_length_eq_zero]
  omega

/-- A byte is refused exactly by a full buffer. -/
theorem push?_eq_none_iff {buffer : Buffer capacity} {byte : UInt8} :
    buffer.push? byte = none ↔ buffer.isFull = true := by
  unfold push? isFull
  split
  · next full => simp [full]
  · next room => simp [room]

/-- An accepted byte comes after the bytes held so far. -/
theorem bytes_of_push? {buffer larger : Buffer capacity} {byte : UInt8}
    (pushed : buffer.push? byte = some larger) : larger.bytes = buffer.bytes ++ [byte] := by
  unfold push? at pushed
  split at pushed
  · cases pushed
  · cases pushed
    rfl

/-- A byte pushed onto a buffer that is not full is held last. -/
theorem bytes_push {buffer : Buffer capacity} (byte : UInt8) (room : buffer.isFull = false) :
    (buffer.push byte).bytes = buffer.bytes ++ [byte] := by
  unfold push
  cases pushed : buffer.push? byte with
  | none =>
    rw [push?_eq_none_iff] at pushed
    simp [pushed] at room
  | some larger => exact bytes_of_push? pushed

end Buffer

end GcodeLink

import GcodeLink.Filename

/-!
# What a filename keeps

A name that is collected byte by byte ends up with as many of its first bytes
as the buffer holds, and it remembers whether there were more.
-/

namespace GcodeLink.Filename

theorem bytes_push (name : Filename) (byte : UInt8) :
    (name.push byte).bytes = (name.bytes ++ [byte]).take lineCapacity := by
  have bound : name.bytes.length ≤ lineCapacity := name.buffer.length_le
  rw [push]
  cases pushed : name.buffer.push? byte with
  | some larger =>
      have held : larger.bytes = name.bytes ++ [byte] :=
        Buffer.bytes_of_push? pushed
      have room : larger.bytes.length ≤ lineCapacity := larger.length_le
      change larger.bytes = _
      rw [← held, List.take_of_length_le room]
  | none =>
      rw [Buffer.push?_eq_none_iff, Buffer.isFull_iff] at pushed
      have full : name.bytes.length = lineCapacity := pushed
      change name.bytes = _
      rw [← full, List.take_left]

theorem truncated_push (name : Filename) (byte : UInt8) :
    (name.push byte).truncated =
      (name.truncated || decide (lineCapacity ≤ name.bytes.length)) := by
  have bound : name.bytes.length ≤ lineCapacity := name.buffer.length_le
  have full :
      name.buffer.isFull = decide (lineCapacity ≤ name.bytes.length) := by
    rw [Bool.eq_iff_iff, Buffer.isFull_iff, decide_eq_true_eq]
    exact ⟨fun full => Nat.le_of_eq full.symm, Nat.le_antisymm bound⟩
  rw [push, ← full]
  cases pushed : name.buffer.push? byte with
  | some larger =>
      have room : name.buffer.isFull = false := by
        rw [← Bool.not_eq_true]
        intro full
        rw [Buffer.push?_eq_none_iff.mpr full] at pushed
        cases pushed
      rw [room, Bool.or_false]
  | none =>
      rw [Buffer.push?_eq_none_iff.mp pushed, Bool.or_true]

/-- Bytes past the capacity do not matter to what comes after them. -/
theorem take_take_append (front rest : List UInt8) (count : Nat) :
    (front.take count ++ rest).take count = (front ++ rest).take count := by
  have left : count - min count front.length = count - front.length := by
    omega
  rw [List.take_append, List.take_take, Nat.min_self, List.length_take, left,
    ← List.take_append]

/-- The first bytes are kept, as many as fit. -/
theorem bytes_pushAll (name : Filename) (bytes : List UInt8) :
    (name.pushAll bytes).bytes = (name.bytes ++ bytes).take lineCapacity := by
  induction bytes generalizing name with
  | nil =>
      have bound : name.bytes.length ≤ lineCapacity := name.buffer.length_le
      rw [pushAll_nil, List.append_nil, List.take_of_length_le bound]
  | cons byte rest ih =>
      rw [pushAll_cons, ih, bytes_push, take_take_append, List.append_assoc,
        List.singleton_append]

/-- A name is truncated by the first byte too many. -/
theorem truncated_pushAll (name : Filename) (bytes : List UInt8) :
    (name.pushAll bytes).truncated =
      (name.truncated ||
        decide (lineCapacity < name.bytes.length + bytes.length)) := by
  induction bytes generalizing name with
  | nil =>
      have bound : name.bytes.length ≤ lineCapacity := name.buffer.length_le
      simp [Nat.not_lt.mpr bound]
  | cons byte rest ih =>
      rw [pushAll_cons, ih, truncated_push, bytes_push, Bool.or_assoc,
        List.length_take, List.length_append, List.length_cons,
        List.length_cons, List.length_nil, ← Bool.decide_or]
      congr 2
      rw [eq_iff_iff]
      omega

end GcodeLink.Filename

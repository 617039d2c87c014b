import GcodeLink.Fault
import GcodeLink.Line

/-!
# Filenames

A filename is collected byte by byte while its line is received.  It keeps the
bytes that fit and remembers whether one did not, so that a shortened name is
never taken for a complete one.
-/

namespace GcodeLink

/-- A filename in the making. -/
structure Filename where
  buffer : Buffer lineCapacity
  /-- Whether a byte did not fit. -/
  truncated : Bool
  deriving DecidableEq, Repr

namespace Filename

/-- The filename before its first byte. -/
def empty : Filename :=
  { buffer := .empty, truncated := false }

/-- The bytes of the name. -/
def bytes (name : Filename) : List UInt8 :=
  name.buffer.bytes

/-- No byte was collected. -/
def isEmpty (name : Filename) : Bool :=
  name.buffer.isEmpty

/-- Append a byte, or remember that it does not fit. -/
def push (name : Filename) (byte : UInt8) : Filename :=
  match name.buffer.push? byte with
  | some buffer => { name with buffer }
  | none => { name with truncated := true }

/-- The fault that one more byte would meet. -/
def fault? (name : Filename) : Option Fault :=
  if name.buffer.isFull then some .filenameTruncated else none

/-- Forget the name. -/
def clear (name : Filename) : Filename :=
  { buffer := name.buffer.clear, truncated := false }

/-- Append bytes in order. -/
def pushAll (name : Filename) (bytes : List UInt8) : Filename :=
  bytes.foldl push name

/-- A complete name has at least one byte and lost none. -/
def isComplete (name : Filename) : Bool :=
  !name.isEmpty && !name.truncated

@[simp]
theorem bytes_clear (name : Filename) : name.clear.bytes = [] := by
  simp [clear, bytes]

@[simp]
theorem truncated_clear (name : Filename) : name.clear.truncated = false := rfl

@[simp]
theorem pushAll_nil (name : Filename) : name.pushAll [] = name := rfl

@[simp]
theorem pushAll_cons (name : Filename) (byte : UInt8) (rest : List UInt8) :
    name.pushAll (byte :: rest) = (name.push byte).pushAll rest := rfl

end Filename

end GcodeLink

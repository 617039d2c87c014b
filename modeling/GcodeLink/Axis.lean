/-!
# Axes of the machine

The machine moves along `X`, `Y` and `Z` and feeds filament along `E`.  A value
kept for each axis is a `PerAxis`: positions, scales and flags are all of this
shape, and each is read and written through one axis.
-/

namespace GcodeLink

/-- An axis of the machine. -/
inductive Axis where
  | x
  | y
  | z
  | e
  deriving DecidableEq, Repr

/-- The axes in the order in which a position lists them. -/
def Axis.all : List Axis := [.x, .y, .z, .e]

/-- One value for each axis. -/
@[ext]
structure PerAxis (α : Type) where
  x : α
  y : α
  z : α
  e : α
  deriving DecidableEq, Repr

namespace PerAxis

variable {α β : Type}

/-- The value of one axis. -/
def get (values : PerAxis α) : Axis → α
  | .x => values.x
  | .y => values.y
  | .z => values.z
  | .e => values.e

/-- Replace the value of one axis. -/
def set (values : PerAxis α) (axis : Axis) (value : α) : PerAxis α :=
  match axis with
  | .x => { values with x := value }
  | .y => { values with y := value }
  | .z => { values with z := value }
  | .e => { values with e := value }

/-- The same value on every axis. -/
def fill (value : α) : PerAxis α :=
  { x := value, y := value, z := value, e := value }

/-- Change the value of every axis. -/
def map (change : α → β) (values : PerAxis α) : PerAxis β :=
  { x := change values.x, y := change values.y, z := change values.z, e := change values.e }

/-- The values in the order of the axes. -/
def toList (values : PerAxis α) : List α :=
  Axis.all.map values.get

@[simp]
theorem get_set_self (values : PerAxis α) (axis : Axis) (value : α) :
    (values.set axis value).get axis = value := by
  cases axis <;> rfl

@[simp]
theorem get_set_of_ne (values : PerAxis α) {axis other : Axis} (value : α)
    (distinct : other ≠ axis) : (values.set axis value).get other = values.get other := by
  cases axis <;> cases other <;> simp_all [get, set]

@[simp]
theorem get_fill (value : α) (axis : Axis) : (fill value).get axis = value := by
  cases axis <;> rfl

/-- Values that agree on every axis are equal. -/
theorem eq_of_get_eq {values others : PerAxis α}
    (agree : ∀ axis, values.get axis = others.get axis) : values = others := by
  ext
  · exact agree .x
  · exact agree .y
  · exact agree .z
  · exact agree .e

end PerAxis

end GcodeLink

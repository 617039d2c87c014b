import GcodeLink.Axis
import GcodeLink.Literal.Scaled

/-!
# Units of the fields

Coordinates are kept in motor steps.  The resolution of an axis is given once,
in steps per millimetre, and turned into two integers: the steps of a metre,
used for metric coordinates with a divisor of a thousand, and the steps of an
inch.  Both casts truncate and stop at the ends of their width.

Feed rates stay as written, apart from inches, and the pause of a dwell is
written in seconds and kept in milliseconds.
-/

namespace GcodeLink

/-- The resolution of one axis as integers. -/
structure AxisScale where
  stepsPerMeter : UInt32
  stepsPerInch : Int64
  deriving DecidableEq, Repr

namespace AxisScale

/-- The resolution of an axis that was never configured. -/
def zero : AxisScale :=
  { stepsPerMeter := 0, stepsPerInch := 0 }

/-- The resolution of an axis with so many steps in a millimetre. -/
def ofStepsPerMillimeter (steps : Float) : AxisScale :=
  { stepsPerMeter := (steps * 1000.0).toUInt32
    stepsPerInch := (25.4 * steps).toInt64 }

/-- The ratio from a coordinate to steps. -/
def ratio (scale : AxisScale) (inches : Bool) : Ratio :=
  if inches then
    { factor := scale.stepsPerInch.toInt, divisor := 1 }
  else
    { factor := scale.stepsPerMeter.toNat, divisor := 1000 }

end AxisScale

/-- The resolution of every axis. -/
structure Scale where
  axes : PerAxis AxisScale
  deriving DecidableEq, Repr

namespace Scale

/-- The scale of a machine that was never configured. -/
def zero : Scale :=
  { axes := .fill .zero }

/-- The scale of a machine with so many steps in a millimetre of each axis. -/
def ofStepsPerMillimeter (steps : PerAxis Float) : Scale :=
  { axes := steps.map .ofStepsPerMillimeter }

/-- The ratio from a coordinate along an axis to steps. -/
def ratio (scale : Scale) (axis : Axis) (inches : Bool) : Ratio :=
  (scale.axes.get axis).ratio inches

/-- A coordinate along an axis in steps. -/
def steps (scale : Scale) (axis : Axis) (value : Literal) (inches : Bool) :
    Except Fault Int :=
  value.scaled (scale.ratio axis inches)

end Scale

/-- The ratio of a feed rate: inches become millimetres, millimetres stay as written. -/
def feedRatio (inches : Bool) : Ratio :=
  if inches then { factor := 254, divisor := 10 } else .one

/-- The ratio from the seconds of a dwell to milliseconds; other pauses stay as written. -/
def pauseRatio (dwell : Bool) : Ratio :=
  if dwell then { factor := 1000, divisor := 1 } else .one

end GcodeLink

import GcodeLink.Axis
import GcodeLink.Byte

/-!
# Fields of a line

A field is opened by its letter, or by the asterisk of the checksum.  Every
letter opens a field; one that has no meaning to the machine is read over.
`FieldSet` records which of the meaningful fields a line holds.
-/

namespace GcodeLink

/-- A field of a line, named by what opens it. -/
inductive Field where
  /-- The `G` code. -/
  | g
  /-- The `M` code. -/
  | m
  /-- A coordinate. -/
  | axis (axis : Axis)
  /-- The feed rate `F`. -/
  | feed
  /-- The parameter `S`. -/
  | s
  /-- The parameter `P`. -/
  | p
  /-- The line number `N`. -/
  | lineNumber
  /-- The checksum after an asterisk. -/
  | checksum
  /-- A letter without a meaning. -/
  | unknown (letter : UInt8)
  deriving DecidableEq, Repr

namespace Field

/-- The folded byte that opens a field. -/
def opener : Field → UInt8
  | .g => 'G'.toUInt8
  | .m => 'M'.toUInt8
  | .axis .x => 'X'.toUInt8
  | .axis .y => 'Y'.toUInt8
  | .axis .z => 'Z'.toUInt8
  | .axis .e => 'E'.toUInt8
  | .feed => 'F'.toUInt8
  | .s => 'S'.toUInt8
  | .p => 'P'.toUInt8
  | .lineNumber => 'N'.toUInt8
  | .checksum => Byte.asterisk
  | .unknown letter => letter

/-- The fields that have a meaning, in the order in which they are listed. -/
def meaningful : List Field :=
  [.g, .m, .axis .x, .axis .y, .axis .z, .axis .e, .feed, .s, .p, .lineNumber, .checksum]

/-- The field that a folded byte opens. -/
def ofByte (byte : UInt8) : Field :=
  (meaningful.find? (·.opener == byte)).getD (.unknown byte)

/-- A byte opens the field that it is the opener of. -/
@[simp]
theorem opener_ofByte (byte : UInt8) : (ofByte byte).opener = byte := by
  unfold ofByte
  cases found : meaningful.find? (·.opener == byte) with
  | none => rfl
  | some field => simpa using List.find?_some found

end Field

/-- The fields met on a line. -/
@[ext]
structure FieldSet where
  g : Bool
  m : Bool
  axes : PerAxis Bool
  feed : Bool
  s : Bool
  p : Bool
  lineNumber : Bool
  checksum : Bool
  deriving DecidableEq, Repr

namespace FieldSet

/-- No field was met. -/
def empty : FieldSet where
  g := false
  m := false
  axes := .fill false
  feed := false
  s := false
  p := false
  lineNumber := false
  checksum := false

/-- Whether a field was met; a letter without a meaning leaves no mark. -/
def contains (seen : FieldSet) : Field → Bool
  | .g => seen.g
  | .m => seen.m
  | .axis axis => seen.axes.get axis
  | .feed => seen.feed
  | .s => seen.s
  | .p => seen.p
  | .lineNumber => seen.lineNumber
  | .checksum => seen.checksum
  | .unknown _ => false

/-- Set or take back the mark of a field. -/
def put (seen : FieldSet) (field : Field) (mark : Bool) : FieldSet :=
  match field with
  | .g => { seen with g := mark }
  | .m => { seen with m := mark }
  | .axis axis => { seen with axes := seen.axes.set axis mark }
  | .feed => { seen with feed := mark }
  | .s => { seen with s := mark }
  | .p => { seen with p := mark }
  | .lineNumber => { seen with lineNumber := mark }
  | .checksum => { seen with checksum := mark }
  | .unknown _ => seen

/-- Mark a field as met. -/
def insert (seen : FieldSet) (field : Field) : FieldSet :=
  seen.put field true

/-- Take back the mark of a field. -/
def erase (seen : FieldSet) (field : Field) : FieldSet :=
  seen.put field false

/-- Mark the fields of a list and no other. -/
def ofList (fields : List Field) : FieldSet :=
  fields.foldl insert empty

/-- The meaningful fields that were met, in their order. -/
def toList (seen : FieldSet) : List Field :=
  Field.meaningful.filter seen.contains

/-- Every field met in the second was met in the first. -/
def includes (seen others : FieldSet) : Bool :=
  others.toList.all seen.contains

theorem contains_put_self (seen : FieldSet) (field : Field) (mark : Bool)
    (meaning : ∀ letter, field ≠ .unknown letter) :
    (seen.put field mark).contains field = mark := by
  cases field <;> simp_all [put, contains]

@[simp]
theorem contains_put_of_ne (seen : FieldSet) {field other : Field} (mark : Bool)
    (distinct : other ≠ field) : (seen.put field mark).contains other = seen.contains other := by
  cases field <;> cases other <;> simp_all [put, contains]

end FieldSet

end GcodeLink

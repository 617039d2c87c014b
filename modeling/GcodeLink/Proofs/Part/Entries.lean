import Mathlib.Data.List.Induction
import GcodeLink.Part
import GcodeLink.Proofs.Byte

/-!
# The fields of a line in order

Once a line is cut into parts, its fields can be looked at as a list, each with
the literal that its body spells.  What a line says can be read off that list
without any state: a slot gets the last number of its field that fits, and the
last `G` or `M` says what the line is.  Only the pause `P` looks back, because
its unit depends on the code before it.
-/

namespace GcodeLink

/-- A field of a line with the literal that its body spells. -/
structure Entry where
  field : Field
  value : Literal
  deriving DecidableEq, Repr

namespace Part

/-- The field of a part. -/
def entry? : Part → Option Entry
  | field opener body =>
      some
        { field := .ofByte (Byte.fold opener)
          value := literal body }
  | _ => none

/-- The fields among the parts. -/
def entries (parts : List Part) : List Entry :=
  parts.filterMap entry?

/-- The name of a part. -/
def name? : Part → Option (List UInt8)
  | filename name => some name
  | _ => none

/-- The last filename among the parts, empty if there is none. -/
def lastName (parts : List Part) : List UInt8 :=
  (parts.filterMap name?).getLast?.getD []

@[simp]
theorem entries_append (front rest : List Part) :
    entries (front ++ rest) = entries front ++ entries rest :=
  List.filterMap_append

theorem entries_append_of_none
    (front : List Part) {part : Part}
    (noField : part.entry? = none) :
    entries (front ++ [part]) = entries front := by
  rw [entries, List.filterMap_append, List.filterMap_cons_none noField,
    List.filterMap_nil, List.append_nil]
  rfl

theorem lastName_append_filename (front : List Part) (name : List UInt8) :
    lastName (front ++ [filename name]) = name := by
  rw [lastName, List.filterMap_append]
  exact congrArg (Option.getD · []) List.getLast?_concat

theorem lastName_append_of_none
    (front : List Part) {part : Part}
    (unnamed : part.name? = none) :
    lastName (front ++ [part]) = lastName front := by
  rw [lastName, List.filterMap_append, List.filterMap_cons_none unnamed,
    List.filterMap_nil, List.append_nil]
  rfl

end Part

/-- The literal fits the slot of its field; a field without a slot takes any. -/
def Field.converts (field : Field) (ratio : Ratio) (value : Literal) : Bool :=
  match field with
  | .g => (value.fit ratio : Except Fault UInt8).isOk
  | .m | .p => (value.fit ratio : Except Fault UInt16).isOk
  | .axis _ => (value.fit ratio : Except Fault Int32).isOk
  | .feed | .lineNumber => (value.fit ratio : Except Fault UInt32).isOk
  | .s => (value.fit ratio : Except Fault Int16).isOk
  | .checksum | .unknown _ => true

namespace Entry

/-- The field is a `G` or an `M`. -/
def isCode (entry : Entry) : Bool :=
  entry.field = .g || entry.field = .m

/-- The last `G` or `M` of a line. -/
def lastCode? (entries : List Entry) : Option Entry :=
  (entries.filter isCode).getLast?

/-- The `G` code of a line, which is a linear move if it names no code. -/
def gCode? (entries : List Entry) : Option UInt8 :=
  match lastCode? entries with
  | none => some 1
  | some entry =>
      if entry.field = .g then
        (entry.value.fit .one : Except Fault UInt8).toOption
      else
        none

/-- The `M` code of a line. -/
def mCode? (entries : List Entry) : Option UInt16 :=
  match lastCode? entries with
  | none => none
  | some entry =>
      if entry.field = .m then
        (entry.value.fit .one : Except Fault UInt16).toOption
      else
        none

/-- The ratio for a field that comes after others on its line. -/
def ratio
    (scale : Scale) (inches : Bool) (earlier : List Entry) (field : Field) :
    Ratio :=
  match field with
  | .axis axis => scale.ratio axis inches
  | .feed => feedRatio inches
  | .p => pauseRatio (gCode? earlier == some 4)
  | _ => .one

/-- Each field with the fields before it. -/
def placed (earlier : List Entry) : List Entry → List (List Entry × Entry)
  | [] => []
  | entry :: rest => (earlier, entry) :: placed (earlier ++ [entry]) rest

theorem placed_append (earlier front rest : List Entry) :
    placed earlier (front ++ rest) =
      placed earlier front ++ placed (earlier ++ front) rest := by
  induction front generalizing earlier with
  | nil =>
      rw [List.nil_append, List.append_nil, placed, List.nil_append]
  | cons entry front ih =>
      simp only [List.cons_append, placed, ih, List.append_assoc, List.nil_append]

/-- What the fields of one kind convert to, in their order. -/
def conversions
    (width : Type) [Slot width] (scale : Scale) (inches : Bool)
    (field : Field) (entries : List Entry) : List (Except Fault width) :=
  (placed [] entries).filterMap fun (earlier, entry) =>
    if entry.field = field then
      some (entry.value.fit (ratio scale inches earlier field))
    else
      none

/-- What the fields of one kind convert to when they follow others. -/
def conversionsAfter
    (width : Type) [Slot width] (scale : Scale) (inches : Bool)
    (earlier : List Entry) (field : Field) (later : List Entry) :
    List (Except Fault width) :=
  (placed earlier later).filterMap fun (earlier, entry) =>
    if entry.field = field then
      some (entry.value.fit (ratio scale inches earlier field))
    else
      none

/-- The entry is of this kind. -/
def isOf (field : Field) (entry : Entry) : Bool :=
  entry.field = field

/-- What the last field of a kind says as it is written, if it fits. -/
def last?
    (width : Type) [Slot width] (field : Field) (entries : List Entry) :
    Option width :=
  (entries.filter (isOf field)).getLast?.bind fun entry =>
    (entry.value.fit .one : Except Fault width).toOption

/-- Some field does not fit its slot. -/
def anyMalformed (scale : Scale) (inches : Bool) (entries : List Entry) : Bool :=
  (placed [] entries).any fun (earlier, entry) =>
    !entry.field.converts (ratio scale inches earlier entry.field) entry.value

/-! ## One more field -/

theorem lastCode?_append
    (entries : List Entry) (entry : Entry) :
    lastCode? (entries ++ [entry]) =
      if entry.isCode then some entry else lastCode? entries := by
  rw [lastCode?, List.filter_append]
  split
  · next code =>
      rw [List.filter_cons_of_pos code, List.filter_nil, List.getLast?_concat]
  · next code =>
      rw [List.filter_cons_of_neg code, List.filter_nil, List.append_nil]
      rfl

theorem conversions_append_self
    (width : Type) [Slot width] (scale : Scale) (inches : Bool)
    (field : Field) (entries : List Entry) (value : Literal) :
    conversions width scale inches field (entries ++ [⟨field, value⟩]) =
      conversions width scale inches field entries ++
        [value.fit (ratio scale inches entries field)] := by
  rw [conversions, placed_append, List.filterMap_append]
  simp [conversions, placed]

theorem conversions_append_of_ne
    (width : Type) [Slot width] (scale : Scale) (inches : Bool)
    {field : Field} (entries : List Entry) {entry : Entry}
    (distinct : entry.field ≠ field) :
    conversions width scale inches field (entries ++ [entry]) =
      conversions width scale inches field entries := by
  rw [conversions, placed_append, List.filterMap_append]
  simp [conversions, placed, distinct]

theorem last?_append_self
    (width : Type) [Slot width] (field : Field) (entries : List Entry)
    (value : Literal) :
    last? width field (entries ++ [⟨field, value⟩]) =
      (value.fit .one : Except Fault width).toOption := by
  have same : isOf field ⟨field, value⟩ = true := by
    simp [isOf]
  rw [last?, List.filter_append, List.filter_cons_of_pos same, List.filter_nil,
    List.getLast?_concat]
  rfl

theorem last?_append_of_ne
    (width : Type) [Slot width] {field : Field} (entries : List Entry)
    {entry : Entry} (distinct : entry.field ≠ field) :
    last? width field (entries ++ [entry]) = last? width field entries := by
  have other : ¬ isOf field entry = true := by
    simpa [isOf] using distinct
  rw [last?, List.filter_append, List.filter_cons_of_neg other, List.filter_nil,
    List.append_nil]
  rfl

/-- The last conversion of a field that is kept as written is what it says. -/
theorem getLast?_conversions
    {width : Type} [Slot width] {scale : Scale} {inches : Bool} {field : Field}
    (plain : ∀ earlier, ratio scale inches earlier field = .one)
    (entries : List Entry) :
    (conversions width scale inches field entries).getLast?.bind
        Except.toOption =
      last? width field entries := by
  induction entries using List.reverseRecOn with
  | nil =>
      rfl
  | append_singleton entries entry ih =>
      by_cases same : entry.field = field
      · obtain ⟨_, value⟩ := entry
        subst same
        rw [conversions_append_self, last?_append_self, List.getLast?_concat,
          plain]
        rfl
      · rw [conversions_append_of_ne _ _ _ _ same, last?_append_of_ne _ _ same,
          ih]

theorem anyMalformed_append
    (scale : Scale) (inches : Bool) (entries : List Entry) (entry : Entry) :
    anyMalformed scale inches (entries ++ [entry]) =
      (anyMalformed scale inches entries ||
        !entry.field.converts (ratio scale inches entries entry.field)
          entry.value) := by
  rw [anyMalformed, placed_append, List.any_append]
  simp [anyMalformed, placed]

/-! ## Fields after others -/

theorem conversions_append
    (width : Type) [Slot width] (scale : Scale) (inches : Bool)
    (field : Field) (front back : List Entry) :
    conversions width scale inches field (front ++ back) =
      conversions width scale inches field front ++
        conversionsAfter width scale inches front field back := by
  rw [conversions, placed_append, List.filterMap_append]
  rfl

theorem conversionsAfter_of_absent
    (width : Type) [Slot width] (scale : Scale) (inches : Bool)
    (earlier : List Entry) {field : Field} {later : List Entry}
    (absent : ∀ entry ∈ later, entry.field ≠ field) :
    conversionsAfter width scale inches earlier field later = [] := by
  induction later generalizing earlier with
  | nil =>
      rfl
  | cons entry later ih =>
      obtain ⟨first, others⟩ := List.forall_mem_cons.mp absent
      simpa [conversionsAfter, placed, first] using
        ih (earlier ++ [entry]) others

end Entry

end GcodeLink

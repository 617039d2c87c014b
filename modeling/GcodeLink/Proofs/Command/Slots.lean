import GcodeLink.Proofs.Part.Entries
import GcodeLink.Proofs.Receiver.Step

/-!
# The slots of the record

The coordinates, the feed rate, the parameters and the line number are each
kept in a slot of their own.  A slot is written by its field alone, and each
field writes no more than its slot and its mark.  `Stores` says so once, and
everything about a single slot follows from it.
-/

namespace GcodeLink

/--
How a slot and its mark come out of a line.  The slot holds the last number
that could be converted, or the number from before the line; the mark is set if
the last of the conversions succeeded.
-/
structure SlotReads
    {width : Type} (results : List (Except Fault width))
    (before after : width) (mark : Bool) : Prop where
  slot : after = (results.filterMap Except.toOption).getLast?.getD before
  mark : mark = results.getLast?.any Except.isOk

theorem SlotReads.nil {width : Type} (before : width) :
    SlotReads [] before before false :=
  ⟨rfl, rfl⟩

theorem SlotReads.append_ok
    {width : Type} (results : List (Except Fault width))
    (before number : width) :
    SlotReads (results ++ [.ok number]) before number true where
  slot := by
    rw [List.filterMap_append]
    exact congrArg (Option.getD · before) List.getLast?_concat.symm
  mark := by
    rw [List.getLast?_concat]
    rfl

theorem SlotReads.append_error
    {width : Type} {results : List (Except Fault width)}
    {before after : width} {mark : Bool}
    (reads : SlotReads results before after mark) (fault : Fault) :
    SlotReads (results ++ [.error fault]) before after false where
  slot := by
    rw [List.filterMap_append, List.filterMap_cons_none rfl, List.filterMap_nil,
      List.append_nil]
    exact reads.slot
  mark := by
    rw [List.getLast?_concat]
    rfl

/-- The last conversion is the slot if the mark is set, and failed otherwise. -/
theorem SlotReads.getLast?
    {width : Type} {results : List (Except Fault width)}
    {before after : width} {mark : Bool}
    (reads : SlotReads results before after mark) :
    results.getLast?.bind Except.toOption =
      if mark then some after else none := by
  rw [reads.mark, reads.slot]
  rcases List.eq_nil_or_concat' results with rfl | ⟨front, result, rfl⟩
  · rfl
  · cases result with
    | error fault =>
        rw [List.getLast?_concat]
        rfl
    | ok number =>
        have kept :
            ((front ++ [Except.ok number]).filterMap Except.toOption).getLast? =
              some number := by
          rw [List.filterMap_append]
          exact List.getLast?_concat
        rw [List.getLast?_concat, kept]
        rfl

namespace Command

/-! ## Storing -/

/-- All that storing a field can do to the record. -/
inductive Stored (command : Command) : Field → Command → Prop where
  | g (g : UInt8) :
      Stored command .g { command with g }
  | m (m : UInt16) :
      Stored command .m { command with m }
  | axis (axis : Axis) (steps : Int32) :
      Stored command (.axis axis)
        { command with target := command.target.setAxis axis steps }
  | feed (feed : UInt32) :
      Stored command .feed
        { command with target := { command.target with feed } }
  | s (s : Int16) :
      Stored command .s { command with s }
  | p (p : UInt16) :
      Stored command .p { command with p }
  | lineNumber (lineNumber : UInt32) :
      Stored command .lineNumber { command with lineNumber }
  | checksum (received : Option UInt8) :
      Stored command .checksum { command with received }
  | unknown (letter : UInt8) :
      Stored command (.unknown letter) command

theorem stored_of_store
    {command stored : Command} {scale : Scale} {field : Field} {value : Literal}
    (success : command.store scale field value = .ok stored) :
    Stored command field stored := by
  have converted {width : Type} {result : Except Fault width}
      {put : width → Command} (mapped : result.map put = .ok stored) :
      ∃ number, put number = stored := by
    cases result with
    | ok number => exact ⟨number, Except.ok.inj mapped⟩
    | error fault => cases mapped
  cases field with
  | g =>
      obtain ⟨code, rfl⟩ := converted success
      exact .g code
  | m =>
      obtain ⟨code, rfl⟩ := converted success
      exact .m code
  | axis axis =>
      obtain ⟨steps, rfl⟩ := converted success
      exact .axis axis steps
  | feed =>
      obtain ⟨feed, rfl⟩ := converted success
      exact .feed feed
  | s =>
      obtain ⟨parameter, rfl⟩ := converted success
      exact .s parameter
  | p =>
      obtain ⟨parameter, rfl⟩ := converted success
      exact .p parameter
  | lineNumber =>
      obtain ⟨number, rfl⟩ := converted success
      exact .lineNumber number
  | checksum =>
      cases success
      exact .checksum _
  | unknown letter =>
      cases success
      exact .unknown letter

theorem seen_store
    {command stored : Command} {scale : Scale} {field : Field} {value : Literal}
    (success : command.store scale field value = .ok stored) :
    stored.seen = command.seen := by
  cases stored_of_store success <;> rfl

/-! ## Marks -/

/-- Settling a field touches no mark but its own. -/
theorem contains_settle_of_ne
    (command : Command) (scale : Scale) {field other : Field} (value : Literal)
    (distinct : other ≠ field) :
    (command.settle scale field value).seen.contains other =
      command.seen.contains other := by
  cases stores : command.store scale field value with
  | ok stored =>
      rw [settle_of_ok stores, seen_store stores]
  | error fault =>
      rw [settle_of_error stores]
      exact FieldSet.contains_put_of_ne _ false distinct

/-- The mark of a field other than `G` and `M` is set by that field alone. -/
theorem contains_start
    (command : Command) {field other : Field}
    (noG : other ≠ .g) (noM : other ≠ .m)
    (distinct : other ≠ field) :
    (command.start field).seen.contains other = command.seen.contains other := by
  cases field with
  | g =>
      rw [start, FieldSet.erase, FieldSet.contains_put_of_ne _ false noM,
        FieldSet.insert, FieldSet.contains_put_of_ne _ true noG]
  | m =>
      rw [start, FieldSet.erase, FieldSet.contains_put_of_ne _ false noG,
        FieldSet.insert, FieldSet.contains_put_of_ne _ true noM]
  | axis _ | feed | s | p | lineNumber | checksum | unknown _ =>
      exact FieldSet.contains_put_of_ne _ true distinct

/-! ## Slots -/

/--
The literals of a field are converted and stored in this slot, and no other
field writes to it.
-/
structure Stores
    (field : Field) {width : Type} [Slot width] (slot : Command → width) :
    Prop where
  noG : field ≠ .g
  noM : field ≠ .m
  start : ∀ (command : Command) (other : Field),
    slot (command.start other) = slot command
  drop : ∀ (command : Command) (other : Field),
    slot (command.drop other) = slot command
  marks : ∀ command : Command,
    (command.start field).seen.contains field = true
  erases : ∀ command : Command,
    (command.drop field).seen.contains field = false
  own : ∀ (command : Command) (scale : Scale) (value : Literal),
    (command.store scale field value).map slot =
      value.fit (command.ratio scale field)
  others : ∀ {command stored : Command} {scale : Scale} {other : Field} {value : Literal},
    other ≠ field →
      command.store scale other value = .ok stored →
        slot stored = slot command

private theorem map_put
    {width : Type} {slot : Command → width} {put : width → Command}
    (result : Except Fault width)
    (puts : ∀ number, slot (put number) = number) :
    (result.map put).map slot = result := by
  cases result with
  | ok number => exact congrArg Except.ok (puts number)
  | error fault => rfl

theorem stores_axis (axis : Axis) :
    Stores (.axis axis) (·.target.position.get axis) where
  noG := nofun
  noM := nofun
  start _ other := by
    cases other <;> rfl
  drop _ _ := rfl
  marks command :=
    FieldSet.contains_put_self command.seen (.axis axis) true (fun _ => nofun)
  erases command :=
    FieldSet.contains_put_self command.seen (.axis axis) false (fun _ => nofun)
  own _ _ _ := map_put _ (fun _ => PerAxis.get_set_self _ axis _)
  others distinct success := by
    cases stored_of_store success with
    | axis written steps =>
        have apart : axis ≠ written := by
          rintro rfl
          exact distinct rfl
        exact PerAxis.get_set_of_ne _ _ apart
    | _ =>
        rfl

theorem stores_feed : Stores .feed (·.target.feed) where
  noG := nofun
  noM := nofun
  start _ other := by
    cases other <;> rfl
  drop _ _ := rfl
  marks _ := rfl
  erases _ := rfl
  own _ _ _ := map_put _ (fun _ => rfl)
  others distinct success := by
    cases stored_of_store success with
    | feed _ =>
        exact absurd rfl distinct
    | _ =>
        rfl

theorem stores_s : Stores .s (·.s) where
  noG := nofun
  noM := nofun
  start _ other := by
    cases other <;> rfl
  drop _ _ := rfl
  marks _ := rfl
  erases _ := rfl
  own _ _ _ := map_put _ (fun _ => rfl)
  others distinct success := by
    cases stored_of_store success with
    | s _ =>
        exact absurd rfl distinct
    | _ =>
        rfl

theorem stores_p : Stores .p (·.p) where
  noG := nofun
  noM := nofun
  start _ other := by
    cases other <;> rfl
  drop _ _ := rfl
  marks _ := rfl
  erases _ := rfl
  own _ _ _ := map_put _ (fun _ => rfl)
  others distinct success := by
    cases stored_of_store success with
    | p _ =>
        exact absurd rfl distinct
    | _ =>
        rfl

theorem stores_lineNumber : Stores .lineNumber (·.lineNumber) where
  noG := nofun
  noM := nofun
  start _ other := by
    cases other <;> rfl
  drop _ _ := rfl
  marks _ := rfl
  erases _ := rfl
  own _ _ _ := map_put _ (fun _ => rfl)
  others distinct success := by
    cases stored_of_store success with
    | lineNumber _ =>
        exact absurd rfl distinct
    | _ =>
        rfl

/-! ## A slot along a line -/

namespace Stores

variable
  {field : Field} {width : Type} [Slot width] {slot : Command → width}
  {results : List (Except Fault width)} {before : width} {command : Command}

/-- The field itself appends its conversion to those of its slot. -/
theorem reads_settle
    (stores : Stores field slot)
    (reads :
      SlotReads results before (slot command) (command.seen.contains field))
    (scale : Scale) (value : Literal) :
    SlotReads
      (results ++ [value.fit ((command.start field).ratio scale field)])
      before (slot ((command.start field).settle scale field value))
      (((command.start field).settle scale field value).seen.contains field) := by
  have own := stores.own (command.start field) scale value
  cases stored : (command.start field).store scale field value with
  | ok after =>
      rw [stored] at own
      rw [← own, settle_of_ok stored, seen_store stored, stores.marks]
      exact SlotReads.append_ok results before (slot after)
  | error fault =>
      rw [stored] at own
      rw [← own, settle_of_error stored, stores.erases, stores.drop, stores.start]
      exact reads.append_error fault

/-- Any other field leaves the slot and its mark alone. -/
theorem settle_of_ne
    (stores : Stores field slot) (command : Command)
    (scale : Scale) {other : Field} (value : Literal)
    (distinct : other ≠ field) :
    slot ((command.start other).settle scale other value) = slot command ∧
      ((command.start other).settle scale other value).seen.contains field =
        command.seen.contains field := by
  constructor
  · cases stored : (command.start other).store scale other value with
    | ok after =>
        rw [settle_of_ok stored, stores.others distinct stored, stores.start]
    | error fault =>
        rw [settle_of_error stored, stores.drop, stores.start]
  · rw [contains_settle_of_ne _ _ _ distinct.symm,
      contains_start _ stores.noG stores.noM distinct.symm]

end Stores

/-! ## The code, the checksum and the flag -/

/-- A `G` makes the line a `G` command, or none if its code does not fit. -/
theorem codes_settle_g
    (command : Command) (scale : Scale) (value : Literal) :
    ((command.start .g).settle scale .g value).gCode? =
        (value.fit .one : Except Fault UInt8).toOption ∧
      ((command.start .g).settle scale .g value).mCode? = none := by
  have stores :
      (command.start .g).store scale .g value =
        (value.fit .one).map fun g => { command.start .g with g } :=
    rfl
  cases fits : (value.fit .one : Except Fault UInt8) with
  | ok code =>
      rw [fits] at stores
      rw [settle_of_ok stores]
      exact ⟨rfl, rfl⟩
  | error fault =>
      rw [fits] at stores
      rw [settle_of_error stores]
      exact ⟨rfl, rfl⟩

/-- An `M` makes the line an `M` command, or none if its code does not fit. -/
theorem codes_settle_m
    (command : Command) (scale : Scale) (value : Literal) :
    ((command.start .m).settle scale .m value).gCode? = none ∧
      ((command.start .m).settle scale .m value).mCode? =
        (value.fit .one : Except Fault UInt16).toOption := by
  have stores :
      (command.start .m).store scale .m value =
        (value.fit .one).map fun m => { command.start .m with m } :=
    rfl
  cases fits : (value.fit .one : Except Fault UInt16) with
  | ok code =>
      rw [fits] at stores
      rw [settle_of_ok stores]
      exact ⟨rfl, rfl⟩
  | error fault =>
      rw [fits] at stores
      rw [settle_of_error stores]
      exact ⟨rfl, rfl⟩

/-- Any other field leaves the code alone. -/
theorem codes_settle_of_ne
    (command : Command) (scale : Scale) {field : Field} (value : Literal)
    (noG : field ≠ .g) (noM : field ≠ .m) :
    ((command.start field).settle scale field value).gCode? = command.gCode? ∧
      ((command.start field).settle scale field value).mCode? = command.mCode? := by
  cases field with
  | g =>
      exact absurd rfl noG
  | m =>
      exact absurd rfl noM
  | axis _ | feed | s | p | lineNumber =>
      exact
        ⟨project_settle (·.gCode?) rfl (fun _ => rfl) rfl,
          project_settle (·.mCode?) rfl (fun _ => rfl) rfl⟩
  | checksum | unknown _ =>
      exact ⟨rfl, rfl⟩

/-- No field but the asterisk leaves a checksum. -/
theorem received_settle_of_ne
    (command : Command) (scale : Scale) {field : Field} (value : Literal)
    (noMark : field ≠ .checksum) :
    ((command.start field).settle scale field value).received =
      command.received := by
  cases field with
  | checksum =>
      exact absurd rfl noMark
  | g | m | axis _ | feed | s | p | lineNumber =>
      exact project_settle (·.received) rfl (fun _ => rfl) rfl
  | unknown _ =>
      rfl

/-- The projection looks at nothing that a field of a line writes. -/
def Blind {α : Type} (project : Command → α) : Prop :=
  ∀ (command : Command) (seen : FieldSet) (g : UInt8) (m : UInt16)
    (position : PerAxis Int32) (feed : UInt32) (s : Int16) (p : UInt16)
    (lineNumber : UInt32) (received : Option UInt8) (malformed : Bool),
    project
        { command with
          seen, g, m, s, p, lineNumber, received, malformed
          target := { command.target with position, feed } } =
      project command

theorem blind_settings : Blind (·.settings) := by
  intro _ _ _ _ _ _ _ _ _ _ _
  rfl

theorem blind_filename : Blind (·.filename) := by
  intro _ _ _ _ _ _ _ _ _ _ _
  rfl

theorem blind_origin : Blind (·.target.origin) := by
  intro _ _ _ _ _ _ _ _ _ _ _
  rfl

theorem blind_expected : Blind (·.expected) := by
  intro _ _ _ _ _ _ _ _ _ _ _
  rfl

namespace Blind

variable {α : Type} {project : Command → α}

theorem start
    (blind : Blind project) (command : Command) (field : Field) :
    project (command.start field) = project command := by
  cases field with
  | g | m | axis _ | feed | s | p | lineNumber | checksum | unknown _ =>
      exact blind command _ _ _ _ _ _ _ _ _ _

theorem settle
    (blind : Blind project)
    (command : Command) (scale : Scale) (field : Field) (value : Literal) :
    project (command.settle scale field value) = project command := by
  cases field with
  | g | m | axis _ | feed | s | p | lineNumber =>
      exact project_settle project rfl
        (fun _ => blind command _ _ _ _ _ _ _ _ _ _)
        (blind command _ _ _ _ _ _ _ _ _ _)
  | checksum | unknown _ =>
      exact blind command _ _ _ _ _ _ _ _ _ _

end Blind

/-- Parts of a line leave the numbering alone. -/
theorem expected_takeAll
    (command : Command) (scale : Scale) (parts : List Part) :
    (command.takeAll scale parts).expected = command.expected := by
  induction parts generalizing command with
  | nil =>
      rfl
  | cons part rest ih =>
      rw [takeAll_cons, ih]
      cases part with
      | field opener body =>
          rw [take_field, blind_expected.settle, blind_expected.start]
      | filename _ | comment _ | blank _ =>
          rfl

/-- A literal is stored exactly if it fits. -/
theorem isOk_store
    (command : Command) (scale : Scale) (field : Field) (value : Literal) :
    (command.store scale field value).isOk =
      field.converts (command.ratio scale field) value := by
  have mapped {width : Type} (result : Except Fault width)
      (put : width → Command) :
      (result.map put).isOk = result.isOk := by
    cases result <;> rfl
  cases field with
  | g | m | axis _ | feed | s | p | lineNumber =>
      exact mapped _ _
  | checksum | unknown _ =>
      rfl

/-- A field that could not be stored leaves the line malformed. -/
theorem malformed_settle
    (command : Command) (scale : Scale) (field : Field) (value : Literal) :
    ((command.start field).settle scale field value).malformed =
      (command.malformed ||
        !field.converts ((command.start field).ratio scale field) value) := by
  have started : (command.start field).malformed = command.malformed := by
    cases field <;> rfl
  rw [← isOk_store, ← started]
  cases stored : (command.start field).store scale field value with
  | error fault =>
      rw [settle_of_error stored]
      simp [drop, Except.isOk, Except.toBool]
  | ok after =>
      have same : after.malformed = (command.start field).malformed := by
        cases stored_of_store stored <;> rfl
      rw [settle_of_ok stored, same]
      simp [Except.isOk, Except.toBool]

end Command

end GcodeLink

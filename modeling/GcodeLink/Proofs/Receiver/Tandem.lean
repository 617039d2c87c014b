import GcodeLink.Proofs.Receiver.Step

/-!
# Two receivers along the same bytes

What a byte does to the phase depends on nothing but the phase, the byte and the
literal that is being read.  Receivers in the same phase therefore stay in the
same phase as long as they read the same bytes, and do the same few things to
their records at the same time: a field is started, a field is settled, the
filename is cleared or extended.  A relation between records that all of these
keep is kept by every step.

The relation may depend on the field that is open, since until a field is
settled its mark stands for a number that is not there yet.
-/

namespace GcodeLink

/-- The field that is open, if one is. -/
def Phase.open? : Phase → Option Field
  | .field opened _ => some opened
  | _ => none

/-- The relation is kept by everything that reading a byte may do to both records. -/
structure Command.KeptInTandem
    (Same : Option Field → Command → Command → Prop) : Prop where
  start : ∀ {left right : Command} (field : Field),
    Same none left right →
      Same (some field) (left.start field) (right.start field)
  settle : ∀ {left right : Command} {field : Field} (scale : Scale)
      (value : Literal),
    Same (some field) left right →
      Same none (left.settle scale field value)
        (right.settle scale field value)
  clearName : ∀ {left right : Command},
    Same none left right →
      Same none { left with filename := left.filename.clear }
        { right with filename := right.filename.clear }
  pushName : ∀ {left right : Command} (byte : UInt8),
    Same none left right →
      Same none { left with filename := left.filename.push byte }
        { right with filename := right.filename.push byte }

namespace Receiver

/-- Receivers in the same phase with the same scale, whose records are related. -/
structure Tandem
    (Same : Option Field → Command → Command → Prop)
    (left right : Receiver) : Prop where
  scale : left.scale = right.scale
  phase : left.phase = right.phase
  command : Same left.phase.open? left.command right.command

namespace Tandem

variable
  {Same : Option Field → Command → Command → Prop} {left right : Receiver}

theorem settleField
    (tandem : left.Tandem Same right) (kept : Command.KeptInTandem Same)
    {field : Field} {value : Literal}
    (inField : left.phase = .field field value) (byte : UInt8) :
    (left.settleField field value byte).Tandem Same
      (right.settleField field value byte) := by
  have command := tandem.command
  rw [inField] at command
  have settled := kept.settle left.scale value command
  rw [settleField_eq, settleField_eq, ← tandem.scale]
  split
  · exact ⟨rfl, rfl, kept.clearName settled⟩
  · exact ⟨rfl, rfl, settled⟩

theorem settle
    (tandem : left.Tandem Same right) (kept : Command.KeptInTandem Same)
    (byte : UInt8) :
    (left.settle byte).Tandem Same (right.settle byte) := by
  rw [Receiver.settle, Receiver.settle, ← tandem.phase]
  split
  · next inField =>
      split
      · exact tandem.settleField kept inField byte
      · exact tandem
  · exact tandem

theorem readIdle
    (tandem : left.Tandem Same right) (kept : Command.KeptInTandem Same)
    (idle : left.phase.open? = none) (byte : UInt8) :
    (left.readIdle byte).Tandem Same (right.readIdle byte) := by
  have command := tandem.command
  rw [idle] at command
  rw [Receiver.readIdle, Receiver.readIdle]
  split_ifs
  · exact ⟨tandem.scale, rfl, kept.start _ command⟩
  · exact ⟨tandem.scale, rfl, command⟩
  · exact ⟨tandem.scale, rfl, command⟩
  · exact ⟨tandem.scale, rfl, command⟩

theorem read
    (tandem : left.Tandem Same right) (kept : Command.KeptInTandem Same)
    (raw byte : UInt8) :
    (left.read raw byte).Tandem Same (right.read raw byte) := by
  have command := tandem.command
  rw [Receiver.read, Receiver.read, ← tandem.phase]
  split
  · next inPhase =>
      exact tandem.readIdle kept (congrArg Phase.open? inPhase) byte
  · next inPhase =>
      rw [inPhase] at command
      exact ⟨tandem.scale, rfl, command⟩
  · exact tandem
  · next inPhase =>
      rw [inPhase] at command
      split
      · exact ⟨tandem.scale, rfl, command⟩
      · exact tandem
  · next inPhase =>
      split
      · exact tandem.readIdle kept (congrArg Phase.open? inPhase) byte
      · rw [inPhase] at command ⊢
        exact ⟨tandem.scale, rfl, kept.pushName raw command⟩

/-- A step keeps what everything keeps that it may do. -/
theorem step
    (tandem : left.Tandem Same right) (kept : Command.KeptInTandem Same)
    (raw : UInt8) :
    (left.step raw).Tandem Same (right.step raw) :=
  (tandem.settle kept (Byte.fold raw)).read kept raw (Byte.fold raw)

end Tandem

end Receiver

end GcodeLink

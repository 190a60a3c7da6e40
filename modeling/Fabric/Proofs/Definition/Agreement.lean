import Fabric.Proofs.Definition.Acceptance
import Fabric.Proofs.Message.Lifecycle

namespace Fabric

namespace CommonArgs

/-- A question about a definition is written as the definition is. -/
theorem encode_readiness (a : CommonArgs) : Wire.encode a.readiness = Wire.encode a.commit := rfl

/-- An approval is written as the definition is, with the source after it. -/
theorem encode_approval (a : CommonArgs) (source : Message.ChaincodeSource) :
    Wire.encode (a.approval source) = Wire.encode a.commit ++ Wire.Record.encodeBlock 9 (Wire.encode source) := by
  have hfields : Wire.Codec.toFields (a.approval source) =
      Wire.Codec.toFields a.commit ++ Wire.Fields.putMessage? 9 ((some source).map Wire.Codec.toFields) := rfl
  have hsource : Wire.Value.encodeFields (Wire.Fields.putMessage? 9 ((some source).map Wire.Codec.toFields)) =
      Wire.Record.encodeBlock 9 (Wire.encode source) := List.append_nil _
  rw [Wire.encode, Wire.Fields.encode, hfields, Wire.Value.encodeFields_append, hsource]
  rfl

end CommonArgs

namespace LifecycleCall

variable (s : Settings) (d : ChaincodeDefinition) (source : PackageSource)

/-- A definition that is not committed is not asked about either, for the same reasons. -/
theorem checkReadiness_args : (checkReadiness s d).map args = (commit s d).map args := by
  rw [checkReadiness, commit, ChaincodeDefinition.readinessArgs, ChaincodeDefinition.commitArgs]
  cases d.commonArgs s with
  | error e => rfl
  | ok a => exact congrArg Except.ok a.encode_readiness

/-- The three calls never drift apart: one asks about what the other commits, and an approval says the same with
the source of the package after it. -/
theorem definition_args_agree :
    (checkReadiness s d).map args = (commit s d).map args ∧
    ((∃ a, approve s d source = .ok a) ↔ (∃ c, commit s d = .ok c) ∧
      (source = .unavailable ∨ ∃ id, source = .localPackage id ∧ Text.isBlankText id = false)) ∧
    ∀ a c, approve s d source = .ok a → commit s d = .ok c →
      a.args = c.args ++ Wire.Record.encodeBlock 9 (Wire.encode source.toMessage) := by
  refine ⟨checkReadiness_args s d, ?_, ?_⟩
  · rw [← PackageSource.check_eq_accepted_iff]
    constructor
    · intro h
      obtain ⟨a, ha⟩ := h
      obtain ⟨args, hcheck, hsource, -⟩ := approve_eq_ok_iff.1 ha
      exact ⟨⟨_, commit_eq_ok_iff.2 ⟨args, hcheck, rfl⟩⟩, hsource⟩
    · intro h
      obtain ⟨⟨c, hc⟩, hsource⟩ := h
      obtain ⟨args, hcheck, -⟩ := commit_eq_ok_iff.1 hc
      exact ⟨_, approve_eq_ok_iff.2 ⟨args, hcheck, hsource, rfl⟩⟩
  · intro a c ha hc
    obtain ⟨approved, happroved, -, rfl⟩ := approve_eq_ok_iff.1 ha
    obtain ⟨committed, hcommitted, rfl⟩ := commit_eq_ok_iff.1 hc
    -- both are of what one check of the definition gave
    obtain rfl := Checked.accepted.inj (happroved.symm.trans hcommitted)
    exact approved.encode_approval source.toMessage

theorem definition_args_agree_local :
    let d : ChaincodeDefinition := { name := "basic", version := "1.0", sequence := 1, collections :=
      [{ name := "first", memberOrgsPolicy := .compact "OR('Org1MSP.member')" }] }
    ∃ a c, approve {} d (.localPackage "id") = .ok a ∧ commit {} d = .ok c ∧
      a.args = c.args ++ [74, 6, 18, 4, 10, 2, 105, 100] := by
  intro d
  obtain ⟨-, hiff, hargs⟩ := definition_args_agree {} d (.localPackage "id")
  have hcommit : ∃ c, commit {} d = .ok c ∧ c.function = "CommitChaincodeDefinition" :=
    exists_ok_of_any (by decide +kernel)
  obtain ⟨c, hc, -⟩ := hcommit
  obtain ⟨a, ha⟩ := hiff.2 ⟨⟨c, hc⟩, .inr ⟨"id", rfl, by decide⟩⟩
  have hsource : Wire.Record.encodeBlock 9 (Wire.encode (PackageSource.localPackage "id").toMessage) =
      [74, 6, 18, 4, 10, 2, 105, 100] := by decide +kernel
  exact ⟨a, c, ha, hc, (hargs a c ha hc).trans (congrArg (c.args ++ ·) hsource)⟩

end LifecycleCall

end Fabric

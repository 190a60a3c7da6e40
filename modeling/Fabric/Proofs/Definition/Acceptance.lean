import Fabric.Proofs.Definition.Checks
import Fabric.Proofs.Request.Traced
import Mathlib.Data.List.Forall2

namespace Fabric

open Message (ApplicationPolicy CollectionPackage MembershipPolicy StaticCollection)

/-- An input that a message is made of stands for a policy. -/
theorem PolicyInput.exists_normalize {α : Type} {input : PolicyInput} {make : Policy → α} {field : String}
    {reason : PolicyError → Reason} {a : α}
    (h : Checked.ofExcept field reason (do return make (← input.normalize)) = .accepted a) :
    ∃ p, input.normalize = .ok p ∧ make p = a := by
  obtain ⟨p, hp, h⟩ := bind_eq_ok_iff.1 (Checked.ofExcept_eq_accepted_iff.1 h)
  exact ⟨p, hp, Except.ok.inj h⟩

/-- Who endorses changes to a collection is said in one of two ways. -/
theorem CollectionEndorsement.check_eq_accepted {field : String} {e : CollectionEndorsement} {m : ApplicationPolicy}
    (h : e.check field = .accepted m) :
    (∃ input p, e = ⟨some input, none⟩ ∧ input.normalize = .ok p ∧ m = .signature p.toMessage) ∨
      ∃ name, e = ⟨none, some name⟩ ∧ m = .reference name := by
  obtain ⟨_ | input, _ | name⟩ := e
  · cases h
  · rw [check] at h
    dsimp only at h
    split at h
    · cases h
    · cases h
      exact .inr ⟨name, rfl, rfl⟩
  · obtain ⟨p, hp, rfl⟩ := PolicyInput.exists_normalize h
    exact .inl ⟨input, p, rfl, hp, rfl⟩
  · cases h

namespace CollectionDefinition

theorem checkMembers_eq_accepted {field : String} {input : PolicyInput} {m : MembershipPolicy}
    (h : checkMembers field input = .accepted m) : ∃ p, input.normalize = .ok p ∧ m = ⟨some p.toMessage⟩ := by
  obtain ⟨p, hp, rfl⟩ := PolicyInput.exists_normalize h
  exact ⟨p, hp, rfl⟩

/-- Each collection turns into a message of its own, in the same place. -/
theorem checkFrom_eq_accepted {earlier : List String} {index : Nat} {cs : List CollectionDefinition}
    {ms : List Message.Collection} (h : checkFrom earlier index cs = .accepted ms) :
    List.Forall₂ (fun c m => ∃ path static, c.check path = .accepted static ∧ m = ⟨some static⟩) cs ms := by
  induction cs generalizing earlier index ms with
  | nil =>
    cases h
    exact .nil
  | cons c rest ih =>
    obtain ⟨static, others, hstatic, hothers, rfl⟩ := checkFrom_cons_eq_accepted h
    exact .cons ⟨_, static, hstatic, rfl⟩ (ih hothers)

theorem checkPackage_eq_accepted {cs : List CollectionDefinition} {package : Option CollectionPackage}
    (h : checkPackage cs = .accepted package) :
    cs = [] ∧ package = none ∨ ∃ ms, checkFrom [] 0 cs = .accepted ms ∧ package = some ⟨ms⟩ := by
  rw [checkPackage] at h
  split at h
  · next hempty =>
    cases h
    exact .inl ⟨List.isEmpty_iff.1 hempty, rfl⟩
  · obtain ⟨ms, hms, rfl⟩ := Checked.map_eq_accepted_iff.1 h
    exact .inr ⟨ms, hms, rfl⟩

end CollectionDefinition

/-- A source is accepted unless it is a package whose identifier is blank. -/
theorem PackageSource.check_eq_accepted_iff {source : PackageSource} {u : Unit} :
    source.check = .accepted u ↔
      source = .unavailable ∨ ∃ id, source = .localPackage id ∧ Text.isBlankText id = false := by
  cases source with
  | unavailable => exact iff_of_true rfl (.inl rfl)
  | localPackage id =>
    constructor
    · intro h
      exact .inr ⟨id, rfl, Checked.not_blank_of_present h⟩
    · intro h
      obtain h | ⟨_, h, hid⟩ := h
      · cases h
      · cases h
        exact Checked.present_of_not_blank hid "package_id"

/-- An approval takes what a commit takes, and a source. -/
theorem LifecycleCall.approve_eq_ok_iff {s : Settings} {d : ChaincodeDefinition} {source : PackageSource}
    {c : LifecycleCall} :
    approve s d source = .ok c ↔ ∃ args, d.check s = .accepted args ∧ source.check = .accepted () ∧
      c = ⟨"ApproveChaincodeDefinitionForMyOrg", Wire.encode (args.approval source.toMessage), .channel⟩ := by
  rw [approve, ChaincodeDefinition.approveArgs_eq]
  constructor
  · intro h
    obtain ⟨_, hargs, h⟩ := bind_eq_ok_iff.1 h
    cases h
    obtain ⟨_, hchecked, hargs⟩ := bind_eq_ok_iff.1 hargs
    cases hargs
    obtain ⟨hcheck, hsource⟩ := ChaincodeDefinition.checkApproval_eq_accepted (Checked.toExcept_eq_ok_iff.1 hchecked)
    exact ⟨_, hcheck, hsource, rfl⟩
  · intro h
    obtain ⟨args, hcheck, hsource, rfl⟩ := h
    rw [ChaincodeDefinition.checkApproval, hcheck, hsource]
    rfl

/-- A commit sends the arguments that the definition comes to. -/
theorem LifecycleCall.commit_eq_ok_iff {s : Settings} {d : ChaincodeDefinition} {c : LifecycleCall} :
    commit s d = .ok c ↔
      ∃ args, d.check s = .accepted args ∧ c = ⟨"CommitChaincodeDefinition", Wire.encode args.commit, .channel⟩ := by
  rw [commit, ChaincodeDefinition.commitArgs, ChaincodeDefinition.commonArgs_eq]
  constructor
  · intro h
    obtain ⟨_, hargs, h⟩ := bind_eq_ok_iff.1 h
    cases h
    obtain ⟨args, hchecked, hargs⟩ := bind_eq_ok_iff.1 hargs
    cases hargs
    exact ⟨args, Checked.toExcept_eq_ok_iff.1 hchecked, rfl⟩
  · intro h
    obtain ⟨args, hcheck, rfl⟩ := h
    rw [hcheck]
    rfl

end Fabric

import Fabric.Proofs.Definition.Acceptance
import Fabric.Proofs.Message.Lifecycle
import Fabric.Proofs.Request.Violations
import Fabric.Proofs.Wire.Passing
import Mathlib.Tactic.MkIffOfInductiveProp

namespace Fabric

open Message (ApplicationPolicy CollectionPackage)
open Wire (Passes)

inductive CollectionEndorsement.Unusable : CollectionEndorsement → Reason → Prop
  | refused {input : PolicyInput} {e : PolicyError} (h : input.normalize = .error e) :
    Unusable ⟨some input, none⟩ (.badPolicy e)
  | blank {name : String} (h : Text.isBlankText name = true) : Unusable ⟨none, some name⟩ .noPolicy
  | both {input : PolicyInput} {name : String} : Unusable ⟨some input, some name⟩ .twoPolicies
  | neither : Unusable ⟨none, none⟩ .noPolicy

inductive CollectionRule
  | unrepeated
  | name
  | requiredPeerCount
  | maximumPeerCount
  | members
  | endorsement

def CollectionRule.inOrder : List CollectionRule :=
  [.unrepeated, .name, .requiredPeerCount, .maximumPeerCount, .members, .endorsement]

@[mk_iff]
inductive CollectionDefinition.Breaks (path : String) (earlier : List CollectionDefinition)
    (c : CollectionDefinition) : CollectionRule → Violation → Prop
  | unrepeated (h : ∃ e ∈ earlier, e.name = c.name) :
    Breaks path earlier c .unrepeated ⟨s!"{path}.name", .duplicateCollection c.name⟩
  | name (h : Text.isBlankText c.name = true) : Breaks path earlier c .name ⟨s!"{path}.name", .required⟩
  | requiredPeerCount (h : c.requiredPeerCount < 0) :
    Breaks path earlier c .requiredPeerCount ⟨s!"{path}.required_peer_count", .negative⟩
  | maximumPeerCount (h : c.maximumPeerCount < c.requiredPeerCount) :
    Breaks path earlier c .maximumPeerCount
      ⟨s!"{path}.maximum_peer_count", .belowRequired c.maximumPeerCount c.requiredPeerCount⟩
  | members {e : PolicyError} (h : c.memberOrgsPolicy.normalize = .error e) :
    Breaks path earlier c .members ⟨s!"{path}.member_orgs_policy", .badPolicy e⟩
  | endorsement {e : CollectionEndorsement} {reason : Reason} (he : c.endorsementPolicy = some e)
    (h : e.Unusable reason) : Breaks path earlier c .endorsement ⟨s!"{path}.endorsement_policy", reason⟩

def CollectionDefinition.pathAt (index : Nat) : String := s!"collections[{index}]"

/-- How the collections of a definition break a rule: it is of the collection with a number, and those before it. -/
def CollectionDefinition.BreakIn (cs : List CollectionDefinition) (rule : Nat × CollectionRule) (v : Violation) : Prop :=
  ∃ c, cs[rule.1]? = some c ∧ c.Breaks (pathAt rule.1) (cs.take rule.1) rule.2 v

def CollectionDefinition.rulesFrom (index count : Nat) : List (Nat × CollectionRule) :=
  (List.range' index count).flatMap fun i => CollectionRule.inOrder.map (i, ·)

inductive DefinitionRule
  | name
  | version
  | sequence
  | validation
  | collection (rule : Nat × CollectionRule)
  | packageId

@[mk_iff]
inductive ChaincodeDefinition.Breaks (source : PackageSource) (d : ChaincodeDefinition) :
    DefinitionRule → Violation → Prop
  | name (h : Text.isBlankText d.name = true) : Breaks source d .name ⟨"name", .required⟩
  | version (h : Text.isBlankText d.version = true) : Breaks source d .version ⟨"version", .required⟩
  | sequence (h : d.sequence < 1) : Breaks source d .sequence ⟨"sequence", .belowOne⟩
  | validation {input : PolicyInput} {e : PolicyError} (hinput : d.validation = .signaturePolicy input)
    (h : input.normalize = .error e) : Breaks source d .validation ⟨"validation", .badValidation e⟩
  | collection {rule : Nat × CollectionRule} {v : Violation} (h : CollectionDefinition.BreakIn d.collections rule v) :
    Breaks source d (.collection rule) v
  | packageId {id : String} (hid : source = .localPackage id) (h : Text.isBlankText id = true) :
    Breaks source d .packageId ⟨"package_id", .required⟩

def ChaincodeDefinition.rules (d : ChaincodeDefinition) : List DefinitionRule :=
  [.name, .version, .sequence, .validation] ++
    (CollectionDefinition.rulesFrom 0 d.collections.length).map .collection

/-- The check of a policy on changes to a collection reports why it cannot be used, and nothing else. -/
theorem CollectionEndorsement.lists_check {ρ : Type} {Breaks : ρ → Violation → Prop} {rule : ρ} {field : String}
    {e : CollectionEndorsement} (h : ∀ v, Breaks rule v ↔ ∃ reason, e.Unusable reason ∧ v = ⟨field, reason⟩) :
    Lists Breaks [rule] (e.check field).violations := by
  have hbroken : ∀ reason, e.Unusable reason → Lists Breaks [rule] [⟨field, reason⟩] := by
    intro reason hreason
    exact .broken ((h _).2 ⟨reason, hreason, rfl⟩) .nil
  -- neither a policy nor a name, a name, a policy, or both
  obtain ⟨_ | input, _ | name⟩ := e
  · exact hbroken _ .neither
  · rw [check]
    dsimp only
    split
    · next hblank => exact hbroken _ (.blank hblank)
    · next hnamed =>
      apply Lists.kept _ .nil
      intro v hv
      obtain ⟨_, hreason, -⟩ := (h v).1 hv
      cases hreason with
      | blank hblank => exact hnamed hblank
  · apply Lists.ofExcept
    intro v
    simp only [h, bind_pure_comp, map_eq_error_iff]
    constructor
    · intro hv
      obtain ⟨_, hreason, rfl⟩ := hv
      cases hreason with
      | refused he => exact ⟨_, he, rfl⟩
    · intro hv
      obtain ⟨e, he, rfl⟩ := hv
      exact ⟨_, .refused he, rfl⟩
  · exact hbroken _ .both

namespace CollectionDefinition

variable {path : String} {earlier : List CollectionDefinition} {c : CollectionDefinition}

theorem lists_endorsement : Lists (c.Breaks path earlier) [.endorsement]
    (CollectionEndorsement.checkOptional s!"{path}.endorsement_policy" c.endorsementPolicy).violations := by
  cases hgiven : c.endorsementPolicy with
  | none =>
    apply Lists.kept _ .nil
    intro v hv
    cases hv with
    | endorsement he _ =>
      rw [hgiven] at he
      cases he
  | some e =>
    rw [CollectionEndorsement.checkOptional, Checked.violations_map]
    apply CollectionEndorsement.lists_check
    intro v
    constructor
    · intro hv
      cases hv with
      | endorsement he hreason =>
        obtain rfl := Option.some.inj (hgiven.symm.trans he)
        exact ⟨_, hreason, rfl⟩
    · intro hv
      obtain ⟨reason, hreason, rfl⟩ := hv
      exact .endorsement hgiven hreason

/-- The check of a collection reports the rules that it breaks, in their order. -/
theorem lists_check : Lists (c.Breaks path earlier) [.name, .requiredPeerCount, .maximumPeerCount, .members, .endorsement]
    (c.check path).violations := by
  have hname : Lists (c.Breaks path earlier) [.name] (Checked.present s!"{path}.name" c.name).violations := by
    apply Lists.present
    simp [breaks_iff]
  have hrequired : Lists (c.Breaks path earlier) [.requiredPeerCount]
      (Checked.require (0 ≤ c.requiredPeerCount) s!"{path}.required_peer_count" .negative).violations := by
    apply Lists.require
    simp [breaks_iff]
  have hmaximum : Lists (c.Breaks path earlier) [.maximumPeerCount]
      (Checked.require (c.requiredPeerCount ≤ c.maximumPeerCount) s!"{path}.maximum_peer_count"
        (.belowRequired c.maximumPeerCount c.requiredPeerCount)).violations := by
    apply Lists.require
    simp [breaks_iff]
  have hmembers : Lists (c.Breaks path earlier) [.members]
      (checkMembers s!"{path}.member_orgs_policy" c.memberOrgsPolicy).violations := by
    apply Lists.ofExcept
    simp [breaks_iff, map_eq_error_iff]
  simp only [check, Checked.violations_seq, Checked.violations_map]
  exact (((hname.append hrequired).append hmaximum).append hmembers).append lists_endorsement

/-- The rules on one collection among others. -/
theorem lists_collection {names : List String} (hnames : ∀ n, n ∈ names ↔ ∃ e ∈ earlier, e.name = n) :
    Lists (c.Breaks path earlier) CollectionRule.inOrder
      ((Checked.require (!names.contains c.name) s!"{path}.name" (.duplicateCollection c.name)).violations ++
        (c.check path).violations) := by
  have hunrepeated : Lists (c.Breaks path earlier) [.unrepeated]
      (Checked.require (!names.contains c.name) s!"{path}.name" (.duplicateCollection c.name)).violations := by
    apply Lists.require
    simp [breaks_iff, hnames]
  exact hunrepeated.append lists_check

theorem pathAt_name (index : Nat) : s!"{pathAt index}.name" = s!"collections[{index}].name" := by
  have hend : "]" ++ ".name" = "].name" := by decide
  simp only [pathAt, toString, String.append_assoc, hend]

/-- The first collections have been looked at, and their names are kept. -/
theorem lists_checkFrom {before rest : List CollectionDefinition} {names : List String}
    (hnames : ∀ n, n ∈ names ↔ ∃ e ∈ before, e.name = n) :
    Lists (BreakIn (before ++ rest)) (rulesFrom before.length rest.length)
      (checkFrom names before.length rest).violations := by
  induction rest generalizing before names with
  | nil => exact .nil
  | cons c rest ih =>
    -- the rules on the collection with this number are those on it behind the ones before it
    have hbreaks : (fun rule => BreakIn (before ++ c :: rest) (before.length, rule)) =
        c.Breaks (pathAt before.length) before := by
      ext rule v
      simp [BreakIn]
    have hcollection : Lists (c.Breaks (pathAt before.length) before) CollectionRule.inOrder _ :=
      lists_collection hnames
    rw [← hbreaks, pathAt_name] at hcollection
    -- to the others, this collection is one of those before them
    have hnames' : ∀ n, n ∈ c.name :: names ↔ ∃ e ∈ before ++ [c], e.name = n := by
      intro n
      simp only [List.mem_cons, hnames, List.mem_append, List.not_mem_nil, or_false, or_and_right, exists_or,
        exists_eq_left]
      rw [or_comm, eq_comm]
    have hrest := ih hnames'
    rw [List.length_append, List.length_singleton, List.append_assoc] at hrest
    have hrules : rulesFrom before.length (rest.length + 1) =
        CollectionRule.inOrder.map (before.length, ·) ++ rulesFrom (before.length + 1) rest.length := by
      rw [rulesFrom, List.range'_succ, List.flatMap_cons]
      rfl
    rw [List.length_cons, hrules]
    simp only [checkFrom, Checked.violations_seq, Checked.violations_map]
    exact hcollection.map.append hrest

theorem violations_checkPackage (cs : List CollectionDefinition) :
    (checkPackage cs).violations = (checkFrom [] 0 cs).violations := by
  cases cs with
  | nil => rfl
  | cons c rest => exact Checked.violations_map _ _

theorem lists_checkPackage (cs : List CollectionDefinition) :
    Lists (BreakIn cs) (rulesFrom 0 cs.length) (checkPackage cs).violations := by
  rw [violations_checkPackage]
  have hnames : ∀ n, n ∈ ([] : List String) ↔ ∃ e ∈ ([] : List CollectionDefinition), e.name = n := by
    simp
  exact lists_checkFrom hnames

end CollectionDefinition

namespace ChaincodeDefinition

variable {source : PackageSource} {d : ChaincodeDefinition}

theorem lists_validation (s : Settings) :
    Lists (d.Breaks source) [.validation] (d.validation.check s).violations := by
  apply Lists.ofExcept
  intro v
  cases hgiven : d.validation with
  | signaturePolicy input => simp [breaks_iff, hgiven, ValidationParameter.toMessage, map_eq_error_iff]
  | _ => simp [breaks_iff, hgiven, ValidationParameter.toMessage, pure, Except.pure]

theorem lists_check (s : Settings) : Lists (d.Breaks source) d.rules (d.check s).violations := by
  have hname : Lists (d.Breaks source) [.name] (Checked.present "name" d.name).violations := by
    apply Lists.present
    simp [breaks_iff]
  have hversion : Lists (d.Breaks source) [.version] (Checked.present "version" d.version).violations := by
    apply Lists.present
    simp [breaks_iff]
  have hsequence : Lists (d.Breaks source) [.sequence]
      (Checked.require (1 ≤ d.sequence) "sequence" .belowOne).violations := by
    apply Lists.require
    simp [breaks_iff]
  have hbreaks : (fun rule => d.Breaks source (.collection rule)) = CollectionDefinition.BreakIn d.collections := by
    ext rule v
    simp [breaks_iff]
  have hcollections := CollectionDefinition.lists_checkPackage d.collections
  rw [← hbreaks] at hcollections
  simp only [check, Checked.violations_seq, Checked.violations_map]
  exact (((hname.append hversion).append hsequence).append (lists_validation s)).append hcollections.map

end ChaincodeDefinition

inductive CollectionEndorsement.SentAs : Option CollectionEndorsement → Option ApplicationPolicy → Prop
  | unset : SentAs none none
  | signaturePolicy {input : PolicyInput} {p : Policy} (h : input.normalize = .ok p) :
    SentAs (some ⟨some input, none⟩) (some (.signature p.toMessage))
  | policyReference {name : String} : SentAs (some ⟨none, some name⟩) (some (.reference name))

inductive CollectionDefinition.SentAs (c : CollectionDefinition) : Message.Collection → Prop
  | intro {p : Policy} {endorsement : Option ApplicationPolicy} (hmembers : c.memberOrgsPolicy.normalize = .ok p)
    (hendorsement : CollectionEndorsement.SentAs c.endorsementPolicy endorsement) :
    SentAs c ⟨some ⟨c.name, some ⟨some p.toMessage⟩, c.requiredPeerCount, c.maximumPeerCount, c.blockToLive,
      c.memberOnlyRead, c.memberOnlyWrite, endorsement⟩⟩

namespace LifecycleCall

end LifecycleCall

end Fabric

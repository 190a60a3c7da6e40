import Fabric.Definition.Call
import Fabric.Proofs.Request.Checked

namespace Fabric

open Message (ApplicationPolicy CollectionPackage MembershipPolicy StaticCollection)

namespace CollectionEndorsement

def check (field : String) (e : CollectionEndorsement) : Checked ApplicationPolicy :=
  match e.signaturePolicy, e.policyReference with
  | some input, none => .ofExcept field .badPolicy do return .signature (← input.normalize).toMessage
  | none, some reference =>
    if Text.isBlankText reference then .violation field .noPolicy else .accepted (.reference reference)
  | some _, some _ => .violation field .twoPolicies
  | none, none => .violation field .noPolicy

def checkOptional (field : String) : Option CollectionEndorsement → Checked (Option ApplicationPolicy)
  | none => .accepted none
  | some e => some <$> e.check field

theorem agrees_collect (field : String) (e : CollectionEndorsement) :
    (e.collect field).Agrees some (e.check field) := by
  -- neither a policy nor a name, a name, a policy, or both
  obtain ⟨_ | input, _ | name⟩ := e
  · exact .refuse field .noPolicy
  · rw [collect, check]
    dsimp only
    split
    · exact .refuse field .noPolicy
    · exact .accepted some _
  · exact .accept field .badPolicy _
  · exact .refuse field .twoPolicies

theorem agrees_collectOptional (field : String) (e : Option CollectionEndorsement) :
    (collectOptional field e).Agrees some (checkOptional field e) := by
  cases e with
  | none => exact .accepted some none
  | some e =>
    obtain ⟨policy?, hpolicy, hsent⟩ := agrees_collect field e
    refine .of_gives (.last hpolicy _) ?_ ?_
    · rw [checkOptional, Checked.violations_map]
    · intro policy h
      obtain ⟨policy, haccepted, rfl⟩ := Checked.map_eq_accepted_iff.1 h
      rw [hsent policy haccepted]
      rfl

end CollectionEndorsement

namespace CollectionDefinition

def checkMembers (field : String) (input : PolicyInput) : Checked MembershipPolicy :=
  .ofExcept field .badPolicy do return ⟨some (← input.normalize).toMessage⟩

def check (path : String) (c : CollectionDefinition) : Checked StaticCollection :=
  (fun _ _ _ members endorsement =>
      ⟨c.name, some members, c.requiredPeerCount, c.maximumPeerCount, c.blockToLive, c.memberOnlyRead,
        c.memberOnlyWrite, endorsement⟩)
    <$> Checked.present s!"{path}.name" c.name
    <*> Checked.require (0 ≤ c.requiredPeerCount) s!"{path}.required_peer_count" .negative
    <*> Checked.require (c.requiredPeerCount ≤ c.maximumPeerCount) s!"{path}.maximum_peer_count"
      (.belowRequired c.maximumPeerCount c.requiredPeerCount)
    <*> checkMembers s!"{path}.member_orgs_policy" c.memberOrgsPolicy
    <*> CollectionEndorsement.checkOptional s!"{path}.endorsement_policy" c.endorsementPolicy

def checkFrom (earlier : List String) (index : Nat) :
    List CollectionDefinition → Checked (List Message.Collection)
  | [] => .accepted []
  | c :: rest =>
    (fun _ m ms => ⟨some m⟩ :: ms)
      <$> Checked.require (!earlier.contains c.name) s!"collections[{index}].name" (.duplicateCollection c.name)
      <*> c.check s!"collections[{index}]"
      <*> checkFrom (c.name :: earlier) (index + 1) rest

def checkPackage (cs : List CollectionDefinition) : Checked (Option CollectionPackage) :=
  if cs.isEmpty then .accepted none else (fun ms => some ⟨ms⟩) <$> checkFrom [] 0 cs

/-- What is said of a collection goes into its message as it is, apart from the policies. -/
theorem check_eq_accepted {path : String} {c : CollectionDefinition} {m : StaticCollection}
    (h : c.check path = .accepted m) :
    ∃ members endorsement,
      checkMembers s!"{path}.member_orgs_policy" c.memberOrgsPolicy = .accepted members ∧
      CollectionEndorsement.checkOptional s!"{path}.endorsement_policy" c.endorsementPolicy = .accepted endorsement ∧
      m = ⟨c.name, some members, c.requiredPeerCount, c.maximumPeerCount, c.blockToLive, c.memberOnlyRead,
        c.memberOnlyWrite, endorsement⟩ := by
  -- from the last field to the first
  obtain ⟨_, endorsement, hmembers, hendorsement, rfl⟩ := Checked.seq_eq_accepted_iff.1 h
  obtain ⟨_, members, hmaximum, hmember, rfl⟩ := Checked.seq_eq_accepted_iff.1 hmembers
  obtain ⟨_, _, hrequired, -, rfl⟩ := Checked.seq_eq_accepted_iff.1 hmaximum
  obtain ⟨_, _, hname, -, rfl⟩ := Checked.seq_eq_accepted_iff.1 hrequired
  obtain ⟨_, -, rfl⟩ := Checked.map_eq_accepted_iff.1 hname
  exact ⟨members, endorsement, hmember, hendorsement, rfl⟩

theorem checkFrom_cons_eq_accepted {earlier : List String} {index : Nat} {c : CollectionDefinition}
    {rest : List CollectionDefinition} {ms : List Message.Collection}
    (h : checkFrom earlier index (c :: rest) = .accepted ms) :
    ∃ static others, c.check s!"collections[{index}]" = .accepted static ∧
      checkFrom (c.name :: earlier) (index + 1) rest = .accepted others ∧ ms = ⟨some static⟩ :: others := by
  obtain ⟨_, others, hfirst, hothers, rfl⟩ := Checked.seq_eq_accepted_iff.1 h
  obtain ⟨_, static, hname, hstatic, rfl⟩ := Checked.seq_eq_accepted_iff.1 hfirst
  obtain ⟨_, -, rfl⟩ := Checked.map_eq_accepted_iff.1 hname
  exact ⟨static, others, hstatic, hothers, rfl⟩

theorem agrees_collectMembers (field : String) (input : PolicyInput) :
    (collectMembers field input).Agrees some (checkMembers field input) :=
  .accept field .badPolicy _

/-- A collection is given up only after every one of its fields has been looked at. -/
theorem collect_eq (path : String) (c : CollectionDefinition) :
    c.collect path = (do
      Collecting.require s!"{path}.name" c.name
      Collecting.check (0 ≤ c.requiredPeerCount) s!"{path}.required_peer_count" .negative
      Collecting.check (c.requiredPeerCount ≤ c.maximumPeerCount) s!"{path}.maximum_peer_count"
        (.belowRequired c.maximumPeerCount c.requiredPeerCount)
      let members? ← collectMembers s!"{path}.member_orgs_policy" c.memberOrgsPolicy
      let endorsement? ← CollectionEndorsement.collectOptional s!"{path}.endorsement_policy" c.endorsementPolicy
      return endorsement?.bind fun endorsement => members?.map fun members =>
        ⟨c.name, some members, c.requiredPeerCount, c.maximumPeerCount, c.blockToLive, c.memberOnlyRead,
          c.memberOnlyWrite, endorsement⟩) := by
  rw [collect]
  refine bind_congr fun _ => bind_congr fun _ => bind_congr fun _ => bind_congr fun members? =>
    bind_congr fun endorsement? => ?_
  cases endorsement? with
  | none => rfl
  | some endorsement =>
    cases members? with
    | none => rfl
    | some members => rfl

/-- A collection that has no message has been found fault with. -/
theorem agrees_collect (path : String) (c : CollectionDefinition) : (c.collect path).Agrees some (c.check path) := by
  obtain ⟨members?, hmembers, hmember⟩ := agrees_collectMembers s!"{path}.member_orgs_policy" c.memberOrgsPolicy
  obtain ⟨endorsement?, hendorsement, hendorse⟩ :=
    CollectionEndorsement.agrees_collectOptional s!"{path}.endorsement_policy" c.endorsementPolicy
  rw [collect_eq]
  refine .of_gives (.bind (.require _ c.name) <| .bind (.check _ _ .negative) <| .bind (.check _ _ _) <|
    .bind hmembers <| .last hendorsement _) ?found ?accepted
  case found => simp [check]
  case accepted =>
    intro m hm
    obtain ⟨members, endorsement, hmemberPolicy, hpolicy, rfl⟩ := check_eq_accepted hm
    rw [hendorse _ hpolicy, hmember _ hmemberPolicy]
    rfl

/-- Where nothing is found no collection is passed over. -/
theorem agrees_collectFrom (earlier : List String) (index : Nat) (cs : List CollectionDefinition) :
    (collectFrom earlier index cs).Agrees id (checkFrom earlier index cs) := by
  induction cs generalizing earlier index with
  | nil => exact .accepted id []
  | cons c rest ih =>
    obtain ⟨message?, hmessage, hsent⟩ := agrees_collect s!"collections[{index}]" c
    obtain ⟨others, hothers, hall⟩ := ih (c.name :: earlier) (index + 1)
    rw [collectFrom]
    refine .of_gives (.bind (.check _ _ _) <| .bind hmessage <| .last hothers _) ?found ?accepted
    case found => simp [checkFrom]
    case accepted =>
      intro ms h
      obtain ⟨message, _, hstatic, hrest, rfl⟩ := checkFrom_cons_eq_accepted h
      rw [hsent _ hstatic, hall _ hrest]
      rfl

theorem agrees_collectPackage (cs : List CollectionDefinition) :
    (collectPackage cs).Agrees id (checkPackage cs) := by
  rw [collectPackage, checkPackage]
  split
  · exact .accepted id none
  · obtain ⟨ms, hms, hsent⟩ := agrees_collectFrom [] 0 cs
    refine .of_gives (.last hms _) (Checked.violations_map _ _).symm ?_
    intro package h
    obtain ⟨ms, haccepted, rfl⟩ := Checked.map_eq_accepted_iff.1 h
    rw [hsent ms haccepted]
    rfl

end CollectionDefinition

namespace ValidationParameter

def check (s : Settings) (v : ValidationParameter) : Checked ApplicationPolicy :=
  .ofExcept "validation" .badValidation (v.toMessage s)

theorem agrees_collect (s : Settings) (v : ValidationParameter) : (v.collect s).Agrees some (v.check s) :=
  .accept "validation" .badValidation _

end ValidationParameter

namespace PackageSource

def check : PackageSource → Checked Unit
  | .localPackage packageId => Checked.present "package_id" packageId
  | .unavailable => .accepted ()

theorem agrees_collect (source : PackageSource) : source.collect.Agrees id source.check := by
  cases source with
  | localPackage packageId => exact .require "package_id" packageId
  | unavailable => exact .accepted id ()

end PackageSource

namespace ChaincodeDefinition

def check (s : Settings) (d : ChaincodeDefinition) : Checked CommonArgs :=
  (fun _ _ _ validation collections =>
      ⟨d.sequence, d.name, d.version, plugin d.endorsementPlugin s.endorsementPlugin,
        plugin d.validationPlugin s.validationPlugin, Wire.encode validation, collections, d.initRequired⟩)
    <$> Checked.present "name" d.name
    <*> Checked.present "version" d.version
    <*> Checked.require (1 ≤ d.sequence) "sequence" .belowOne
    <*> d.validation.check s
    <*> CollectionDefinition.checkPackage d.collections

/-- What is said of a chaincode goes into the arguments as it is, apart from plugins and policies. -/
theorem check_eq_accepted {s : Settings} {d : ChaincodeDefinition} {args : CommonArgs}
    (h : d.check s = .accepted args) :
    ∃ validation package, d.validation.check s = .accepted validation ∧
      CollectionDefinition.checkPackage d.collections = .accepted package ∧
      args = ⟨d.sequence, d.name, d.version, plugin d.endorsementPlugin s.endorsementPlugin,
        plugin d.validationPlugin s.validationPlugin, Wire.encode validation, package, d.initRequired⟩ := by
  obtain ⟨_, package, hvalidation, hpackage, rfl⟩ := Checked.seq_eq_accepted_iff.1 h
  obtain ⟨_, validation, hsequence, hpolicy, rfl⟩ := Checked.seq_eq_accepted_iff.1 hvalidation
  obtain ⟨_, _, hversion, -, rfl⟩ := Checked.seq_eq_accepted_iff.1 hsequence
  obtain ⟨_, _, hname, -, rfl⟩ := Checked.seq_eq_accepted_iff.1 hversion
  obtain ⟨_, -, rfl⟩ := Checked.map_eq_accepted_iff.1 hname
  exact ⟨validation, package, hpolicy, hpackage, rfl⟩

/-- The arguments are those of the check wherever they mean something. -/
theorem agrees_collect (s : Settings) (d : ChaincodeDefinition) : (d.collect s).Agrees id (d.check s) := by
  obtain ⟨validation?, hvalidation, hpolicy⟩ := d.validation.agrees_collect s
  obtain ⟨package, hpackage, hsent⟩ := CollectionDefinition.agrees_collectPackage d.collections
  refine .of_gives (.bind (.require "name" d.name) <| .bind (.require "version" d.version) <|
    .bind (.check _ "sequence" .belowOne) <| .bind hvalidation <| .last hpackage _) ?found ?accepted
  case found => simp [check]
  case accepted =>
    intro args h
    obtain ⟨validation, collections, hvalid, hcollections, rfl⟩ := check_eq_accepted h
    rw [hpolicy _ hvalid, hsent _ hcollections]
    rfl

theorem commonArgs_eq (s : Settings) (d : ChaincodeDefinition) : d.commonArgs s = (d.check s).toExcept :=
  (d.agrees_collect s).finish_id

def checkApproval (s : Settings) (d : ChaincodeDefinition) (source : PackageSource) : Checked CommonArgs :=
  (fun a _ => a) <$> d.check s <*> source.check

theorem checkApproval_eq_accepted {s : Settings} {d : ChaincodeDefinition} {source : PackageSource}
    {args : CommonArgs} (h : d.checkApproval s source = .accepted args) :
    d.check s = .accepted args ∧ source.check = .accepted () := by
  obtain ⟨_, _, hdefinition, hsource, rfl⟩ := Checked.seq_eq_accepted_iff.1 h
  obtain ⟨args, hcheck, rfl⟩ := Checked.map_eq_accepted_iff.1 hdefinition
  exact ⟨hcheck, hsource⟩

theorem approveArgs_eq (s : Settings) (d : ChaincodeDefinition) (source : PackageSource) :
    d.approveArgs s source = (do return (← (d.checkApproval s source).toExcept).approval source.toMessage) := by
  obtain ⟨a, ha, hargs⟩ := d.agrees_collect s
  obtain ⟨_, hsource, -⟩ := source.agrees_collect
  have hagrees : Collecting.Agrees (do
      let a ← d.collect s
      source.collect
      return a) id (d.checkApproval s source) := by
    refine .of_gives (.bind ha <| .last hsource _) ?found ?accepted
    case found => simp [checkApproval]
    case accepted =>
      intro args h
      exact hargs args (checkApproval_eq_accepted h).1
  rw [approveArgs, hagrees.finish_id]

end ChaincodeDefinition

end Fabric

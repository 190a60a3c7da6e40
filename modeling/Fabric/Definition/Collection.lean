import Fabric.Message.Collection
import Fabric.Policy.Input
import Fabric.Request.Collecting

namespace Fabric

open Message (ApplicationPolicy CollectionPackage MembershipPolicy StaticCollection)

/-- Who endorses changes to a collection; one of the two has to be given. -/
structure CollectionEndorsement where
  signaturePolicy : Option PolicyInput := none
  policyReference : Option String := none

structure CollectionDefinition where
  name : String
  requiredPeerCount : Int32 := 0
  maximumPeerCount : Int32 := 0
  blockToLive : UInt64 := 0
  memberOnlyRead : Bool := false
  memberOnlyWrite : Bool := false
  memberOrgsPolicy : PolicyInput
  endorsementPolicy : Option CollectionEndorsement := none

namespace CollectionEndorsement

def collect (field : String) (e : CollectionEndorsement) : Collecting (Option ApplicationPolicy) :=
  match e.signaturePolicy, e.policyReference with
  | some input, none => Collecting.accept field .badPolicy do return .signature (← input.normalize).toMessage
  | none, some reference =>
    if Text.isBlankText reference then Collecting.refuse field .noPolicy else return some (.reference reference)
  | some _, some _ => Collecting.refuse field .twoPolicies
  | none, none => Collecting.refuse field .noPolicy

/-- No endorsement policy is as good as one that can be sent. -/
def collectOptional (field : String) : Option CollectionEndorsement → Collecting (Option (Option ApplicationPolicy))
  | none => return some none
  | some e => return (← e.collect field).map some

end CollectionEndorsement

namespace CollectionDefinition

def collectMembers (field : String) (input : PolicyInput) : Collecting (Option MembershipPolicy) :=
  Collecting.accept field .badPolicy do return ⟨some (← input.normalize).toMessage⟩

/-- The message, unless one of the policies cannot be sent; what is wrong is in fields under `path`. -/
def collect (path : String) (c : CollectionDefinition) : Collecting (Option StaticCollection) := do
  Collecting.require s!"{path}.name" c.name
  Collecting.check (0 ≤ c.requiredPeerCount) s!"{path}.required_peer_count" .negative
  Collecting.check (c.requiredPeerCount ≤ c.maximumPeerCount) s!"{path}.maximum_peer_count"
    (.belowRequired c.maximumPeerCount c.requiredPeerCount)
  let members? ← collectMembers s!"{path}.member_orgs_policy" c.memberOrgsPolicy
  let some endorsement ← CollectionEndorsement.collectOptional s!"{path}.endorsement_policy" c.endorsementPolicy
    | return none
  let some members := members? | return none
  return some ⟨c.name, some members, c.requiredPeerCount, c.maximumPeerCount, c.blockToLive, c.memberOnlyRead,
    c.memberOnlyWrite, endorsement⟩

def toMessage (c : CollectionDefinition) : Except RequestError StaticCollection := do
  let message? ← (c.collect "collection").finish
  Collecting.expect message?

/-- The messages of the collections from number `index` on, of which no name may be among those before it. A collection
without a message is passed over. -/
def collectFrom (earlier : List String) (index : Nat) :
    List CollectionDefinition → Collecting (List Message.Collection)
  | [] => return []
  | c :: rest => do
    Collecting.check (!earlier.contains c.name) s!"collections[{index}].name" (.duplicateCollection c.name)
    let message? ← c.collect s!"collections[{index}]"
    let others ← collectFrom (c.name :: earlier) (index + 1) rest
    return match message? with
      | some message => ⟨some message⟩ :: others
      | none => others

/-- No collections make no package. -/
def collectPackage (cs : List CollectionDefinition) : Collecting (Option CollectionPackage) :=
  if cs.isEmpty then return none else return some ⟨← collectFrom [] 0 cs⟩

def package (cs : List CollectionDefinition) : Except RequestError (Option CollectionPackage) :=
  (collectPackage cs).finish

end CollectionDefinition

end Fabric

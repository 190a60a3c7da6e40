import Fabric.Json.Value
import Fabric.Message.Lifecycle
import Fabric.Policy.Compact.Printer
import Fabric.Policy.Envelope
import Fabric.Request.Transaction

namespace Fabric

open Message (ApplicationPolicy CollectionPackage InstallResult InstalledChaincodes ListedDefinition
  PolicyEnvelope ProposalResponse QueryDefinitionResult QueryDefinitionsResult ReadinessResult
  ReferencedChaincode StaticCollection)

/-- The payload of a response, if the peer reports success. -/
def responsePayload (r : ProposalResponse) : Except RequestError Bytes :=
  match r.response with
  | none => .error (.rejected 0 "response carries no status")
  | some inner =>
    if inner.status = statusSuccess then .ok inner.payload else .error (.rejected inner.status inner.message)

structure InstalledView where
  packageId : String
  label : String
  /-- What uses the package, under the names of channels. -/
  references : List (String × List ReferencedChaincode)
deriving DecidableEq, Repr

namespace InstalledView

def decode (b : Bytes) : Except RequestError InstalledView := do
  let result : InstallResult ← decodeMessage b
  return ⟨result.packageId, result.label, []⟩

def decodeList (b : Bytes) : Except RequestError (List InstalledView) := do
  let result : InstalledChaincodes ← decodeMessage b
  return result.chaincodes.map fun c =>
    ⟨c.packageId, c.label, c.references.map fun (channel, r) => (channel, r.chaincodes)⟩

def referenceJson (r : ReferencedChaincode) : Json :=
  .object [("name", .string r.name), ("version", .string r.version)]

def toJson (v : InstalledView) : Json :=
  .object ([("packageId", .string v.packageId), ("label", .string v.label)] ++
    (if v.references.isEmpty then []
    else [("references", .object (v.references.map fun (channel, rs) =>
      (channel, .array (rs.map referenceJson))))]))

end InstalledView

/-- A policy, with a signature policy as text. -/
inductive PolicyView
  | signaturePolicy (text : String)
  | policyReference (name : String)
  | unset
deriving DecidableEq, Repr

namespace PolicyView

def render (envelope : PolicyEnvelope) : Except RequestError String :=
  ((Policy.ofMessage envelope).bind Compact.render).mapError .policy

def ofMessage : ApplicationPolicy → Except RequestError PolicyView
  | .signature envelope => (render envelope).map .signaturePolicy
  | .reference name => .ok (.policyReference name)
  | .unset => .ok .unset

/-- No bytes at all are no policy. -/
def decode (b : Bytes) : Except RequestError PolicyView :=
  if b.isEmpty then .ok .unset else do ofMessage (← decodeMessage b)

def toJson : PolicyView → Json
  | .signaturePolicy text => .object [("signaturePolicy", .string text)]
  | .policyReference name => .object [("policyReference", .string name)]
  | .unset => .string "unset"

end PolicyView

structure CollectionView where
  name : String
  requiredPeerCount : Int32
  maximumPeerCount : Int32
  blockToLive : UInt64
  memberOnlyRead : Bool
  memberOnlyWrite : Bool
  memberOrgsPolicy : String
  endorsementPolicy : PolicyView
deriving DecidableEq, Repr

namespace CollectionView

def membersOf (c : StaticCollection) : Except RequestError String :=
  match c.memberOrgsPolicy.bind (·.signature) with
  | some envelope => PolicyView.render envelope
  | none => .ok ""

def endorsementOf (c : StaticCollection) : Except RequestError PolicyView :=
  match c.endorsementPolicy with
  | some policy => PolicyView.ofMessage policy
  | none => .ok .unset

def ofMessage (c : StaticCollection) : Except RequestError CollectionView := do
  return ⟨c.name, c.requiredPeerCount, c.maximumPeerCount, c.blockToLive, c.memberOnlyRead, c.memberOnlyWrite,
    ← membersOf c, ← endorsementOf c⟩

/-- The collections of a package that hold something. -/
def ofPackage (package : Option CollectionPackage) : Except RequestError (List CollectionView) :=
  match package with
  | none => .ok []
  | some p => (p.collections.filterMap (·.static)).mapM ofMessage

def toJson (v : CollectionView) : Json :=
  .object [("name", .string v.name), ("requiredPeerCount", .ofInt v.requiredPeerCount.toInt),
    ("maximumPeerCount", .ofInt v.maximumPeerCount.toInt), ("blockToLive", .ofNat v.blockToLive.toNat),
    ("memberOnlyRead", .bool v.memberOnlyRead), ("memberOnlyWrite", .bool v.memberOnlyWrite),
    ("memberOrgsPolicy", .string v.memberOrgsPolicy), ("endorsementPolicy", v.endorsementPolicy.toJson)]

end CollectionView

def approvalsJson (approvals : List (String × Bool)) : Json :=
  .object (approvals.map fun (org, approved) => (org, .bool approved))

structure DefinitionView where
  name : String
  sequence : Int64
  version : String
  endorsementPlugin : String
  validationPlugin : String
  validationParameter : PolicyView
  collections : List CollectionView
  initRequired : Bool
  approvals : List (String × Bool)
deriving DecidableEq, Repr

namespace DefinitionView

/-- Reads the answer about the definition of a chaincode, which does not repeat its name. -/
def decode (name : String) (b : Bytes) : Except RequestError DefinitionView := do
  let r : QueryDefinitionResult ← decodeMessage b
  return ⟨name, r.sequence, r.version, r.endorsementPlugin, r.validationPlugin,
    ← PolicyView.decode r.validationParameter, ← CollectionView.ofPackage r.collections, r.initRequired,
    r.approvals⟩

def ofListed (d : ListedDefinition) : Except RequestError DefinitionView := do
  return ⟨d.name, d.sequence, d.version, d.endorsementPlugin, d.validationPlugin,
    ← PolicyView.decode d.validationParameter, ← CollectionView.ofPackage d.collections, d.initRequired, []⟩

def decodeList (b : Bytes) : Except RequestError (List DefinitionView) := do
  let result : QueryDefinitionsResult ← decodeMessage b
  result.definitions.mapM ofListed

def toJson (v : DefinitionView) : Json :=
  .object ([("name", .string v.name), ("sequence", .ofInt v.sequence.toInt), ("version", .string v.version),
    ("endorsementPlugin", .string v.endorsementPlugin), ("validationPlugin", .string v.validationPlugin),
    ("validationParameter", v.validationParameter.toJson),
    ("collections", .array (v.collections.map (·.toJson))), ("initRequired", .bool v.initRequired)] ++
    (if v.approvals.isEmpty then [] else [("approvals", approvalsJson v.approvals)]))

end DefinitionView

/-- Which organisations have approved a definition. -/
def decodeReadiness (b : Bytes) : Except RequestError (List (String × Bool)) := do
  let result : ReadinessResult ← decodeMessage b
  return result.approvals

end Fabric

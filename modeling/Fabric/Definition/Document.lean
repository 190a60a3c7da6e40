import Fabric.Definition.Chaincode
import Fabric.Json.Record
import Fabric.Json.Printer

namespace Fabric

open Json (Document)

namespace Json.Document

/-- How many arrays and objects may stand around one another in what is read. -/
def maxNesting : Nat := 127

/-- The value that a document denotes, with at most `limit` arrays and objects around one another. -/
def value? (limit : Nat) (d : Document) : Option Json := if d.within limit then d.toJson? else none

def text? : Document → Option String
  | .string s => s
  | _ => none

def bool? : Document → Option Bool
  | .bool b => some b
  | _ => none

def int? : Document → Option Int
  | .number l =>
    match l.toNumber? with
    | some (.int n) => some n
    | _ => none
  | _ => none

def int32? (d : Document) : Option Int32 := d.int?.bind Word.int32?

def int64? (d : Document) : Option Int64 := d.int?.bind Word.int64?

def uint32? (d : Document) : Option UInt32 := d.int?.bind Word.uint32?

def uint64? (d : Document) : Option UInt64 := d.int?.bind Word.uint64?

/-- A field that may be missing. -/
def orDefault {α : Type} (fallback : α) (read : Document → Option α) : Option Document → Option α
  | none => some fallback
  | some d => read d

/-- A field that may be missing or null. -/
def optional {α : Type} (read : Document → Option α) : Option Document → Option (Option α)
  | none | some .null => some none
  | some d => (read d).map some

def items? {α : Type} (read : Document → Option α) : Document → Option (List α)
  | .array items => items.mapM read
  | _ => none

end Json.Document

namespace PolicyInput

/-- A policy is any value. -/
def ofDocument? (limit : Nat) (d : Document) : Option PolicyInput := (d.value? limit).map ofJson

def parse? (s : String) : Option PolicyInput := do ofDocument? Document.maxNesting (← Document.read? s)

end PolicyInput

namespace Policy

/-- A policy in the notation of objects, which is checked at once. -/
def ofDocument? (limit : Nat) (d : Document) : Option Policy := do (ofJson (← d.value? limit)).toOption

def parse? (s : String) : Option Policy := do ofDocument? Document.maxNesting (← Document.read? s)

end Policy

namespace CollectionEndorsement

def fields : List (List String) :=
  [["signaturePolicy", "signature_policy"], ["channelConfigPolicyReference", "channel_config_policy_reference"]]

def ofDocument? (limit : Nat) (d : Document) : Option CollectionEndorsement :=
  match d.record? fields with
  | some [signature, reference] => do
    return ⟨← Document.optional (PolicyInput.ofDocument? (limit - 1)) signature,
      ← Document.optional Document.text? reference⟩
  | _ => none

def toJson (e : CollectionEndorsement) : Json :=
  .object ((e.signaturePolicy.toList.map fun p => ("signaturePolicy", p.toJson)) ++
    (e.policyReference.toList.map fun r => ("channelConfigPolicyReference", .string r)))

end CollectionEndorsement

namespace CollectionDefinition

def fields : List (List String) :=
  [["name"], ["requiredPeerCount", "required_peer_count"],
    ["maximumPeerCount", "maximum_peer_count", "maxPeerCount"], ["blockToLive", "block_to_live"],
    ["memberOnlyRead", "member_only_read"], ["memberOnlyWrite", "member_only_write"],
    ["memberOrgsPolicy", "member_orgs_policy", "policy"], ["endorsementPolicy", "endorsement_policy"]]

def ofDocument? (limit : Nat) (d : Document) : Option CollectionDefinition :=
  match d.record? fields with
  | some [name, required, maximum, life, read, write, some members, endorsement] => do
    return ⟨← name.bind Document.text?, ← Document.orDefault 0 Document.int32? required,
      ← Document.orDefault 0 Document.int32? maximum, ← Document.orDefault 0 Document.uint64? life,
      ← Document.orDefault false Document.bool? read, ← Document.orDefault false Document.bool? write,
      ← PolicyInput.ofDocument? (limit - 1) members,
      ← Document.optional (CollectionEndorsement.ofDocument? (limit - 1)) endorsement⟩
  | _ => none

def listOfDocument? (limit : Nat) (d : Document) : Option (List CollectionDefinition) :=
  d.items? (ofDocument? (limit - 1))

def toJson (c : CollectionDefinition) : Json :=
  .object ([("name", .string c.name), ("requiredPeerCount", .ofInt c.requiredPeerCount.toInt),
    ("maximumPeerCount", .ofInt c.maximumPeerCount.toInt), ("blockToLive", .ofNat c.blockToLive.toNat),
    ("memberOnlyRead", .bool c.memberOnlyRead), ("memberOnlyWrite", .bool c.memberOnlyWrite),
    ("memberOrgsPolicy", c.memberOrgsPolicy.toJson)] ++
    (c.endorsementPolicy.toList.map fun e => ("endorsementPolicy", e.toJson)))

def parse? (s : String) : Option CollectionDefinition := do
  ofDocument? Document.maxNesting (← Document.read? s)

def parseList? (s : String) : Option (List CollectionDefinition) := do
  listOfDocument? Document.maxNesting (← Document.read? s)

end CollectionDefinition

namespace ValidationParameter

/-- The name of a kind, or an object with the name of a kind as its only key. -/
def ofDocument? (limit : Nat) : Document → Option ValidationParameter
  | .string (some "channelDefault") => some .channelDefault
  | .object [(some "channelDefault", .null)] => some .channelDefault
  | .object [(some "policyReference", d)] => d.text?.map .policyReference
  | .object [(some "signaturePolicy", d)] => (PolicyInput.ofDocument? (limit - 1) d).map .signaturePolicy
  | _ => none

def toJson : ValidationParameter → Json
  | .channelDefault => .string "channelDefault"
  | .policyReference name => .object [("policyReference", .string name)]
  | .signaturePolicy input => .object [("signaturePolicy", input.toJson)]

end ValidationParameter

namespace ChaincodeDefinition

def fields : List (List String) :=
  [["name"], ["version"], ["sequence"], ["initRequired"], ["endorsementPlugin"], ["validationPlugin"],
    ["validation"], ["collections"]]

def ofDocument? (limit : Nat) (d : Document) : Option ChaincodeDefinition :=
  match d.record? fields with
  | some [name, version, sequence, init, endorsement, validator, validation, collections] => do
    return ⟨← name.bind Document.text?, ← version.bind Document.text?, ← sequence.bind Document.int64?,
      ← Document.orDefault false Document.bool? init, ← Document.optional Document.text? endorsement,
      ← Document.optional Document.text? validator,
      ← Document.orDefault .channelDefault (ValidationParameter.ofDocument? (limit - 1)) validation,
      ← Document.orDefault [] (CollectionDefinition.listOfDocument? (limit - 1)) collections⟩
  | _ => none

def parse? (s : String) : Option ChaincodeDefinition := do
  ofDocument? Document.maxNesting (← Document.read? s)

def toJson (d : ChaincodeDefinition) : Json :=
  .object ([("name", .string d.name), ("version", .string d.version), ("sequence", .ofInt d.sequence.toInt),
    ("initRequired", .bool d.initRequired)] ++
    (d.endorsementPlugin.toList.map fun p => ("endorsementPlugin", .string p)) ++
    (d.validationPlugin.toList.map fun p => ("validationPlugin", .string p)) ++
    [("validation", d.validation.toJson)] ++
    (if d.collections.isEmpty then [] else [("collections", .array (d.collections.map (·.toJson)))]))

end ChaincodeDefinition

namespace Settings

def fields : List (List String) :=
  [["nonce_len"], ["endorsement_plugin"], ["validation_plugin"], ["default_endorsement_policy_ref"],
    ["lifecycle_chaincode"], ["proposal_timeout_ms"]]

def ofDocument? (d : Document) : Option Settings :=
  let fallback : Settings := {}
  match d.record? fields with
  | some [nonce, endorsement, validator, reference, lifecycle, timeout] => do
    return ⟨← Document.orDefault fallback.nonceLength Document.uint64? nonce,
      ← Document.orDefault fallback.endorsementPlugin Document.text? endorsement,
      ← Document.orDefault fallback.validationPlugin Document.text? validator,
      ← Document.orDefault fallback.defaultPolicyReference Document.text? reference,
      ← Document.orDefault fallback.lifecycleChaincode Document.text? lifecycle,
      ← Document.orDefault fallback.proposalTimeout Document.uint32? timeout⟩
  | _ => none

def parse? (s : String) : Option Settings := do ofDocument? (← Document.read? s)

def toJson (s : Settings) : Json :=
  .object [("nonce_len", .ofNat s.nonceLength.toNat), ("endorsement_plugin", .string s.endorsementPlugin),
    ("validation_plugin", .string s.validationPlugin),
    ("default_endorsement_policy_ref", .string s.defaultPolicyReference),
    ("lifecycle_chaincode", .string s.lifecycleChaincode),
    ("proposal_timeout_ms", .ofNat s.proposalTimeout.toNat)]

end Settings

end Fabric

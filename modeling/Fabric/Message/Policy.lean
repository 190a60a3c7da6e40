import Fabric.Total
import Fabric.Wire.Message

namespace Fabric.Message

open Wire Wire.Fields

/-- A policy of a channel's configuration: the number of its kind, and its encoding. -/
structure ConfigPolicy where
  type : Int32
  value : Bytes
deriving DecidableEq, Repr

instance : Codec ConfigPolicy where
  type := .policy
  toFields p := putInt32 1 p.type ++ putBytes 2 p.value
  ofFields f := ⟨f.int32 1, f.bytes 2⟩

structure ImplicitMetaPolicy where
  subPolicy : String
  rule : Int32
deriving DecidableEq, Repr

instance : Codec ImplicitMetaPolicy where
  type := .implicitMetaPolicy
  toFields p := putText 1 p.subPolicy ++ putInt32 2 p.rule
  ofFields f := ⟨f.text 1, f.int32 2⟩

structure MspRole where
  mspId : String
  role : Int32
deriving DecidableEq, Repr

instance : Codec MspRole where
  type := .mspRole
  toFields r := putText 1 r.mspId ++ putInt32 2 r.role
  ofFields f := ⟨f.text 1, f.int32 2⟩

/-- The number of a principal's kind, and its encoding. -/
structure MspPrincipal where
  classification : Int32
  principal : Bytes
deriving DecidableEq, Repr

instance : Codec MspPrincipal where
  type := .mspPrincipal
  toFields p := putInt32 1 p.classification ++ putBytes 2 p.principal
  ofFields f := ⟨f.int32 1, f.bytes 2⟩

inductive SignaturePolicy
  | unset
  | signedBy (index : Int32)
  | nOutOf (n : Int32) (rules : List SignaturePolicy)
deriving Repr

namespace SignaturePolicy

mutual
def toFields : SignaturePolicy → Fields
  | .unset => []
  | .signedBy index => [(1, .ofInt32 index)]
  | .nOutOf n rules => putMessage 2 (putInt32 1 n ++ ruleFields rules)
def ruleFields : List SignaturePolicy → Fields
  | [] => []
  | r :: rest => (2, .message (toFields r)) :: ruleFields rest
end

mutual
def ofFields : List (Nat × Value) → SignaturePolicy
  | (1, .varint n) :: _ => .signedBy n.toInt64.toInt32
  | (2, .message group) :: _ => .nOutOf (Fields.int32 group 1) (rulesOf group)
  | _ => .unset
def rulesOf : List (Nat × Value) → List SignaturePolicy
  | [] => []
  | (2, .message rule) :: rest => ofFields rule :: rulesOf rest
  | _ :: rest => rulesOf rest
end

mutual
/-- The number of rules in a tree. -/
def size : SignaturePolicy → Nat
  | .nOutOf _ rules => sizeList rules + 1
  | _ => 1
def sizeList : List SignaturePolicy → Nat
  | [] => 0
  | r :: rest => size r + sizeList rest
end

theorem sizeList_eq (rules : List SignaturePolicy) : sizeList rules = total size rules := by
  induction rules with
  | nil => rfl
  | cons r rest ih => simp only [sizeList, total, ih]

end SignaturePolicy

instance : Codec SignaturePolicy where
  type := .signaturePolicy
  toFields := SignaturePolicy.toFields
  ofFields := SignaturePolicy.ofFields

structure PolicyEnvelope where
  version : Int32
  rule : Option SignaturePolicy
  identities : List MspPrincipal
deriving Repr

instance : Codec PolicyEnvelope where
  type := .signaturePolicyEnvelope
  toFields e :=
    putInt32 1 e.version ++ putMessage? 2 (e.rule.map Codec.toFields) ++
      putMessages 3 (e.identities.map Codec.toFields)
  ofFields f := ⟨f.int32 1, (f.message? 2).map Codec.ofFields, (f.messages 3).map Codec.ofFields⟩

/-- A policy given by its rule, or by the name of a policy in the channel's configuration. -/
inductive ApplicationPolicy
  | unset
  | signature (envelope : PolicyEnvelope)
  | reference (name : String)
deriving Repr

instance : Codec ApplicationPolicy where
  type := .applicationPolicy
  toFields
    | .unset => []
    | .signature envelope => putMessage 1 (Codec.toFields envelope)
    | .reference name => [(2, .text name)]
  ofFields
    | (1, .message envelope) :: _ => .signature (Codec.ofFields envelope)
    | (2, .text name) :: _ => .reference name
    | _ => .unset

end Fabric.Message

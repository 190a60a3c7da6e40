import Fabric.Message.Policy

namespace Fabric.Message

open Wire Wire.Fields

/-- The policy that says who is a member of a collection. -/
structure MembershipPolicy where
  signature : Option PolicyEnvelope
deriving Repr

instance : Codec MembershipPolicy where
  type := .collectionPolicyConfig
  toFields p := putMessage? 1 (p.signature.map Codec.toFields)
  ofFields f := ⟨(f.message? 1).map Codec.ofFields⟩

structure StaticCollection where
  name : String
  memberOrgsPolicy : Option MembershipPolicy
  requiredPeerCount : Int32
  maximumPeerCount : Int32
  blockToLive : UInt64
  memberOnlyRead : Bool
  memberOnlyWrite : Bool
  endorsementPolicy : Option ApplicationPolicy
deriving Repr

instance : Codec StaticCollection where
  type := .staticCollectionConfig
  toFields c :=
    putText 1 c.name ++ putMessage? 2 (c.memberOrgsPolicy.map Codec.toFields) ++
      putInt32 3 c.requiredPeerCount ++ putInt32 4 c.maximumPeerCount ++ putWord 5 c.blockToLive ++
      putBool 6 c.memberOnlyRead ++ putBool 7 c.memberOnlyWrite ++
      putMessage? 8 (c.endorsementPolicy.map Codec.toFields)
  ofFields f :=
    ⟨f.text 1, (f.message? 2).map Codec.ofFields, f.int32 3, f.int32 4, f.word 5, f.bool 6, f.bool 7,
      (f.message? 8).map Codec.ofFields⟩

structure Collection where
  static : Option StaticCollection
deriving Repr

instance : Codec Collection where
  type := .collectionConfig
  toFields c := putMessage? 1 (c.static.map Codec.toFields)
  ofFields f := ⟨(f.message? 1).map Codec.ofFields⟩

structure CollectionPackage where
  collections : List Collection
deriving Repr

instance : Codec CollectionPackage where
  type := .collectionConfigPackage
  toFields p := putMessages 1 (p.collections.map Codec.toFields)
  ofFields f := ⟨(f.messages 1).map Codec.ofFields⟩

end Fabric.Message

import Fabric.Message.Envelope

namespace Fabric.Message

open Wire Wire.Fields

structure ChaincodeId where
  path : String
  name : String
  version : String
deriving DecidableEq, Repr

instance : Codec ChaincodeId where
  type := .chaincodeId
  toFields i := putText 1 i.path ++ putText 2 i.name ++ putText 3 i.version
  ofFields f := ⟨f.text 1, f.text 2, f.text 3⟩

/-- Binary values under texts, in order of those. -/
abbrev BytesMap := List (String × Bytes)

def BytesMap.toFields (number : Nat) (m : BytesMap) : Fields :=
  putEntries number (m.map fun (key, value) => (key, putBytes 2 value))

def BytesMap.ofFields (number : Nat) (f : Fields) : BytesMap :=
  (f.entries number).map fun (key, entry) => (key, entry.bytes 2)

structure ChaincodeInput where
  args : List Bytes
  decorations : BytesMap
  isInit : Bool
deriving DecidableEq, Repr

instance : Codec ChaincodeInput where
  type := .chaincodeInput
  toFields i := putBlobs 1 i.args ++ i.decorations.toFields 2 ++ putBool 3 i.isInit
  ofFields f := ⟨f.blobs 1, BytesMap.ofFields 2 f, f.bool 3⟩

structure ChaincodeSpec where
  type : Int32
  chaincodeId : Option ChaincodeId
  input : Option ChaincodeInput
  timeout : Int32
deriving DecidableEq, Repr

instance : Codec ChaincodeSpec where
  type := .chaincodeSpec
  toFields s :=
    putInt32 1 s.type ++ putMessage? 2 (s.chaincodeId.map Codec.toFields) ++
      putMessage? 3 (s.input.map Codec.toFields) ++ putInt32 4 s.timeout
  ofFields f := ⟨f.int32 1, (f.message? 2).map Codec.ofFields, (f.message? 3).map Codec.ofFields, f.int32 4⟩

structure ChaincodeInvocation where
  spec : Option ChaincodeSpec
deriving DecidableEq, Repr

instance : Codec ChaincodeInvocation where
  type := .chaincodeInvocationSpec
  toFields i := putMessage? 1 (i.spec.map Codec.toFields)
  ofFields f := ⟨(f.message? 1).map Codec.ofFields⟩

structure SignedProposal where
  proposal : Bytes
  signature : Bytes
deriving DecidableEq, Repr

instance : Codec SignedProposal where
  type := .signedProposal
  toFields p := putBytes 1 p.proposal ++ putBytes 2 p.signature
  ofFields f := ⟨f.bytes 1, f.bytes 2⟩

structure Proposal where
  header : Bytes
  payload : Bytes
  extension : Bytes
deriving DecidableEq, Repr

instance : Codec Proposal where
  type := .proposal
  toFields p := putBytes 1 p.header ++ putBytes 2 p.payload ++ putBytes 3 p.extension
  ofFields f := ⟨f.bytes 1, f.bytes 2, f.bytes 3⟩

/-- The extension of a channel header that names the chaincode. -/
structure ChaincodeExtension where
  chaincodeId : Option ChaincodeId
deriving DecidableEq, Repr

instance : Codec ChaincodeExtension where
  type := .chaincodeHeaderExtension
  toFields e := putMessage? 2 (e.chaincodeId.map Codec.toFields)
  ofFields f := ⟨(f.message? 2).map Codec.ofFields⟩

/-- The invocation, encoded, and data that only the endorsing peers see. -/
structure ProposalPayload where
  input : Bytes
  transientMap : BytesMap
deriving DecidableEq, Repr

instance : Codec ProposalPayload where
  type := .chaincodeProposalPayload
  toFields p := putBytes 1 p.input ++ p.transientMap.toFields 2
  ofFields f := ⟨f.bytes 1, BytesMap.ofFields 2 f⟩

structure Response where
  status : Int32
  message : String
  payload : Bytes
deriving DecidableEq, Repr

instance : Codec Response where
  type := .response
  toFields r := putInt32 1 r.status ++ putText 2 r.message ++ putBytes 3 r.payload
  ofFields f := ⟨f.int32 1, f.text 2, f.bytes 3⟩

structure Endorsement where
  endorser : Bytes
  signature : Bytes
deriving DecidableEq, Repr

instance : Codec Endorsement where
  type := .endorsement
  toFields e := putBytes 1 e.endorser ++ putBytes 2 e.signature
  ofFields f := ⟨f.bytes 1, f.bytes 2⟩

structure ProposalResponse where
  version : Int32
  timestamp : Option Timestamp
  response : Option Response
  payload : Bytes
  endorsement : Option Endorsement
deriving DecidableEq, Repr

instance : Codec ProposalResponse where
  type := .proposalResponse
  toFields r :=
    putInt32 1 r.version ++ putMessage? 2 (r.timestamp.map Codec.toFields) ++
      putMessage? 4 (r.response.map Codec.toFields) ++ putBytes 5 r.payload ++
      putMessage? 6 (r.endorsement.map Codec.toFields)
  ofFields f :=
    ⟨f.int32 1, (f.message? 2).map Codec.ofFields, (f.message? 4).map Codec.ofFields, f.bytes 5,
      (f.message? 6).map Codec.ofFields⟩

end Fabric.Message

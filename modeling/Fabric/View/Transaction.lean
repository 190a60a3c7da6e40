import Fabric.Json.Value
import Fabric.Request.Transaction

namespace Fabric

open Message (ActionPayload ChaincodeInvocation ChannelHeader Envelope Header Payload Proposal ProposalPayload
  SerializedIdentity SignatureHeader SignedProposal)

/-- The Unicode category of control characters. -/
def Text.isControl (c : Char) : Bool := c.toNat < 0x20 || (0x7F ≤ c.toNat && c.toNat < 0xA0)

/-- An argument as text if it is text without control characters, and in hexadecimal digits if not. -/
def argumentText (b : Bytes) : String :=
  match Bytes.toText? b with
  | some s => if s.toList.any Text.isControl then "0x" ++ Bytes.toHex b else s
  | none => "0x" ++ Bytes.toHex b

/-- The name of a header's type, or its number. -/
def headerTypeText (code : Int32) : String :=
  match HeaderType.ofCode? code with
  | some t => t.name
  | none => toString code.toInt

/-- The channel header, and the organisation of the creator. -/
def headerParts (h : Header) : Except RequestError (ChannelHeader × String) := do
  let channel ← decodeMessage h.channelHeader
  let signature : SignatureHeader ← decodeMessage h.signatureHeader
  let creator : SerializedIdentity ← decodeMessage signature.creator
  return (channel, creator.mspId)

/-- What a call says: the chaincode, its arguments, and whether it is its first call. -/
structure CallView where
  chaincodeId : String
  args : List Bytes
  isInit : Bool
deriving DecidableEq, Repr

def CallView.ofInput (input : Bytes) : Except RequestError CallView := do
  let invocation : ChaincodeInvocation ← decodeMessage input
  let id := invocation.spec.bind (·.chaincodeId)
  let input := invocation.spec.bind (·.input)
  return ⟨(id.map (·.name)).getD "", (input.map (·.args)).getD [], (input.map (·.isInit)).getD false⟩

structure ProposalView where
  txId : String
  channelId : String
  headerType : String
  creatorMspId : String
  call : CallView
  transientKeys : List String
  hasTlsCertHash : Bool
deriving DecidableEq, Repr

namespace ProposalView

def decode (b : Bytes) : Except RequestError ProposalView := do
  let signed : SignedProposal ← decodeMessage b
  let proposal : Proposal ← decodeMessage signed.proposal
  let (channel, creatorMspId) ← headerParts (← decodeMessage proposal.header)
  let payload : ProposalPayload ← decodeMessage proposal.payload
  let call ← CallView.ofInput payload.input
  return ⟨channel.txId, channel.channelId, headerTypeText channel.type, creatorMspId, call,
    payload.transientMap.map (·.1), !channel.tlsCertHash.isEmpty⟩

def toJson (v : ProposalView) : Json :=
  .object [("txId", .string v.txId), ("channelId", .string v.channelId), ("headerType", .string v.headerType),
    ("creatorMspId", .string v.creatorMspId), ("chaincodeId", .string v.call.chaincodeId),
    ("args", .array (v.call.args.map fun a => .string (argumentText a))), ("isInit", .bool v.call.isInit),
    ("transientKeys", .array (v.transientKeys.map .string)), ("hasTlsCertHash", .bool v.hasTlsCertHash)]

end ProposalView

structure TransactionView where
  txId : String
  channelId : String
  headerType : String
  creatorMspId : String
  call : CallView
  endorsements : Nat
  transientKeys : List String
  /-- The payloads as they were committed. -/
  proposalPayload : Bytes
  responsePayload : Bytes
deriving DecidableEq, Repr

namespace TransactionView

/-- Reads an envelope; of several actions the first counts. -/
def decode (b : Bytes) : Except RequestError TransactionView := do
  let envelope : Envelope ← decodeMessage b
  let payload : Payload ← decodeMessage envelope.payload
  match payload.header with
  | none => throw (.encoding .noHeader)
  | some header =>
    let (channel, creatorMspId) ← headerParts header
    let transaction : Message.Transaction ← decodeMessage payload.data
    match transaction.actions with
    | [] => throw (.encoding .noActions)
    | action :: _ =>
      let actionPayload : ActionPayload ← decodeMessage action.payload
      let proposalPayload : ProposalPayload ← decodeMessage actionPayload.proposalPayload
      let call ← CallView.ofInput proposalPayload.input
      return ⟨channel.txId, channel.channelId, headerTypeText channel.type, creatorMspId, call,
        (actionPayload.action.map (·.endorsements.length)).getD 0, proposalPayload.transientMap.map (·.1),
        actionPayload.proposalPayload, (actionPayload.action.map (·.responsePayload)).getD []⟩

def toJson (v : TransactionView) : Json :=
  .object [("txId", .string v.txId), ("channelId", .string v.channelId), ("headerType", .string v.headerType),
    ("creatorMspId", .string v.creatorMspId), ("chaincodeId", .string v.call.chaincodeId),
    ("args", .array (v.call.args.map fun a => .string (argumentText a))), ("endorsements", .ofNat v.endorsements),
    ("transientKeys", .array (v.transientKeys.map .string))]

end TransactionView

end Fabric

import Fabric.Message.Transaction
import Fabric.Request.Deliver

namespace Fabric

open Message (ActionPayload ChannelHeader EndorsedAction Endorsement Header Proposal ProposalPayload
  ProposalResponse SignatureHeader TransactionAction)

/-- The status of a response that counts. -/
def statusSuccess : Int32 := 200

def withoutTransient (p : ProposalPayload) : ProposalPayload := ⟨p.input, []⟩

/-- Whether the hash of a proposal covers transient data. -/
inductive TransientMode
  | keep
  | strip
deriving DecidableEq, Repr

def TransientMode.payload : TransientMode → ProposalPayload → ProposalPayload
  | .keep, p => p
  | .strip, p => withoutTransient p

/-- The digest of both headers and the payload of a proposal. -/
def proposalHash (p : Provider) (proposal : Proposal) (mode : TransientMode) : Traced RequestError Bytes := do
  let header : Header ← Traced.ofExcept (decodeMessage proposal.header)
  let payload ← Traced.ofExcept (decodeMessage proposal.payload)
  Traced.digestBytes p (header.channelHeader ++ header.signatureHeader ++ Wire.encode (mode.payload payload))

/-- The endorsement of a response, if the response counts. -/
def endorsement? (r : ProposalResponse) : Option Endorsement :=
  match r.response, r.endorsement with
  | some inner, some e => if inner.status = statusSuccess then some e else none
  | _, _ => none

/-- The payload of the first response that counts. -/
def responsePayload? (responses : List ProposalResponse) : Option Bytes :=
  (responses.find? fun r => (endorsement? r).isSome).map (·.payload)

/-- The transaction with one action, which answers a proposal. -/
def transaction (header : Header) (payload : ProposalPayload) (responsePayload : Bytes)
    (endorsements : List Endorsement) : Message.Transaction :=
  let action : ActionPayload := ⟨Wire.encode (withoutTransient payload), some ⟨responsePayload, endorsements⟩⟩
  ⟨[⟨header.signatureHeader, Wire.encode action⟩]⟩

/-- Only who made a proposal may send it for ordering. -/
def checkCreator (identity : SigningIdentity) (h : SignatureHeader) : Except RequestError Unit :=
  if h.creator = identity.serialize then .ok () else .error (.validation [⟨"identity", .notCreator⟩])

/-- Builds and signs the transaction for a proposal, by the identity that made the proposal. -/
def signTransaction (p : Provider) (identity : SigningIdentity) (proposal : Proposal)
    (responses : List ProposalResponse) : Traced RequestError SignedEnvelope := do
  let header : Header ← Traced.ofExcept (decodeMessage proposal.header)
  let signatureHeader : SignatureHeader ← Traced.ofExcept (decodeMessage header.signatureHeader)
  let channelHeader : ChannelHeader ← Traced.ofExcept (decodeMessage header.channelHeader)
  Traced.ofExcept (checkCreator identity signatureHeader)
  match responsePayload? responses with
  -- no response counts
  | none => Traced.ofExcept (.error (.noSuccessfulEndorsements responses.length))
  | some responsePayload =>
    let payload ← Traced.ofExcept (decodeMessage proposal.payload)
    let endorsements := responses.filterMap endorsement?
    signPayload p identity channelHeader.txId header
      (Wire.encode (transaction header payload responsePayload endorsements))

end Fabric

import Fabric.Proofs.Request.Proposal
import Fabric.View.Transaction

namespace Fabric

open Message (ActionPayload ChaincodeInput ChaincodeInvocation ChannelHeader EndorsedAction Envelope Header Payload
  ProposalPayload SerializedIdentity SignatureHeader)
open Wire (Passes)

theorem SigningIdentity.decode_serialize {i : SigningIdentity} (h : Passes i.serialize) :
    Wire.decode i.serialize = .ok (⟨i.mspId, Bytes.ofText i.certificate⟩ : SerializedIdentity) :=
  (SerializedIdentity.faithful _).decode_of_passes h

theorem headerParts_eq {header : Header} {channelHeader : ChannelHeader} {signatureHeader : SignatureHeader}
    {creator : SerializedIdentity} (hchannel : Wire.decode header.channelHeader = .ok channelHeader)
    (hsignature : Wire.decode header.signatureHeader = .ok signatureHeader)
    (hcreator : Wire.decode signatureHeader.creator = .ok creator) :
    headerParts header = .ok (channelHeader, creator.mspId) := by
  simp only [headerParts, decodeMessage_eq_ok_iff.2 hchannel, decodeMessage_eq_ok_iff.2 hsignature,
    decodeMessage_eq_ok_iff.2 hcreator, bind, Except.bind]
  rfl

theorem decode_chaincodeSpec {name : String} {version : Option String} {type : ChaincodeType} {input : ChaincodeInput}
    {timeout : UInt32} (hinput : Keyed.Ordered input.decorations)
    (h : Passes (Wire.encode (⟨some (chaincodeSpec name version type input timeout)⟩ : ChaincodeInvocation))) :
    Wire.decode (Wire.encode (⟨some (chaincodeSpec name version type input timeout)⟩ : ChaincodeInvocation)) =
      .ok (⟨some (chaincodeSpec name version type input timeout)⟩ : ChaincodeInvocation) := by
  apply (ChaincodeInvocation.faithful ?_).decode_of_passes h
  intro spec hspec i hi
  obtain rfl := Option.some.inj hspec
  obtain rfl := Option.some.inj hi
  exact hinput

/-- What is called is reported as it was asked for. -/
theorem CallView.ofInput_chaincodeSpec {name : String} {version : Option String} {type : ChaincodeType}
    {input : ChaincodeInput} {timeout : UInt32} (hinput : Keyed.Ordered input.decorations)
    (h : Passes (Wire.encode (⟨some (chaincodeSpec name version type input timeout)⟩ : ChaincodeInvocation))) :
    CallView.ofInput (Wire.encode (⟨some (chaincodeSpec name version type input timeout)⟩ : ChaincodeInvocation)) =
      .ok ⟨name, input.args, input.isInit⟩ := by
  simp only [CallView.ofInput, decodeMessage_eq_ok_iff.2 (decode_chaincodeSpec hinput h), bind, Except.bind]
  rfl

namespace ProposalContent

variable {c : ProposalContent} {context : TransactionContext} {now : Message.Timestamp} {certHash : Bytes}
  (h : Passes (Wire.encode (c.proposal context now certHash)))
include h

/-- The creator, who is an identity, stands in the signature header. -/
theorem headerParts_header {identity : SigningIdentity} (hcreator : context.creator = identity.serialize) :
    headerParts (c.header context now certHash) =
      .ok (context.channelHeader .endorserTransaction now c.channelId c.extension certHash, identity.mspId) := by
  have hpasses : Passes context.creator := SignatureHeader.passes_creator (passes_signatureHeader h)
  have hread : Wire.decode context.signatureHeader.creator =
      .ok (⟨identity.mspId, Bytes.ofText identity.certificate⟩ : SerializedIdentity) := by
    rw [TransactionContext.signatureHeader, hcreator]
    rw [hcreator] at hpasses
    exact SigningIdentity.decode_serialize hpasses
  exact headerParts_eq (TransactionContext.decode_channelHeader (passes_header h)) (decode_signatureHeader h) hread

/-- The call stands in the payload. -/
theorem ofInput_payload (hmap : Keyed.Ordered c.transientMap) {name : String} {version : Option String}
    {type : ChaincodeType} {input : ChaincodeInput} {timeout : UInt32}
    (hspec : c.spec = chaincodeSpec name version type input timeout) (hinput : Keyed.Ordered input.decorations) :
    CallView.ofInput c.payload.input = .ok ⟨name, input.args, input.isInit⟩ := by
  have hpasses : Passes c.payload.input := ProposalPayload.passes_input hmap (passes_payload h)
  rw [payload, hspec] at hpasses ⊢
  exact CallView.ofInput_chaincodeSpec hinput hpasses

end ProposalContent

/-- A transaction with one action is reported with what its parts are read as. -/
theorem TransactionView.decode_eq {b data action proposalPayload responsePayload actionHeader input : Bytes}
    {e : Envelope} {header : Header} {channelHeader : ChannelHeader} {creatorMspId : String}
    {endorsements : List Message.Endorsement} {transientMap : Message.BytesMap} {call : CallView}
    (henvelope : Wire.decode b = .ok e) (hpayload : Wire.decode e.payload = .ok (⟨some header, data⟩ : Payload))
    (hheader : headerParts header = .ok (channelHeader, creatorMspId))
    (hdata : Wire.decode data = .ok (⟨[⟨actionHeader, action⟩]⟩ : Message.Transaction))
    (haction : Wire.decode action = .ok (⟨proposalPayload, some ⟨responsePayload, endorsements⟩⟩ : ActionPayload))
    (hproposal : Wire.decode proposalPayload = .ok (⟨input, transientMap⟩ : ProposalPayload))
    (hcall : CallView.ofInput input = .ok call) :
    TransactionView.decode b = .ok ⟨channelHeader.txId, channelHeader.channelId, headerTypeText channelHeader.type,
      creatorMspId, call, endorsements.length, transientMap.map (·.1), proposalPayload, responsePayload⟩ := by
  simp only [TransactionView.decode, decodeMessage_eq_ok_iff.2 henvelope, decodeMessage_eq_ok_iff.2 hpayload, hheader,
    decodeMessage_eq_ok_iff.2 hdata, decodeMessage_eq_ok_iff.2 haction, decodeMessage_eq_ok_iff.2 hproposal, hcall,
    bind, Except.bind]
  rfl

end Fabric

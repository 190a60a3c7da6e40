import Fabric.Proofs.Message.Nesting
import Fabric.Proofs.View.Proposal

/-!
Whether one can go on with a proposal once it is signed. No nesting is measured when it is built. It is when the proposal is
read, and arguments and other bytes then count as messages if they read as such. So it depends on how deeply these bytes
seem nested, and on nothing else.
-/
namespace Fabric

open Message (Header Proposal ProposalPayload ProposalResponse SignatureHeader SignedProposal)
open Wire (blockNesting maxNesting)

def RequestError.tooDeep : RequestError := .encoding (.undecodable (.tooDeep maxNesting))

theorem RequestError.error_tooDeep_iff {α : Type} {fault : EncodingFault} :
    (.error .tooDeep : Except RequestError α) = .error (.encoding fault) ↔
      fault = .undecodable (.tooDeep maxNesting) := by
  rw [tooDeep, Except.error.injEq, encoding.injEq, eq_comm]

section

variable {α : Type} [Wire.Codec α] {a : α} (ha : Wire.Faithful a) (hlen : (Wire.encode a).length < UInt64.size)
include ha hlen

theorem decodeMessage_of_le (h : blockNesting (Wire.encode a) ≤ maxNesting) :
    decodeMessage (Wire.encode a) = .ok a := by
  rw [decodeMessage_eq_ok_iff, ha.decode_encode_eq hlen, if_pos h]

theorem decodeMessage_of_deep (h : ¬ blockNesting (Wire.encode a) ≤ maxNesting) :
    (decodeMessage (Wire.encode a) : Except RequestError α) = .error .tooDeep := by
  rw [decodeMessage, ha.decode_encode_eq hlen, if_neg h]
  rfl

end

theorem ProposalView.decode_of_deep {signed : SignedProposal} (hlen : (Wire.encode signed).length < UInt64.size)
    (h : ¬ blockNesting (Wire.encode signed) ≤ maxNesting) : decode (Wire.encode signed) = .error .tooDeep := by
  simp only [decode, decodeMessage_of_deep signed.faithful hlen h, bind, Except.bind]

section

variable {p : Provider} {identity : SigningIdentity} {proposal : Proposal} {responses : List ProposalResponse}
  {header : Header} {channelHeader : Message.ChannelHeader}

theorem signTransaction_of_header_error {e : RequestError}
    (h : (decodeMessage proposal.header : Except RequestError Header) = .error e) :
    (signTransaction p identity proposal responses).outcome = .error e := by
  rw [signTransaction, h]
  rfl

/-- A signature that cannot be had is no fault of what was read. -/
theorem signPayload_ne_encoding {txId : String} {data : Bytes} {fault : EncodingFault} :
    (signPayload p identity txId header data).outcome ≠ .error (.encoding fault) := by
  intro h
  rw [signPayload] at h
  generalize Wire.encode (⟨some header, data⟩ : Message.Payload) = payload at h
  cases hsign : p.sign identity.key payload with
  | ok signature =>
    rw [Traced.sign_of_ok hsign] at h
    cases h
  | error e =>
    rw [Traced.sign_of_error hsign] at h
    cases h

end

/-- The parts of a proposal that is signed are shorter than what is signed. -/
theorem ProposalContent.short_of_signed {c : ProposalContent} {context : TransactionContext} {now : Message.Timestamp}
    {certHash : Bytes} {signed : SignedProposal}
    (hproposal : signed.proposal = Wire.encode (c.proposal context now certHash))
    (hlen : (Wire.encode signed).length < UInt64.size) :
    (Wire.encode (c.proposal context now certHash)).length < UInt64.size ∧
      (Wire.encode (c.header context now certHash)).length < UInt64.size ∧
      (Wire.encode c.payload).length < UInt64.size := by
  have hshort := Nat.lt_of_le_of_lt (SignedProposal.length_proposal_le signed) hlen
  rw [hproposal] at hshort
  have hheader := Nat.lt_of_le_of_lt (Proposal.length_header_le _) hshort
  have hpayload := Nat.lt_of_le_of_lt (Proposal.length_payload_le _) hshort
  rw [proposal_header] at hheader
  rw [proposal_payload] at hpayload
  exact ⟨hshort, hheader, hpayload⟩

/-- What is signed is short if the parts are. -/
theorem ProposalContent.signed_short {c : ProposalContent} {context : TransactionContext} {now : Message.Timestamp}
    {certHash : Bytes} {signed : SignedProposal}
    (hproposal : signed.proposal = Wire.encode (c.proposal context now certHash))
    (hheader : (Wire.encode (c.header context now certHash)).length < UInt32.size)
    (hpayload : (Wire.encode c.payload).length < UInt32.size) (hsignature : signed.signature.length < UInt32.size) :
    (Wire.encode signed).length < UInt64.size := by
  have hroom : 3 * UInt32.size + 55 < UInt64.size := by decide
  have hpayloadEq : (c.proposal context now certHash).payload = Wire.encode c.payload := proposal_payload
  have hextensionLen : (c.proposal context now certHash).extension.length = 0 := by rw [proposal, List.length_nil]
  rw [← proposal_header] at hheader
  rw [← hpayloadEq] at hpayload
  have hproposalLen := Proposal.length_encode_le (p := c.proposal context now certHash) (by omega) (by omega)
    (by omega)
  rw [← hproposal] at hproposalLen
  have hsignedLen := SignedProposal.length_encode_le (p := signed) (by omega) (by omega)
  omega

/-- Where the header of the creator can be read, only the payload may still be refused. -/
theorem ProposalContent.signTransaction_eq {c : ProposalContent} {context : TransactionContext}
    {now : Message.Timestamp} {certHash : Bytes} {identity : SigningIdentity}
    (h : Wire.Passes (Wire.encode (c.header context now certHash))) (hcreator : context.creator = identity.serialize)
    (q : Provider) (responses : List ProposalResponse) :
    signTransaction q identity (c.proposal context now certHash) responses =
      match responsePayload? responses with
      | none => ⟨[], .error (.noSuccessfulEndorsements responses.length)⟩
      | some responsePayload =>
        Traced.ofExcept (decodeMessage (Wire.encode c.payload)) >>= fun payload =>
          signPayload q identity context.txId (c.header context now certHash)
            (Wire.encode (transaction (c.header context now certHash) payload responsePayload
              (responses.filterMap endorsement?))) := by
  have hheader : Wire.decode (c.proposal context now certHash).header = .ok (c.header context now certHash) := by
    rw [proposal_header]
    exact (Header.faithful _).decode_of_passes h
  have hcreatorRead : Wire.decode (c.header context now certHash).signatureHeader =
      .ok (⟨identity.serialize, context.nonce⟩ : SignatureHeader) := by
    rw [← hcreator]
    exact TransactionContext.decode_signatureHeader h
  rw [Fabric.signTransaction_eq hheader hcreatorRead (TransactionContext.decode_channelHeader h), proposal_payload]
  rfl

namespace EndorsementRequest

structure HeadWithin (r : EndorsementRequest) (identity : SigningIdentity) (context : TransactionContext)
    (certHash : Bytes) (n : Nat) : Prop where
  chaincodeId : blockNesting (Bytes.ofText r.chaincodeId) ≤ n
  version : ∀ v ∈ r.chaincodeVersion, blockNesting (Bytes.ofText v) ≤ n
  mspId : blockNesting (Bytes.ofText r.mspId) ≤ n + 1
  certificate : blockNesting (Bytes.ofText identity.certificate) ≤ n + 1
  channelId : blockNesting (Bytes.ofText r.channelId) ≤ n + 2
  txId : blockNesting (Bytes.ofText context.txId) ≤ n + 2
  nonce : blockNesting context.nonce ≤ n + 2
  certHash : blockNesting certHash ≤ n + 2

structure BodyWithin (r : EndorsementRequest) (n : Nat) : Prop where
  chaincodeId : blockNesting (Bytes.ofText r.chaincodeId) ≤ n
  version : ∀ v ∈ r.chaincodeVersion, blockNesting (Bytes.ofText v) ≤ n
  args : ∀ a ∈ invocationArgs r.function r.args, blockNesting a ≤ n
  transientMap : ∀ e ∈ r.transientMap, blockNesting (Bytes.ofText e.1) ≤ n + 2 ∧ blockNesting e.2 ≤ n + 2

def content (r : EndorsementRequest) (s : Settings) (tls : Option String) : ProposalContent :=
  ⟨r.channelId, r.spec s, r.transientMap, tls⟩

variable {r : EndorsementRequest} {s : Settings} {tls : Option String} {identity : SigningIdentity}
  {context : TransactionContext} {now : Message.Timestamp} {certHash : Bytes} {n : Nat}

/-- What is signed for an accepted request is the proposal of its content, in a context that the provider and the nonce
give. -/
theorem signed_of_outcome {p : Provider} {w : Surroundings} {nonce : Option Bytes} {e : EndorsementProposal}
    (hcheck : r.validate = .ok (identity, tls)) (he : (r.sign p w s nonce).outcome = .ok e) :
    ∃ context certHash, context.DerivedFrom p identity (nonce.getD (w.nonce s)) ∧ context.txId = e.txId ∧
      (tlsCertHash p tls).outcome = .ok certHash ∧ e.proposal = (r.content s tls).proposal context w.now certHash ∧
      e.signed.proposal = Wire.encode ((r.content s tls).proposal context w.now certHash) := by
  rw [sign_accepted p w s hcheck] at he
  obtain ⟨context, certHash, hcontext, hcertHash, htxId, hproposal, hbytes⟩ := ProposalContent.signed_of_outcome he
  rw [hproposal] at hbytes
  exact ⟨context, certHash, hcontext, htxId.symm, hcertHash, hproposal, hbytes⟩

/-- The extension names the chaincode, and the input does so too. -/
theorem content_extension : (r.content s tls).extension =
    Wire.encode (⟨some ⟨"", r.chaincodeId, r.chaincodeVersion.getD ""⟩⟩ : Message.ChaincodeExtension) := by
  rw [ProposalContent.extension]
  rfl

theorem content_input : (r.content s tls).payload.input = Wire.encode (⟨some ⟨r.chaincodeType.code,
    some ⟨"", r.chaincodeId, r.chaincodeVersion.getD ""⟩, some ⟨invocationArgs r.function r.args, [], r.isInit⟩,
    timeoutCode s.proposalTimeout⟩⟩ : Message.ChaincodeInvocation) := by
  rw [ProposalContent.payload]
  rfl

theorem blockNesting_id_le_iff {name : String} {version : Option String} :
    (blockNesting (Bytes.ofText "") ≤ n ∧ blockNesting (Bytes.ofText name) ≤ n ∧
        blockNesting (Bytes.ofText (version.getD "")) ≤ n) ↔
      blockNesting (Bytes.ofText name) ≤ n ∧ ∀ v ∈ version, blockNesting (Bytes.ofText v) ≤ n := by
  have hempty : Bytes.ofText "" = [] := rfl
  have hnil : blockNesting (Bytes.ofText "") ≤ n := by
    rw [hempty, Wire.blockNesting_nil]
    exact Nat.zero_le n
  cases version with
  | none => simp [hnil]
  | some v => simp [hnil]

/-- How deeply the header seems nested is up to its texts, the certificate and the digest in it. -/
theorem blockNesting_header_le_iff (hmspId : identity.mspId = r.mspId) (hcreator : context.creator = identity.serialize)
    (hlen : (Wire.encode ((r.content s tls).header context now certHash)).length < UInt64.size) :
    blockNesting (Wire.encode ((r.content s tls).header context now certHash)) ≤ n + 4 ↔
      r.HeadWithin identity context certHash n := by
  -- each part is shorter than the header, and so are the parts of the parts
  have hchannelLen := Nat.lt_of_le_of_lt (Header.length_channelHeader_le _) hlen
  have hsignatureLen := Nat.lt_of_le_of_lt (Header.length_signatureHeader_le _) hlen
  rw [Header.blockNesting_le_iff hlen]
  rw [ProposalContent.header, TransactionContext.header_channelHeader] at hchannelLen
  rw [ProposalContent.header, TransactionContext.header_signatureHeader] at hsignatureLen
  have hextensionLen := Nat.lt_of_le_of_lt (Message.ChannelHeader.length_extension_le _) hchannelLen
  have hcreatorLen := Nat.lt_of_le_of_lt (SignatureHeader.length_creator_le _) hsignatureLen
  rw [TransactionContext.channelHeader, content_extension] at hextensionLen
  rw [TransactionContext.signatureHeader, hcreator] at hcreatorLen
  rw [ProposalContent.header, TransactionContext.header_channelHeader, TransactionContext.header_signatureHeader,
    Message.ChannelHeader.blockNesting_le_iff hchannelLen, SignatureHeader.blockNesting_le_iff hsignatureLen,
    TransactionContext.channelHeader, TransactionContext.signatureHeader]
  dsimp only
  rw [content_extension, Message.ChaincodeExtension.blockNesting_le_iff hextensionLen, blockNesting_id_le_iff,
    hcreator, SigningIdentity.serialize, Message.SerializedIdentity.blockNesting_le_iff hcreatorLen, hmspId]
  constructor
  · rintro ⟨⟨hchannelId, htxId, ⟨hchaincodeId, hversion⟩, hcertHash⟩, ⟨hmspId, hcertificate⟩, hnonce⟩
    exact ⟨hchaincodeId, hversion, hmspId, hcertificate, hchannelId, htxId, hnonce, hcertHash⟩
  · intro h
    exact ⟨⟨h.channelId, h.txId, ⟨h.chaincodeId, h.version⟩, h.certHash⟩, ⟨h.mspId, h.certificate⟩, h.nonce⟩

theorem blockNesting_payload_le_iff (hmap : Keyed.Ordered r.transientMap)
    (hlen : (Wire.encode (r.content s tls).payload).length < UInt64.size) :
    blockNesting (Wire.encode (r.content s tls).payload) ≤ n + 4 ↔ r.BodyWithin n := by
  have hinputLen := Nat.lt_of_le_of_lt (ProposalPayload.length_input_le _) hlen
  rw [content_input] at hinputLen
  rw [ProposalPayload.blockNesting_le_iff hmap hlen, content_input,
    Message.ChaincodeInvocation.blockNesting_le_iff hinputLen, blockNesting_id_le_iff]
  constructor
  · rintro ⟨⟨⟨hchaincodeId, hversion⟩, hargs⟩, htransient⟩
    exact ⟨hchaincodeId, hversion, hargs, htransient⟩
  · intro h
    exact ⟨⟨⟨h.chaincodeId, h.version⟩, h.args⟩, h.transientMap⟩

section

variable (hmspId : identity.mspId = r.mspId) (hcreator : context.creator = identity.serialize)
  (hmap : Keyed.Ordered r.transientMap) {signed : SignedProposal}
  (hproposal : signed.proposal = Wire.encode ((r.content s tls).proposal context now certHash))
  (hlen : (Wire.encode signed).length < UInt64.size)
include hmspId hcreator hmap hproposal hlen

/-- A signed proposal has two levels around the header and the payload. -/
theorem blockNesting_signed_le_iff : blockNesting (Wire.encode signed) ≤ n + 6 ↔
    r.HeadWithin identity context certHash n ∧ r.BodyWithin n ∧ blockNesting signed.signature ≤ n + 5 := by
  obtain ⟨hproposalLen, hheaderLen, hpayloadLen⟩ := ProposalContent.short_of_signed hproposal hlen
  have hextension : blockNesting ((r.content s tls).proposal context now certHash).extension ≤ n + 4 := by
    rw [ProposalContent.proposal]
    dsimp only
    rw [Wire.blockNesting_nil]
    exact Nat.zero_le _
  rw [SignedProposal.blockNesting_le_iff hlen, hproposal, Proposal.blockNesting_le_iff hproposalLen,
    ProposalContent.proposal_header, ProposalContent.proposal_payload,
    blockNesting_header_le_iff hmspId hcreator hheaderLen, blockNesting_payload_le_iff hmap hpayloadLen]
  constructor
  · rintro ⟨⟨hhead, hbody, -⟩, hsignature⟩
    exact ⟨hhead, hbody, hsignature⟩
  · rintro ⟨hhead, hbody, hsignature⟩
    exact ⟨⟨hhead, hbody, hextension⟩, hsignature⟩

/-- A transaction is refused for what is read only where the header, or the payload that is then due, seems too deep. -/
theorem signTransaction_eq_encoding_iff {q : Provider} {responses : List ProposalResponse} {fault : EncodingFault} :
    (signTransaction q identity ((r.content s tls).proposal context now certHash) responses).outcome =
        .error (.encoding fault) ↔
      fault = .undecodable (.tooDeep maxNesting) ∧ (¬ r.HeadWithin identity context certHash (maxNesting - 4) ∨
        (∃ response ∈ responses, response.isEndorsed = true) ∧ ¬ r.BodyWithin (maxNesting - 4)) := by
  obtain ⟨-, hheaderLen, hpayloadLen⟩ := ProposalContent.short_of_signed hproposal hlen
  have hheader : blockNesting (Wire.encode ((r.content s tls).header context now certHash)) ≤ maxNesting ↔
      r.HeadWithin identity context certHash (maxNesting - 4) :=
    blockNesting_header_le_iff hmspId hcreator hheaderLen
  have hpayload : blockNesting (Wire.encode (r.content s tls).payload) ≤ maxNesting ↔
      r.BodyWithin (maxNesting - 4) :=
    blockNesting_payload_le_iff hmap hpayloadLen
  rw [← hheader, ← hpayload, ← isSome_responsePayload?]
  -- the header is read first, and the payload only if some response counts
  by_cases hhead : blockNesting (Wire.encode ((r.content s tls).header context now certHash)) ≤ maxNesting
  case neg =>
    have herror : (decodeMessage ((r.content s tls).proposal context now certHash).header : Except _ Header) =
        .error .tooDeep := by
      rw [ProposalContent.proposal_header]
      exact decodeMessage_of_deep (Header.faithful _) hheaderLen hhead
    rw [signTransaction_of_header_error herror, RequestError.error_tooDeep_iff]
    exact ⟨fun h => ⟨h, .inl hhead⟩, And.left⟩
  case pos =>
    have hpasses : Wire.Passes (Wire.encode ((r.content s tls).header context now certHash)) :=
      ⟨hheaderLen, Wire.checkNesting_eq_ok_iff.2 hhead⟩
    rw [ProposalContent.signTransaction_eq hpasses hcreator]
    cases responsePayload? responses with
    | none =>
      constructor
      · intro h
        cases h
      · rintro ⟨-, hdeep | ⟨hnone, -⟩⟩
        · exact absurd hhead hdeep
        · cases hnone
    | some responsePayload =>
      by_cases hbody : blockNesting (Wire.encode (r.content s tls).payload) ≤ maxNesting
      case neg =>
        dsimp only
        rw [decodeMessage_of_deep (ProposalPayload.faithful hmap) hpayloadLen hbody]
        change (.error .tooDeep : Except RequestError SignedEnvelope) = .error (.encoding fault) ↔ _
        rw [RequestError.error_tooDeep_iff]
        exact ⟨fun h => ⟨h, .inr ⟨rfl, hbody⟩⟩, And.left⟩
      case pos =>
        dsimp only
        rw [decodeMessage_of_le (ProposalPayload.faithful hmap) hpayloadLen hbody, Traced.ofExcept_ok_bind]
        constructor
        · intro h
          exact absurd h signPayload_ne_encoding
        · rintro ⟨-, hdeep | ⟨-, hdeep⟩⟩
          · exact absurd hhead hdeep
          · exact absurd hbody hdeep

end

section

variable {a : Bytes} (ha : a.length + 50 < UInt32.size)
include ha

theorem length_encode_input : (Wire.encode (⟨[a], [], false⟩ : Message.ChaincodeInput)).length ≤ a.length + 11 := by
  have hroom : UInt32.size < UInt64.size := by decide
  have hbytes : Wire.encode (⟨[a], [], false⟩ : Message.ChaincodeInput) = Wire.Record.encodeBlock 1 a ++ [] := rfl
  rw [hbytes, List.append_nil]
  exact Wire.Record.length_encodeBlock_le (by decide) (by omega)

theorem length_encode_spec : (Wire.encode (⟨1, some ⟨"", "cc", ""⟩, some ⟨[a], [], false⟩, 0⟩ :
    Message.ChaincodeSpec)).length ≤ a.length + 30 := by
  have hroom : UInt32.size < UInt64.size := by decide
  have hinput := length_encode_input ha
  have hbytes : Wire.encode (⟨1, some ⟨"", "cc", ""⟩, some ⟨[a], [], false⟩, 0⟩ : Message.ChaincodeSpec) =
      Wire.Record.encodeVarint 1 1 ++ (Wire.Record.encodeBlock 2 (Wire.encode (⟨"", "cc", ""⟩ : Message.ChaincodeId)) ++
        (Wire.Record.encodeBlock 3 (Wire.encode (⟨[a], [], false⟩ : Message.ChaincodeInput)) ++ [])) := rfl
  have htype : (Wire.Record.encodeVarint 1 1).length = 2 := by decide +kernel
  have hname : (Wire.Record.encodeBlock 2 (Wire.encode (⟨"", "cc", ""⟩ : Message.ChaincodeId))).length = 6 := by
    decide +kernel
  have hblock : (Wire.Record.encodeBlock 3 (Wire.encode (⟨[a], [], false⟩ : Message.ChaincodeInput))).length ≤ _ :=
    Wire.Record.length_encodeBlock_le (by decide) (by omega)
  rw [hbytes, List.length_append, List.length_append, List.append_nil]
  omega

theorem length_encode_call : (Wire.encode (⟨some ⟨1, some ⟨"", "cc", ""⟩, some ⟨[a], [], false⟩, 0⟩⟩ :
    Message.ChaincodeInvocation)).length ≤ a.length + 41 := by
  have hroom : UInt32.size < UInt64.size := by decide
  have hspec := length_encode_spec ha
  have hbytes : Wire.encode (⟨some ⟨1, some ⟨"", "cc", ""⟩, some ⟨[a], [], false⟩, 0⟩⟩ : Message.ChaincodeInvocation) =
      Wire.Record.encodeBlock 1 (Wire.encode (⟨1, some ⟨"", "cc", ""⟩, some ⟨[a], [], false⟩, 0⟩ :
        Message.ChaincodeSpec)) ++ [] := rfl
  have hblock : (Wire.Record.encodeBlock 1 (Wire.encode (⟨1, some ⟨"", "cc", ""⟩, some ⟨[a], [], false⟩, 0⟩ :
      Message.ChaincodeSpec))).length ≤ _ :=
    Wire.Record.length_encodeBlock_le (by decide) (by omega)
  rw [hbytes, List.append_nil]
  omega

end

/-- A call whose argument is a policy of `k` groups in one another is signed, and its payload is as deep as they are. -/
theorem exists_nested_call {k : Nat} (hk : 22 * k + 100 < UInt32.size) :
    let p : Provider := ⟨fun _ m => .ok (m.take 2), fun _ _ => .ok "0a", fun _ => .error .invalidKey⟩
    let w : Surroundings := ⟨⟨0, 0⟩, fun n => List.replicate n 7⟩
    let i : SigningIdentity := ⟨"Org1MSP", "-----BEGIN C", "-----BEGIN K"⟩
    let r : EndorsementRequest := { EndorsementRequest.ofIdentity i "ch" "cc" with
      args := [Wire.encode (Message.SignaturePolicy.nested k)] }
    r.validate = .ok (i, none) ∧ (∀ n, 1 ≤ n → (r.BodyWithin n ↔ 2 * k ≤ n)) ∧
      ∃ e, (r.sign p w {} none).outcome = .ok e ∧ e.encode.length < UInt64.size := by
  have hroom : UInt32.size < UInt64.size := by decide
  have hnesting : blockNesting (Wire.encode (Message.SignaturePolicy.nested k)) = 2 * k :=
    Message.SignaturePolicy.blockNesting_encode_nested k (by omega)
  have hshort : (Wire.encode (Message.SignaturePolicy.nested k)).length ≤ 22 * k :=
    Message.SignaturePolicy.length_encode_nested k (by omega)
  -- from here on the argument may be any bytes
  generalize Wire.encode (Message.SignaturePolicy.nested k) = a at hnesting hshort
  intro p w i r
  have hi : i.Wrappable := ⟨by decide, by decide, by decide⟩
  have hchannel : Text.isBlankText "ch" = false := by decide
  have hchaincode : Text.isBlankText "cc" = false := by decide
  have hcheck : r.validate = .ok (i, none) :=
    validate_of_identity hi rfl rfl rfl hchannel hchaincode rfl (List.forall_mem_nil _)
  have hrun := sign_accepted p w {} hcheck none
  obtain ⟨e, he⟩ : ∃ e, ((r.content {} none).sign p w {} i none).outcome = .ok e :=
    ProposalContent.exists_signed (fun m => ⟨_, rfl⟩) (fun m => ⟨_, rfl⟩) rfl
  obtain ⟨context, certHash, hcontext, hcertHash, -, hproposal, hbytes⟩ := ProposalContent.signed_of_outcome he
  refine ⟨hcheck, ?_, e, ?_, ?_⟩
  · intro n hn
    constructor
    · intro h
      rw [← hnesting]
      exact h.args a (List.mem_singleton_self a)
    · intro h
      have hname : blockNesting (Bytes.ofText "cc") ≤ n := Nat.le_trans (Wire.blockNesting_le_half _) hn
      have harg : ∀ b ∈ [a], blockNesting b ≤ n := by
        rw [List.forall_mem_singleton, hnesting]
        exact h
      exact ⟨hname, fun v hv => absurd hv (Option.not_mem_none v), harg, List.forall_mem_nil _⟩
  · rw [hrun]
    exact he
  · -- the parts are known, but for the argument
    obtain rfl := hcontext.eq rfl
    obtain rfl : [] = certHash := Except.ok.inj hcertHash
    rw [hproposal] at hbytes
    apply ProposalContent.signed_short hbytes
    · change (Wire.encode (((ofIdentity i "ch" "cc").content {} none).header _ _ [])).length < UInt32.size
      decide +kernel
    · have hinput : (r.content {} none).payload.input.length ≤ a.length + 41 := by
        rw [content_input]
        exact length_encode_call (by omega)
      have hpayload : (Wire.encode (r.content {} none).payload).length ≤
          (r.content {} none).payload.input.length + 11 :=
        ProposalPayload.length_encode_le (Nat.lt_of_le_of_lt hinput (by omega))
      omega
    · have hsignature := ((Follows.signContent _ none).signed e he).2.2
      rw [← Except.ok.inj hsignature]
      exact Nat.lt_of_le_of_lt (List.length_take_le 2 _) (by decide)

/-- Whether one can go on with a proposal that was signed. It is reported exactly if each part of it is within the levels
that are left where it stands. Whoever made it is refused the transaction for what is read exactly if the header, or the
payload where a response counts, is not within the limit by itself, which leaves each part two levels more. What is refused
is refused as too deep. -/
theorem continues_iff {r : EndorsementRequest} (hordered : Keyed.Ordered r.transientMap) {p : Provider}
    {w : Surroundings} {s : Settings} {nonce : Option Bytes} {e : EndorsementProposal}
    (he : (r.sign p w s nonce).outcome = .ok e) (hlen : e.encode.length < UInt64.size) :
    ∃ identity tls context certHash, r.validate = .ok (identity, tls) ∧
      context.DerivedFrom p identity (nonce.getD (w.nonce s)) ∧ context.txId = e.txId ∧
      (tlsCertHash p tls).outcome = .ok certHash ∧
      ((∃ view, ProposalView.decode e.encode = .ok view) ↔
        r.HeadWithin identity context certHash (maxNesting - 6) ∧ r.BodyWithin (maxNesting - 6) ∧
          blockNesting e.signed.signature ≤ maxNesting - 1) ∧
      (∀ error, ProposalView.decode e.encode = .error error → error = .tooDeep) ∧
      ∀ (q : Provider) (responses : List ProposalResponse) (fault : EncodingFault),
        (signTransaction q identity e.proposal responses).outcome = .error (.encoding fault) ↔
          fault = .undecodable (.tooDeep maxNesting) ∧ (¬ r.HeadWithin identity context certHash (maxNesting - 4) ∨
            (∃ response ∈ responses, response.isEndorsed = true) ∧ ¬ r.BodyWithin (maxNesting - 4)) := by
  obtain ⟨identity, tls, hcheck, -⟩ := sign_of_outcome he
  obtain ⟨hmspId, -⟩ := validate_eq_ok hcheck
  obtain ⟨context, certHash, hcontext, htxId, hcertHash, hproposal, hbytes⟩ := signed_of_outcome hcheck he
  -- one measure decides whether the proposal is shown, for header, payload and signature at once
  have hmeasure : blockNesting e.encode ≤ maxNesting ↔ r.HeadWithin identity context certHash (maxNesting - 6) ∧
      r.BodyWithin (maxNesting - 6) ∧ blockNesting e.signed.signature ≤ maxNesting - 1 :=
    blockNesting_signed_le_iff hmspId hcontext.creator hordered hbytes hlen
  have hreported (hfits : blockNesting e.encode ≤ maxNesting) :
      ∃ view, ProposalView.decode e.encode = .ok view := by
    have hpasses : Wire.Passes e.encode := ⟨hlen, Wire.checkNesting_eq_ok_iff.2 hfits⟩
    exact ⟨_, (ProposalView.decode_content hcontext.creator hordered rfl List.Pairwise.nil hbytes hpasses).2⟩
  have hrefused (hdeep : ¬ blockNesting e.encode ≤ maxNesting) : ProposalView.decode e.encode = .error .tooDeep :=
    ProposalView.decode_of_deep hlen hdeep
  refine ⟨identity, tls, context, certHash, hcheck, hcontext, htxId, hcertHash, ?reported, ?refused, ?committed⟩
  case reported =>
    rw [← hmeasure]
    constructor
    · intro hview
      obtain ⟨view, hview⟩ := hview
      by_cases hfits : blockNesting e.encode ≤ maxNesting
      · exact hfits
      · rw [hrefused hfits] at hview
        cases hview
    · exact hreported
  case refused =>
    intro error herror
    by_cases hfits : blockNesting e.encode ≤ maxNesting
    · obtain ⟨view, hview⟩ := hreported hfits
      rw [hview] at herror
      cases herror
    · rw [hrefused hfits] at herror
      exact (Except.error.inj herror).symm
  case committed =>
    intro q responses fault
    rw [hproposal]
    exact signTransaction_eq_encoding_iff hmspId hcontext.creator hordered hbytes hlen

theorem continues_iff_between :
    let p : Provider := ⟨fun _ m => .ok (m.take 2), fun _ _ => .ok "0a", fun _ => .error .invalidKey⟩
    let w : Surroundings := ⟨⟨0, 0⟩, fun n => List.replicate n 7⟩
    let i : SigningIdentity := ⟨"Org1MSP", "-----BEGIN C", "-----BEGIN K"⟩
    -- with 2196 levels, two too many for being reported, and none for being sent for ordering
    let r : EndorsementRequest := { EndorsementRequest.ofIdentity i "ch" "cc" with
      args := [Wire.encode (Message.SignaturePolicy.nested 1098)] }
    ∃ e, (r.sign p w {} none).outcome = .ok e ∧ ProposalView.decode e.encode = .error .tooDeep ∧
      ∀ responses fault, (signTransaction p i e.proposal responses).outcome ≠ .error (.encoding fault) := by
  intro p w i r
  obtain ⟨hcheck, hdepth, e, he, hlen⟩ := exists_nested_call (k := 1098) (by decide)
  obtain ⟨identity, tls, context, certHash, hcheck', hcontext, -, hcertHash, hreported, hrefused, hcommitted⟩ :=
    continues_iff List.Pairwise.nil he hlen
  -- there is no choice in who signs, or in what goes into the header
  obtain ⟨rfl, rfl⟩ := Prod.mk.inj (Except.ok.inj (hcheck.symm.trans hcheck'))
  obtain rfl := hcontext.eq rfl
  obtain rfl : [] = certHash := Except.ok.inj hcertHash
  refine ⟨e, he, ?_, ?_⟩
  · cases hview : ProposalView.decode e.encode with
    | error error => rw [hrefused error hview]
    | ok view =>
      have hbody := (hreported.1 ⟨view, hview⟩).2.1
      exact absurd ((hdepth _ (by decide)).1 hbody) (by decide)
  · intro responses fault herror
    have hsmall {b : Bytes} {n : Nat} (h : b.length / 2 ≤ n) : blockNesting b ≤ n :=
      Nat.le_trans (Wire.blockNesting_le_half b) h
    have hhead : r.HeadWithin i ⟨List.replicate 24 7, i.serialize, "0a"⟩ [] (maxNesting - 4) := by
      refine ⟨hsmall (by decide), ?_, hsmall (by decide), hsmall (by decide), hsmall (by decide), hsmall (by decide),
        hsmall (by decide), hsmall (by decide)⟩
      exact fun v hv => absurd hv (Option.not_mem_none v)
    have hbody : r.BodyWithin (maxNesting - 4) := (hdepth _ (by decide)).2 (by decide)
    obtain ⟨-, hdeep | ⟨-, hdeep⟩⟩ := (hcommitted p responses fault).1 herror
    · exact hdeep hhead
    · exact hdeep hbody

/-- A call whose argument is a policy of 1099 groups in one another is signed. Then it can neither be reported nor, when it
is endorsed, be sent for ordering. -/
theorem signed_not_continued :
    let p : Provider := ⟨fun _ m => .ok (m.take 2), fun _ _ => .ok "0a", fun _ => .error .invalidKey⟩
    let w : Surroundings := ⟨⟨0, 0⟩, fun n => List.replicate n 7⟩
    let i : SigningIdentity := ⟨"Org1MSP", "-----BEGIN C", "-----BEGIN K"⟩
    let r : EndorsementRequest := { EndorsementRequest.ofIdentity i "ch" "cc" with
      args := [Wire.encode (Message.SignaturePolicy.nested 1099)] }
    let endorsed : ProposalResponse := ⟨1, none, some ⟨200, "", []⟩, [1], some ⟨[1], [2]⟩⟩
    r.validate = .ok (i, none) ∧ ∃ e, (r.sign p w {} none).outcome = .ok e ∧
      ProposalView.decode e.encode = .error .tooDeep ∧
      (signTransaction p i e.proposal [endorsed]).outcome = .error .tooDeep := by
  intro p w i r endorsed
  obtain ⟨hcheck, hdepth, e, he, hlen⟩ := exists_nested_call (k := 1099) (by decide)
  have hbody {n : Nat} (hn : 1 ≤ n) (hdeep : ¬ 2 * 1099 ≤ n) : ¬ r.BodyWithin n := by
    rw [hdepth n hn]
    exact hdeep
  obtain ⟨context, certHash, hcontext, -, -, hproposal, hbytes⟩ := signed_of_outcome hcheck he
  refine ⟨hcheck, e, he, ?_, ?_⟩
  · have hmeasure : blockNesting e.encode ≤ maxNesting ↔ _ ∧ r.BodyWithin (maxNesting - 6) ∧ _ :=
      blockNesting_signed_le_iff rfl hcontext.creator List.Pairwise.nil hbytes hlen
    refine ProposalView.decode_of_deep hlen ?_
    intro hle
    exact hbody (by decide) (by decide) (hmeasure.1 hle).2.1
  · rw [hproposal]
    exact (signTransaction_eq_encoding_iff rfl hcontext.creator List.Pairwise.nil hbytes hlen).2
      ⟨rfl, .inr ⟨⟨endorsed, List.mem_singleton_self _, rfl⟩, hbody (by decide) (by decide)⟩⟩

end EndorsementRequest

end Fabric

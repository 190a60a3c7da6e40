import Fabric.Proofs.Request.Proposal

namespace Fabric

open Message (ChannelHeader Header Proposal SignatureHeader)

namespace Message

theorem ChannelHeader.encode_ne_nil {header : ChannelHeader}
    (htype : (Wire.Value.ofInt32 header.type).isDefault = false) : Wire.encode header ≠ [] := by
  have hmem : (1, Wire.Value.ofInt32 header.type) ∈ Wire.Codec.toFields header := by
    unfold instCodecChannelHeader
    simp [Wire.Fields.putInt32, Wire.Fields.put, htype]
  exact mt Wire.Value.encodeFields_eq_nil_iff.1 (List.ne_nil_of_mem hmem)

theorem SignatureHeader.nonce_eq_of_encode {creator m n : Bytes}
    (h : Wire.encode (⟨creator, m⟩ : SignatureHeader) = Wire.encode (⟨creator, n⟩ : SignatureHeader)) : m = n := by
  have hencode (nonce : Bytes) : Wire.encode (⟨creator, nonce⟩ : SignatureHeader) =
      Wire.Value.encodeFields (Wire.Fields.putBytes 1 creator) ++
        Wire.Value.encodeFields (Wire.Fields.putBytes 2 nonce) :=
    Wire.Value.encodeFields_append _ _
  rw [hencode, hencode] at h
  exact Wire.Value.encodeFields_putBytes_injective (List.append_cancel_left h)

/-- A channel header that is there says where it ends, and so the other header is what is after it. -/
theorem Header.signatureHeader_eq_of_encode {channel channel' signature signature' : Bytes} (hchannel : channel ≠ [])
    (hchannel' : channel' ≠ [])
    (h : Wire.encode (⟨channel, signature⟩ : Header) = Wire.encode (⟨channel', signature'⟩ : Header)) :
    signature = signature' := by
  have hencode {x : Bytes} (hx : x ≠ []) (y : Bytes) : Wire.encode (⟨x, y⟩ : Header) =
      Wire.Record.encodeBlock 1 x ++ Wire.Value.encodeFields (Wire.Fields.putBytes 2 y) := by
    cases x with
    | nil => exact absurd rfl hx
    | cons first rest => rfl
  -- were one of the two left out, its place would be taken by the other
  rw [hencode hchannel, hencode hchannel'] at h
  exact Wire.Value.encodeFields_putBytes_injective (Wire.Record.encodeBlock_append_injective h).2

theorem Proposal.header_eq_of_encode {a b payload extension : Bytes}
    (h : Wire.encode (⟨a, payload, extension⟩ : Proposal) = Wire.encode (⟨b, payload, extension⟩ : Proposal)) :
    a = b := by
  have hencode (header : Bytes) : Wire.encode (⟨header, payload, extension⟩ : Proposal) =
      Wire.Value.encodeFields (Wire.Fields.putBytes 1 header) ++
        Wire.Value.encodeFields (Wire.Fields.putBytes 2 payload) ++
          Wire.Value.encodeFields (Wire.Fields.putBytes 3 extension) := by
    rw [← Wire.Value.encodeFields_append, ← Wire.Value.encodeFields_append]
    rfl
  rw [hencode, hencode] at h
  exact Wire.Value.encodeFields_putBytes_injective (List.append_cancel_right (List.append_cancel_right h))

def Proposal.HeadedBy (proposal : Proposal) (channel : ChannelHeader) (signature : SignatureHeader) : Prop :=
  proposal.header = Wire.encode (⟨Wire.encode channel, Wire.encode signature⟩ : Header)

/-- Of two proposals that are written alike, the creator's headers are written alike. -/
theorem Proposal.HeadedBy.signature_eq {a b : Proposal} {channel channel' : ChannelHeader}
    {signature signature' : SignatureHeader} (ha : a.HeadedBy channel signature) (hb : b.HeadedBy channel' signature')
    (htype : (Wire.Value.ofInt32 channel.type).isDefault = false)
    (htype' : (Wire.Value.ofInt32 channel'.type).isDefault = false) (hpayload : a.payload = b.payload)
    (hextension : a.extension = b.extension) (h : Wire.encode a = Wire.encode b) :
    Wire.encode signature = Wire.encode signature' := by
  obtain ⟨header, payload, extension⟩ := a
  obtain ⟨header', payload', extension'⟩ := b
  obtain rfl : payload = payload' := hpayload
  obtain rfl : extension = extension' := hextension
  obtain rfl := Proposal.header_eq_of_encode h
  have hchannel := ChannelHeader.encode_ne_nil htype
  have hchannel' := ChannelHeader.encode_ne_nil htype'
  exact Header.signatureHeader_eq_of_encode hchannel hchannel' (ha.symm.trans hb)

end Message

/-- What a run for some content comes to, in the context of the nonce that it uses. -/
theorem ProposalContent.headed_of_outcome {c : ProposalContent} {p : Provider} {w : Surroundings} {s : Settings}
    {identity : SigningIdentity} {nonce : Option Bytes} {e : EndorsementProposal}
    (h : (c.sign p w s identity nonce).outcome = .ok e) :
    ∃ channel : ChannelHeader,
      e.proposal.HeadedBy channel ⟨identity.serialize, nonce.getD (w.nonce s)⟩ ∧
      channel.type = HeaderType.endorserTransaction.code ∧ channel.extension = c.extension ∧
      e.proposal.payload = Wire.encode c.payload ∧ e.proposal.extension = [] ∧
      e.signed.proposal = Wire.encode e.proposal ∧
      p.digest .sha256 (nonce.getD (w.nonce s) ++ identity.serialize) = .ok e.txId := by
  obtain ⟨context, certHash, hcontext, -, htxId, hproposal, hbytes⟩ := signed_of_outcome h
  refine ⟨context.channelHeader .endorserTransaction w.now c.channelId c.extension certHash, ?_, rfl, rfl, ?_, ?_,
    hbytes, ?_⟩
  · rw [hproposal, Proposal.HeadedBy, proposal_header, ← hcontext.creator, ← hcontext.used]
    rfl
  · rw [hproposal, proposal_payload]
  · rw [hproposal, proposal]
  · rw [htxId]
    exact hcontext.digest

/-- Two runs for one request, which hash alike, give the peers the same to simulate. Their proposals differ as their
nonces do, and they have one id only if what is hashed, which differs too, has one hash. -/
theorem EndorsementRequest.nonces_separate {r : EndorsementRequest} {s : Settings} {p q : Provider}
    {w v : Surroundings} {nonce nonce' : Option Bytes} {m n : Bytes} {a b : EndorsementProposal}
    (hdigest : q.digest = p.digest) (hm : nonce.getD (w.nonce s) = m) (hn : nonce'.getD (v.nonce s) = n)
    (ha : (r.sign p w s nonce).outcome = .ok a) (hb : (r.sign q v s nonce').outcome = .ok b) :
    ∃ identity tls channel channel', r.validate = .ok (identity, tls) ∧
      a.proposal.HeadedBy channel ⟨identity.serialize, m⟩ ∧ b.proposal.HeadedBy channel' ⟨identity.serialize, n⟩ ∧
      a.proposal.payload = b.proposal.payload ∧ channel.extension = channel'.extension ∧
      (m ≠ n → a.signed.proposal ≠ b.signed.proposal ∧ m ++ identity.serialize ≠ n ++ identity.serialize) ∧
      (a.txId = b.txId ↔
        p.digest .sha256 (m ++ identity.serialize) = p.digest .sha256 (n ++ identity.serialize)) ∧
      (m = n → a.txId = b.txId) := by
  subst hm hn
  obtain ⟨identity, tls, hcheck, ha⟩ := sign_of_outcome ha
  obtain ⟨identity', tls', hcheck', hb⟩ := sign_of_outcome hb
  cases hcheck.symm.trans hcheck'
  obtain ⟨channel, hheaded, htype, hextension, hpayload, hrest, hbytes, htxId⟩ :=
    ProposalContent.headed_of_outcome ha
  obtain ⟨channel', hheaded', htype', hextension', hpayload', hrest', hbytes', htxId'⟩ :=
    ProposalContent.headed_of_outcome hb
  have hdefault {type : Int32} (h : type = HeaderType.endorserTransaction.code) :
      (Wire.Value.ofInt32 type).isDefault = false := by
    rw [h]
    decide
  have hsame := hpayload.trans hpayload'.symm
  have hids : a.txId = b.txId ↔ p.digest .sha256 (nonce.getD (w.nonce s) ++ identity.serialize) =
      p.digest .sha256 (nonce'.getD (v.nonce s) ++ identity.serialize) := by
    rw [hdigest] at htxId'
    rw [htxId, htxId', Except.ok.injEq]
  refine ⟨identity, tls, channel, channel', hcheck, hheaded, hheaded', hsame, hextension.trans hextension'.symm, ?_,
    hids, ?_⟩
  · intro hne
    refine ⟨fun h => ?_, mt List.append_cancel_right hne⟩
    rw [hbytes, hbytes'] at h
    -- equal bytes would have equal signature headers, and these hold the nonces
    have hsignature := hheaded.signature_eq hheaded' (hdefault htype) (hdefault htype') hsame
      (hrest.trans hrest'.symm) h
    exact hne (SignatureHeader.nonce_eq_of_encode hsignature)
  · intro heq
    rw [hids, heq]

theorem EndorsementRequest.nonces_separate_random :
    let p : Provider := ⟨fun _ m => .ok (m.take 2), fun _ m => .ok (Bytes.toHex (m.take 2)),
      fun _ => .error .invalidKey⟩
    let w : Surroundings := ⟨⟨0, 0⟩, fun n => List.replicate n 7⟩
    let v : Surroundings := ⟨⟨5, 1⟩, fun n => List.replicate n 8⟩
    let r : EndorsementRequest :=
      { mspId := "Org1MSP", certificate := "-----BEGIN C", key := "-----BEGIN K", channelId := "ch",
        chaincodeId := "cc", transientMap := [("k", [2])] }
    ∃ a b, (r.sign p w {} none).outcome = .ok a ∧ (r.sign p v {} (some [9])).outcome = .ok b ∧
      a.proposal.payload = b.proposal.payload ∧ a.signed.proposal ≠ b.signed.proposal ∧ a.txId ≠ b.txId := by
  intro p w v r
  have hruns : ((r.sign p w {} none).outcome.toOption.any fun a => decide (a.txId = "0707")) = true ∧
      ((r.sign p v {} (some [9])).outcome.toOption.any fun b => decide (b.txId = "090a")) = true := by
    decide +kernel
  obtain ⟨a, ha, hid⟩ := exists_ok_of_any hruns.1
  obtain ⟨b, hb, hid'⟩ := exists_ok_of_any hruns.2
  obtain ⟨_, _, _, _, -, -, -, hpayload, -, hdiffer, -, -⟩ := nonces_separate rfl rfl rfl ha hb
  refine ⟨a, b, ha, hb, hpayload, (hdiffer (by decide)).1, ?_⟩
  rw [hid, hid']
  decide

end Fabric

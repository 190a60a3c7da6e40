import Fabric.Proofs.Text.Order
import Fabric.Proofs.View.Transaction

namespace Fabric

open Message (ChaincodeInput ChannelHeader Header Proposal ProposalPayload SerializedIdentity SignatureHeader
  SignedProposal)
open Wire (Passes)

/-- Digits stand for no bytes only where there are none. -/
theorem Bytes.eq_empty_of_ofHex? {text : String} (h : Bytes.ofHex? text = some []) : text = "" := by
  rw [← String.toList_eq_nil_iff]
  rw [Bytes.ofHex?] at h
  cases hdigits : text.toList with
  | nil => rfl
  | cons hi rest =>
    rw [hdigits] at h
    cases rest with
    | nil => cases h
    | cons lo rest =>
      simp only [Bytes.ofHexDigits?] at h
      split at h
      · cases h
      · cases h

section

variable {p : Provider} (hdigest : ∀ m text, p.digest .sha256 m = .ok text → text ≠ "")
include hdigest

theorem digestBytes_ne_nil {m digest : Bytes} (h : (Traced.digestBytes p m).outcome = .ok digest) : digest ≠ [] := by
  obtain ⟨text, htext, h⟩ := Traced.outcome_bind_eq_ok_iff.1 h
  have hne : text ≠ "" := hdigest m text (Traced.outcome_digest_eq_ok_iff.1 htext)
  intro hnil
  subst hnil
  cases hbytes : Bytes.ofHex? text with
  | none =>
    rw [hbytes] at h
    cases h
  | some bytes =>
    rw [hbytes] at h
    cases h
    exact hne (Bytes.eq_empty_of_ofHex? hbytes)

/-- Where digests are not empty, there is one of a certificate exactly if there is a certificate. -/
theorem not_isEmpty_tlsCertHash {tls : Option String} {certHash : Bytes}
    (h : (tlsCertHash p tls).outcome = .ok certHash) : (!certHash.isEmpty) = tls.isSome := by
  cases tls with
  | none =>
    cases h
    rfl
  | some pem =>
    obtain ⟨der, -, h⟩ := Traced.outcome_bind_eq_ok_iff.1 h
    have hne : certHash ≠ [] := digestBytes_ne_nil hdigest h
    rw [Option.isSome_some, Bool.not_eq_true', List.isEmpty_eq_false_iff]
    exact hne

end

/-- The name of the function, if there is one, and the arguments after it. -/
theorem invocationArgs_eq (function : Option String) (args : List Bytes) :
    invocationArgs function args = ((function.filter (· ≠ "")).map Bytes.ofText).toList ++ args := by
  cases function with
  | none => rfl
  | some name =>
    rw [invocationArgs, Option.filter_some]
    by_cases h : name = ""
    · subst h
      rfl
    · rw [if_neg (by rwa [String.isEmpty_iff]), if_pos (decide_eq_true h)]
      rfl

namespace ProposalView

/-- A signed proposal can be shown if all that stands in it can be read. -/
theorem decode_eq {b : Bytes} {signed : SignedProposal} {proposal : Proposal} {header : Header}
    {channelHeader : ChannelHeader} {creatorMspId : String} {payload : ProposalPayload} {call : CallView}
    (hsigned : Wire.decode b = .ok signed) (hproposal : Wire.decode signed.proposal = .ok proposal)
    (hheader : Wire.decode proposal.header = .ok header)
    (hparts : headerParts header = .ok (channelHeader, creatorMspId))
    (hpayload : Wire.decode proposal.payload = .ok payload) (hcall : CallView.ofInput payload.input = .ok call) :
    decode b = .ok ⟨channelHeader.txId, channelHeader.channelId, headerTypeText channelHeader.type, creatorMspId, call,
      payload.transientMap.map (·.1), !channelHeader.tlsCertHash.isEmpty⟩ := by
  simp only [decode, decodeMessage_eq_ok_iff.2 hsigned, decodeMessage_eq_ok_iff.2 hproposal,
    decodeMessage_eq_ok_iff.2 hheader, hparts, decodeMessage_eq_ok_iff.2 hpayload, hcall, bind, Except.bind]
  rfl

/-- The proposal of an identity is reported with what stands in it. -/
theorem decode_content {c : ProposalContent} {context : TransactionContext} {now : Message.Timestamp}
    {certHash : Bytes} {identity : SigningIdentity} {name : String} {version : Option String} {type : ChaincodeType}
    {input : ChaincodeInput} {timeout : UInt32} {signed : SignedProposal}
    (hcreator : context.creator = identity.serialize) (hmap : Keyed.Ordered c.transientMap)
    (hspec : c.spec = chaincodeSpec name version type input timeout) (hinput : Keyed.Ordered input.decorations)
    (hproposal : signed.proposal = Wire.encode (c.proposal context now certHash)) (h : Passes (Wire.encode signed)) :
    Wire.decode signed.proposal = .ok (c.proposal context now certHash) ∧
      decode (Wire.encode signed) = .ok ⟨context.txId, c.channelId, HeaderType.endorserTransaction.name,
        identity.mspId, ⟨name, input.args, input.isInit⟩, c.transientMap.map (·.1), !certHash.isEmpty⟩ := by
  have hpasses : Passes (Wire.encode (c.proposal context now certHash)) := by
    rw [← hproposal]
    exact SignedProposal.passes_proposal h
  have hread := ProposalContent.committable hpasses hcreator hmap
  have hproposalRead : Wire.decode signed.proposal = .ok (c.proposal context now certHash) := by
    rw [hproposal]
    exact (Proposal.faithful _).decode_of_passes hpasses
  refine ⟨hproposalRead, ?_⟩
  exact decode_eq (signed.faithful.decode_of_passes h) hproposalRead hread.headerRead
    (ProposalContent.headerParts_header hpasses hcreator) hread.payloadRead
    (ProposalContent.ofInput_payload hpasses hmap hspec hinput)

/-- A signed proposal says what was asked for: its id, the channel, who asks, the call with the name of the function,
if there is one, before the arguments, and the keys of the transient data in order of their bytes. -/
theorem decode_requested {r : EndorsementRequest} (hordered : Keyed.Ordered r.transientMap) {p : Provider}
    (hdigest : ∀ m text, p.digest .sha256 m = .ok text → text ≠ "") {w : Surroundings} {s : Settings}
    {nonce : Option Bytes} {e : EndorsementProposal} (he : (r.sign p w s nonce).outcome = .ok e)
    (h : Passes e.encode) :
    decode e.encode = .ok
        { txId := e.txId
          channelId := r.channelId
          headerType := "EndorserTransaction"
          creatorMspId := r.mspId
          call := ⟨r.chaincodeId, ((r.function.filter (· ≠ "")).map Bytes.ofText).toList ++ r.args, r.isInit⟩
          transientKeys := r.transientMap.map (·.1)
          hasTlsCertHash := r.tlsCertificate.isSome } ∧
      (r.transientMap.map (·.1)).Pairwise (fun k k' => Bytes.ofText k < Bytes.ofText k') ∧
      Wire.decode e.signed.proposal = .ok e.proposal := by
  obtain ⟨identity, tls, hcheck, he⟩ := EndorsementRequest.sign_of_outcome he
  obtain ⟨hmspId, htls⟩ := EndorsementRequest.validate_eq_ok hcheck
  obtain ⟨context, certHash, hcontext, hcertHash, htxId, hproposal, hbytes⟩ := ProposalContent.signed_of_outcome he
  have hhash : (!certHash.isEmpty) = r.tlsCertificate.isSome := by
    rw [← htls]
    exact not_isEmpty_tlsCertHash hdigest hcertHash
  rw [hproposal] at hbytes ⊢
  obtain ⟨hread, hview⟩ := decode_content hcontext.creator hordered rfl List.Pairwise.nil hbytes h
  refine ⟨?_, hordered.pairwise_ofText, hread⟩
  rw [← invocationArgs_eq, ← hmspId, ← hhash, htxId]
  exact hview

theorem decode_requested_put :
    let p : Provider := ⟨fun _ m => .ok (1 :: m.take 2), fun _ _ => .ok "0a", fun pem => .ok (Bytes.ofText pem)⟩
    let w : Surroundings := ⟨⟨0, 0⟩, fun n => List.replicate n 7⟩
    let i : SigningIdentity := ⟨"Org1MSP", " -----BEGIN C", "-----BEGIN K"⟩
    let r : EndorsementRequest := { EndorsementRequest.ofIdentity i "ch" "cc" with
      tlsCertificate := some (PemText.wrap "-----BEGIN T"), function := some "put", args := [[1], [], [255, 1]],
      transientMap := [("k", [2]), ("\u00e9", []), ("\u20ac", [10, 0])], isInit := true }
    ∃ e, (r.sign p w {} (some [5])).outcome = .ok e ∧ Passes e.encode ∧
      decode e.encode = .ok ⟨"0a", "ch", "EndorserTransaction", "Org1MSP",
        ⟨"cc", [Bytes.ofText "put", [1], [], [255, 1]], true⟩, ["k", "\u00e9", "\u20ac"], true⟩ ∧
      Wire.decode e.signed.proposal = .ok e.proposal := by
  intro p w i r
  have hordered : Keyed.Ordered r.transientMap := by decide
  have hdigest (m : Bytes) (text : String) (h : p.digest .sha256 m = .ok text) : text ≠ "" := by
    rw [← Except.ok.inj h]
    decide
  have hfits : ((r.sign p w {} (some [5])).outcome.toOption.any fun e =>
      decide (e.txId = "0a" ∧ e.encode.length < UInt64.size ∧
        Wire.nestedWithin Wire.maxNesting e.encode = true)) = true := by
    decide +kernel
  obtain ⟨e, he, htxId, hshort, hwithin⟩ := exists_ok_of_any hfits
  have hpasses : Passes e.encode := .of_nestedWithin hshort hwithin
  obtain ⟨hview, -, hproposal⟩ := decode_requested hordered hdigest he hpasses
  rw [htxId] at hview
  exact ⟨e, he, hpasses, hview, hproposal⟩

end ProposalView

end Fabric

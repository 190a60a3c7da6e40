import Fabric.Proofs.View.Transaction

namespace Fabric

open Message (BytesMap ChaincodeInput Header ProposalResponse SignatureHeader)
open Wire (Passes)

/-- The transaction for a proposal is reported with what the proposal asks for. -/
theorem TransactionView.decode_committed {c : ProposalContent} {context : TransactionContext}
    {now : Message.Timestamp} {certHash : Bytes} {identity : SigningIdentity} {name : String}
    {version : Option String} {type : ChaincodeType} {input : ChaincodeInput} {timeout : UInt32} {p : Provider}
    {responses : List ProposalResponse} {e : SignedEnvelope} (hcreator : context.creator = identity.serialize)
    (hmap : Keyed.Ordered c.transientMap) (hspec : c.spec = chaincodeSpec name version type input timeout)
    (hinput : Keyed.Ordered input.decorations) (hproposal : Passes (Wire.encode (c.proposal context now certHash)))
    (he : (signTransaction p identity (c.proposal context now certHash) responses).outcome = .ok e)
    (hpasses : Passes e.encode) :
    ∃ view, TransactionView.decode e.encode = .ok view ∧ view.txId = context.txId ∧ view.channelId = c.channelId ∧
      view.call = ⟨name, input.args, input.isInit⟩ ∧ view.endorsements = responses.countP (·.isEndorsed) ∧
      view.transientKeys = [] := by
  have hread := ProposalContent.committable hproposal hcreator hmap
  obtain ⟨header, channelHeader, payload, first, hread', -, hpayload, -⟩ := signTransaction_of_outcome he
  obtain ⟨rfl, rfl, rfl⟩ := hread.unique hread'
  obtain ⟨data, action, proposalPayload, henvelope, hpayload, hdata, haction, hproposalPayload⟩ :=
    decode_transaction hpasses hpayload
  have hheader := ProposalContent.headerParts_header hproposal hcreator
  have hcall := ProposalContent.ofInput_payload hproposal hmap hspec hinput
  exact ⟨_, TransactionView.decode_eq henvelope hpayload hheader hdata haction hproposalPayload hcall, rfl, rfl, rfl,
    length_filterMap_endorsement? responses, rfl⟩

/-- From the request to the transaction. A request of an identity leads to a proposal with the identity as its creator;
the identity can commit the proposal exactly if some response counts, and the transaction then has the id of the
proposal, and says which chaincode was called with which arguments and how many responses counted. -/
theorem endorse_then_commit {identity : SigningIdentity} (hidentity : identity.Wrappable) {channelId chaincodeId : String}
    (hchannel : Text.isBlankText channelId = false) (hchaincode : Text.isBlankText chaincodeId = false)
    {transientMap : BytesMap} (hordered : Keyed.Ordered transientMap) (hkeys : ∀ e ∈ transientMap, e.1 ≠ "")
    {p : Provider} (hdigest : ∀ m, ∃ text, p.digest .sha256 m = .ok text)
    (hsign : ∀ m, ∃ signature, p.sign identity.key m = .ok signature) (version : Option String) (type : ChaincodeType)
    (function : Option String) (args : List Bytes) (isInit : Bool) (w : Surroundings) (s : Settings)
    (nonce : Option Bytes) :
    ∃ e, (EndorsementRequest.sign { EndorsementRequest.ofIdentity identity channelId chaincodeId with
          chaincodeVersion := version, chaincodeType := type, function := function, args := args,
          transientMap := transientMap, isInit := isInit } p w s nonce).outcome = .ok e ∧
      e.signed.proposal = Wire.encode e.proposal ∧
      (Passes (Wire.encode e.proposal) →
        (∃ header signatureHeader, Wire.decode e.proposal.header = .ok (header : Header) ∧
          Wire.decode header.signatureHeader = .ok (signatureHeader : SignatureHeader) ∧
          signatureHeader.creator = identity.serialize) ∧
        ∀ responses : List ProposalResponse,
          ((∃ t, (signTransaction p identity e.proposal responses).outcome = .ok t) ↔
            ∃ r ∈ responses, r.isEndorsed = true) ∧
          ((∀ r ∈ responses, r.isEndorsed = false) →
            (signTransaction p identity e.proposal responses).outcome =
              .error (.noSuccessfulEndorsements responses.length)) ∧
          ∀ t, (signTransaction p identity e.proposal responses).outcome = .ok t → t.txId = e.txId ∧
            (Passes t.encode → ∃ view, TransactionView.decode t.encode = .ok view ∧ view.txId = e.txId ∧
              view.channelId = channelId ∧ view.call = ⟨chaincodeId, invocationArgs function args, isInit⟩ ∧
              view.endorsements = responses.countP (·.isEndorsed) ∧ view.transientKeys = [])) := by
  let r : EndorsementRequest := { EndorsementRequest.ofIdentity identity channelId chaincodeId with
    chaincodeVersion := version, chaincodeType := type, function := function, args := args,
    transientMap := transientMap, isInit := isInit }
  have hcheck : r.validate = .ok (identity, none) :=
    EndorsementRequest.validate_of_identity hidentity rfl rfl rfl hchannel hchaincode rfl hkeys
  have hrun := EndorsementRequest.sign_accepted p w s hcheck nonce
  let c : ProposalContent := ⟨channelId, r.spec s, transientMap, none⟩
  obtain ⟨e, he⟩ : ∃ e, (c.sign p w s identity nonce).outcome = .ok e :=
    ProposalContent.exists_signed hdigest hsign rfl
  obtain ⟨context, certHash, hcreator, htxId, hproposal, hbytes⟩ := ProposalContent.sign_of_outcome he
  refine ⟨e, ?_, hbytes, ?_⟩
  · rw [hrun]
    exact he
  -- from here on the proposal is the content's, in some context of the identity
  intro hpasses
  rw [hproposal] at hpasses ⊢
  have hread := ProposalContent.committable hpasses hcreator hordered
  refine ⟨⟨_, _, hread.headerRead, ProposalContent.decode_signatureHeader hpasses, hcreator⟩, ?_⟩
  intro responses
  refine ⟨⟨?committed, ?endorsed⟩, ?refused, ?reported⟩
  case committed =>
    intro h
    obtain ⟨t, ht⟩ := h
    exact exists_isEndorsed_of_outcome ht
  case endorsed =>
    intro h
    exact hread.exists_outcome h hsign
  case refused =>
    intro h
    rw [hread.signTransaction_of_none h]
  case reported =>
    intro t ht
    refine ⟨(hread.txId_of_outcome ht).trans htxId.symm, ?_⟩
    intro htpasses
    obtain ⟨view, hview, hviewTxId, hviewChannel, hcall, hendorsements, hkeys⟩ :=
      TransactionView.decode_committed hcreator hordered rfl List.Pairwise.nil hpasses ht htpasses
    exact ⟨view, hview, hviewTxId.trans htxId.symm, hviewChannel, hcall, hendorsements, hkeys⟩

theorem endorse_then_commit_two :
    let p : Provider := ⟨fun _ m => .ok (1 :: m.take 2), fun _ m => .ok (Bytes.toHex (m.take 2)),
      fun _ => .error .invalidKey⟩
    let w : Surroundings := ⟨⟨0, 0⟩, fun n => List.replicate n 7⟩
    let i : SigningIdentity := ⟨"Org1MSP", " -----BEGIN C", "-----BEGIN K"⟩
    let r : EndorsementRequest := { EndorsementRequest.ofIdentity i "ch" "cc" with
      chaincodeVersion := none, chaincodeType := .node, function := some "put", args := [[1]],
      transientMap := [("k", [2])], isInit := false }
    let responses : List ProposalResponse := [⟨1, none, some ⟨500, "no", []⟩, [1], some ⟨[1], [2]⟩⟩,
      ⟨1, none, some ⟨200, "", []⟩, [2], some ⟨[1], [2]⟩⟩, ⟨1, none, some ⟨200, "", []⟩, [3], some ⟨[3], [4]⟩⟩]
    ∃ e t view, (r.sign p w {} none).outcome = .ok e ∧ (signTransaction p i e.proposal responses).outcome = .ok t ∧
      t.txId = e.txId ∧ TransactionView.decode t.encode = .ok view ∧ view.txId = e.txId ∧ view.channelId = "ch" ∧
      view.call = ⟨"cc", [Bytes.ofText "put", [1]], false⟩ ∧ view.endorsements = 2 ∧ view.transientKeys = [] ∧
      (signTransaction p i e.proposal []).outcome = .error (.noSuccessfulEndorsements 0) := by
  intro p w i r responses
  have hkeys : ∀ e ∈ r.transientMap, e.1 ≠ "" := by
    rw [List.forall_mem_singleton]
    decide
  have hi : i.Wrappable := ⟨by decide, by decide, by decide⟩
  have hchannel : Text.isBlankText "ch" = false := by decide
  have hchaincode : Text.isBlankText "cc" = false := by decide
  obtain ⟨e, he, -, hrun⟩ := endorse_then_commit hi hchannel hchaincode (List.pairwise_singleton ..) hkeys (p := p)
    (fun m => ⟨_, rfl⟩) (fun m => ⟨_, rfl⟩) none .node (some "put") [[1]] false w {} none
  -- the proposal, and the transaction for it, pass
  have hfits : ((r.sign p w {} none).outcome.toOption.any fun e =>
      decide (((Wire.encode e.proposal).length < UInt64.size ∧
          Wire.nestedWithin Wire.maxNesting (Wire.encode e.proposal) = true) ∧
        ((signTransaction p i e.proposal responses).outcome.toOption.any fun t =>
          decide (t.encode.length < UInt64.size ∧ Wire.nestedWithin Wire.maxNesting t.encode = true)) = true)) = true := by
    decide +kernel
  obtain ⟨e', he', ⟨hshort, hwithin⟩, ht⟩ := exists_ok_of_any hfits
  cases he.symm.trans he'
  obtain ⟨t, ht, htshort, htwithin⟩ := exists_ok_of_any ht
  obtain ⟨-, hcommit⟩ := hrun (.of_nestedWithin hshort hwithin)
  obtain ⟨-, -, hreport⟩ := hcommit responses
  obtain ⟨htxId, hview⟩ := hreport t ht
  obtain ⟨view, hview, hviewTxId, hchannel, hcall, hendorsements, htransient⟩ :=
    hview (.of_nestedWithin htshort htwithin)
  exact ⟨e, t, view, he, ht, htxId, hview, hviewTxId, hchannel, hcall, hendorsements, htransient,
    (hcommit []).2.1 (List.forall_mem_nil _)⟩

end Fabric

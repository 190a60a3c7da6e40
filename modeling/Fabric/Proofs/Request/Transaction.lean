import Fabric.Proofs.Message.Passing
import Fabric.Proofs.Request.Discipline

namespace Fabric

open Message (ActionPayload ChannelHeader Endorsement Envelope Header Payload Proposal ProposalPayload ProposalResponse
  SignatureHeader)
open Wire (Passes)

def Message.ProposalResponse.isEndorsed (r : ProposalResponse) : Bool :=
  r.response.any (·.status == 200) && r.endorsement.isSome

section

variable (responses : List ProposalResponse)

theorem endorsement?_eq (r : ProposalResponse) : endorsement? r = if r.isEndorsed then r.endorsement else none := by
  obtain ⟨version, timestamp, response, payload, endorsement⟩ := r
  cases response with
  | none => rfl
  | some inner =>
    cases endorsement with
    | none => simp [endorsement?, ProposalResponse.isEndorsed]
    | some e =>
      by_cases h : inner.status = 200
      · simp [endorsement?, ProposalResponse.isEndorsed, statusSuccess, h]
      · simp [endorsement?, ProposalResponse.isEndorsed, statusSuccess, h]

theorem isSome_endorsement? (r : ProposalResponse) : (endorsement? r).isSome = r.isEndorsed := by
  rw [endorsement?_eq]
  cases h : r.isEndorsed with
  | false => rfl
  | true => exact (Bool.and_eq_true_iff.1 h).2

/-- None is lost, added or put in another place. -/
theorem map_endorsement_filter :
    (responses.filter (·.isEndorsed)).map (·.endorsement) = (responses.filterMap endorsement?).map some := by
  induction responses with
  | nil => rfl
  | cons r rest ih =>
    have hr := endorsement?_eq r
    have hsome := isSome_endorsement? r
    cases h : r.isEndorsed with
    | false =>
      -- skipped on both sides
      rw [h, if_neg Bool.false_ne_true] at hr
      rw [List.filter_cons_of_neg (by simp [h]), List.filterMap_cons_none hr, ih]
    | true =>
      -- kept on both sides, and the endorsement is there
      rw [h] at hsome
      obtain ⟨e, he⟩ := Option.isSome_iff_exists.1 hsome
      rw [h, if_pos rfl] at hr
      rw [List.filter_cons_of_pos (by simp [h]), List.filterMap_cons_some he, List.map_cons, List.map_cons, ih, ← hr, he]

theorem length_filterMap_endorsement? :
    (responses.filterMap endorsement?).length = responses.countP (·.isEndorsed) := by
  have hlengths := congrArg List.length (map_endorsement_filter responses)
  rw [List.length_map, List.length_map] at hlengths
  rw [List.countP_eq_length_filter, hlengths]

theorem responsePayload?_eq :
    responsePayload? responses = (responses.filter (·.isEndorsed)).head?.map (·.payload) := by
  rw [List.head?_filter, responsePayload?]
  simp only [isSome_endorsement?]

theorem isSome_responsePayload? : (responsePayload? responses).isSome ↔ ∃ r ∈ responses, r.isEndorsed = true := by
  rw [responsePayload?_eq, Option.isSome_map, List.head?_filter, List.find?_isSome]

end

structure Committable (identity : SigningIdentity) (proposal : Proposal) (header : Header)
    (channelHeader : ChannelHeader) (payload : ProposalPayload) : Prop where
  headerRead : Wire.decode proposal.header = .ok header
  creatorRead : ∃ nonce, Wire.decode header.signatureHeader = .ok (⟨identity.serialize, nonce⟩ : SignatureHeader)
  channelHeaderRead : Wire.decode header.channelHeader = .ok channelHeader
  payloadRead : Wire.decode proposal.payload = .ok payload

section

variable {p : Provider} {identity : SigningIdentity} {proposal : Proposal} {responses : List ProposalResponse}
  {header : Header} {channelHeader : ChannelHeader} {payload : ProposalPayload}

/-- Bytes are read in one way only. -/
theorem Committable.unique {header' : Header} {channelHeader' : ChannelHeader} {payload' : ProposalPayload}
    (h : Committable identity proposal header channelHeader payload)
    (h' : Committable identity proposal header' channelHeader' payload') :
    header = header' ∧ channelHeader = channelHeader' ∧ payload = payload' := by
  have hheader := Except.ok.inj (h.headerRead.symm.trans h'.headerRead)
  subst hheader
  exact ⟨rfl, Except.ok.inj (h.channelHeaderRead.symm.trans h'.channelHeaderRead),
    Except.ok.inj (h.payloadRead.symm.trans h'.payloadRead)⟩

theorem creator_eq_of_checkCreator {h : SignatureHeader} {u : Unit} (hcheck : checkCreator identity h = .ok u) :
    h.creator = identity.serialize := by
  rw [checkCreator] at hcheck
  split at hcheck
  · next hsame => exact hsame
  · cases hcheck

/-- Once the headers of its creator are read, only the payload may still be refused, and that only if a response counts. -/
theorem signTransaction_eq {nonce : Bytes} (hheader : Wire.decode proposal.header = .ok header)
    (hcreator : Wire.decode header.signatureHeader = .ok (⟨identity.serialize, nonce⟩ : SignatureHeader))
    (hchannel : Wire.decode header.channelHeader = .ok channelHeader) (p : Provider)
    (responses : List ProposalResponse) :
    signTransaction p identity proposal responses =
      match responsePayload? responses with
      | none => ⟨[], .error (.noSuccessfulEndorsements responses.length)⟩
      | some responsePayload =>
        Traced.ofExcept (decodeMessage proposal.payload) >>= fun payload =>
          signPayload p identity channelHeader.txId header
            (Wire.encode (transaction header payload responsePayload (responses.filterMap endorsement?))) := by
  simp only [signTransaction, decodeMessage_eq_ok_iff.2 hheader, decodeMessage_eq_ok_iff.2 hcreator,
    decodeMessage_eq_ok_iff.2 hchannel, Traced.ofExcept_ok_bind, checkCreator, if_true]
  rfl

/-- Who did not make the proposal is told so, and nothing is asked of the provider. -/
theorem signTransaction_of_other {signatureHeader : SignatureHeader} (hheader : Wire.decode proposal.header = .ok header)
    (hsignature : Wire.decode header.signatureHeader = .ok signatureHeader)
    (hchannel : Wire.decode header.channelHeader = .ok channelHeader)
    (hother : signatureHeader.creator ≠ identity.serialize) (p : Provider) (responses : List ProposalResponse) :
    signTransaction p identity proposal responses = ⟨[], .error (.validation [⟨"identity", .notCreator⟩])⟩ := by
  simp only [signTransaction, decodeMessage_eq_ok_iff.2 hheader, decodeMessage_eq_ok_iff.2 hsignature,
    decodeMessage_eq_ok_iff.2 hchannel, Traced.ofExcept_ok_bind, checkCreator, hother, if_false]
  rfl

/-- A transaction for a proposal that can be committed carries the first response that counts, with all endorsements. -/
theorem Committable.signTransaction_eq (h : Committable identity proposal header channelHeader payload)
    (p : Provider) (responses : List ProposalResponse) :
    signTransaction p identity proposal responses =
      match responsePayload? responses with
      | none => ⟨[], .error (.noSuccessfulEndorsements responses.length)⟩
      | some responsePayload =>
        signPayload p identity channelHeader.txId header
          (Wire.encode (transaction header payload responsePayload (responses.filterMap endorsement?))) := by
  obtain ⟨nonce, hcreator⟩ := h.creatorRead
  rw [Fabric.signTransaction_eq h.headerRead hcreator h.channelHeaderRead]
  simp only [decodeMessage_eq_ok_iff.2 h.payloadRead, Traced.ofExcept_ok_bind]

/-- Only a proposal that can be committed gets a transaction, and only if some response counts. -/
theorem Committable.of_outcome {e : SignedEnvelope}
    (h : (signTransaction p identity proposal responses).outcome = .ok e) :
    ∃ header channelHeader payload, Committable identity proposal header channelHeader payload ∧
      ∃ responsePayload, responsePayload? responses = some responsePayload := by
  rw [signTransaction] at h
  simp only [Traced.outcome_bind_eq_ok_iff] at h
  obtain ⟨header, hheader, signatureHeader, hsignatureHeader, channelHeader, hchannelHeader, _, hcreator, h⟩ := h
  -- the check of the creator makes it the identity's
  have hsame := creator_eq_of_checkCreator hcreator
  cases hpayload : responsePayload? responses with
  | none =>
    rw [hpayload] at h
    cases h
  | some responsePayload =>
    rw [hpayload] at h
    obtain ⟨payload, hpayload, -⟩ := Traced.outcome_bind_eq_ok_iff.1 h
    have hcreatorRead : Wire.decode header.signatureHeader =
        .ok (⟨identity.serialize, signatureHeader.nonce⟩ : SignatureHeader) := by
      rw [decodeMessage_eq_ok_iff.1 hsignatureHeader, ← hsame]
    exact ⟨header, channelHeader, payload, ⟨decodeMessage_eq_ok_iff.1 hheader, ⟨_, hcreatorRead⟩,
      decodeMessage_eq_ok_iff.1 hchannelHeader, decodeMessage_eq_ok_iff.1 hpayload⟩, responsePayload, rfl⟩

theorem signPayload_of_outcome {txId : String} {data : Bytes} {e : SignedEnvelope}
    (h : (signPayload p identity txId header data).outcome = .ok e) :
    e.envelope.payload = Wire.encode (⟨some header, data⟩ : Payload) ∧ e.txId = txId := by
  obtain ⟨signature, -, he⟩ := Traced.outcome_bind_eq_ok_iff.1 h
  cases he
  exact ⟨rfl, rfl⟩

/-- What was there, and was put together, if there is a transaction. -/
theorem signTransaction_of_outcome {e : SignedEnvelope}
    (h : (signTransaction p identity proposal responses).outcome = .ok e) :
    ∃ header channelHeader payload first, Committable identity proposal header channelHeader payload ∧
      (responses.filter (·.isEndorsed)).head? = some first ∧
      e.envelope.payload = Wire.encode (⟨some header, Wire.encode (transaction header payload first.payload
        (responses.filterMap endorsement?))⟩ : Payload) ∧
      e.txId = channelHeader.txId := by
  obtain ⟨header, channelHeader, payload, hread, responsePayload, hresponse⟩ := Committable.of_outcome h
  have hfirst := hresponse
  rw [responsePayload?_eq, Option.map_eq_some_iff] at hfirst
  obtain ⟨first, hfirst, rfl⟩ := hfirst
  rw [hread.signTransaction_eq, hresponse] at h
  exact ⟨header, channelHeader, payload, first, hread, hfirst, signPayload_of_outcome h⟩

namespace Committable

variable (h : Committable identity proposal header channelHeader payload)
include h

theorem signTransaction_of_none (hnone : ∀ r ∈ responses, r.isEndorsed = false) :
    signTransaction p identity proposal responses = ⟨[], .error (.noSuccessfulEndorsements responses.length)⟩ := by
  have hfilter : responses.filter (·.isEndorsed) = [] := by
    rw [List.filter_eq_nil_iff]
    intro r hr
    rw [hnone r hr]
    exact Bool.false_ne_true
  rw [h.signTransaction_eq, responsePayload?_eq, hfilter]
  rfl

theorem exists_outcome (hsome : ∃ r ∈ responses, r.isEndorsed = true)
    (hsign : ∀ m, ∃ signature, p.sign identity.key m = .ok signature) :
    ∃ e, (signTransaction p identity proposal responses).outcome = .ok e := by
  obtain ⟨responsePayload, hpayload⟩ := Option.isSome_iff_exists.1 ((isSome_responsePayload? responses).2 hsome)
  rw [h.signTransaction_eq, hpayload]
  exact Traced.exists_outcome_bind (Traced.exists_outcome_sign (hsign _)) fun signature => ⟨_, rfl⟩

theorem txId_of_outcome {e : SignedEnvelope} (he : (signTransaction p identity proposal responses).outcome = .ok e) :
    e.txId = channelHeader.txId := by
  obtain ⟨header', channelHeader', payload', first, hread, -, -, htxId⟩ := signTransaction_of_outcome he
  rw [htxId, (h.unique hread).2.1]

end Committable

theorem exists_isEndorsed_of_outcome {e : SignedEnvelope}
    (h : (signTransaction p identity proposal responses).outcome = .ok e) : ∃ r ∈ responses, r.isEndorsed = true := by
  obtain ⟨-, -, -, first, -, hfirst, -, -⟩ := signTransaction_of_outcome h
  exact ⟨first, List.mem_filter.1 (List.mem_of_mem_head? hfirst)⟩

/-- The messages in the envelope of a transaction are read as they were put in one another, down to the bytes of what
was asked. -/
theorem decode_action {e : Envelope} {header : Header} {payload : ProposalPayload} {responsePayload : Bytes}
    {endorsements : List Endorsement} (hpasses : Passes (Wire.encode e))
    (he : e.payload =
      Wire.encode (⟨some header, Wire.encode (transaction header payload responsePayload endorsements)⟩ : Payload)) :
    ∃ data action,
      Wire.decode e.payload = .ok (⟨some header, data⟩ : Payload) ∧
      Wire.decode data = .ok (⟨[⟨header.signatureHeader, action⟩]⟩ : Message.Transaction) ∧
      Wire.decode action =
        .ok (⟨Wire.encode (withoutTransient payload), some ⟨responsePayload, endorsements⟩⟩ : ActionPayload) ∧
      Passes (Wire.encode (withoutTransient payload)) := by
  have hpayload := Envelope.passes_payload hpasses
  rw [he] at hpayload ⊢
  have hdata : Passes (Wire.encode (transaction header payload responsePayload endorsements)) :=
    Payload.passes_data hpayload
  have haction := Message.TransactionAction.passes_payload (Message.Transaction.passes_action hdata)
  exact ⟨_, _, (Payload.faithful _).decode_of_passes hpayload, (Message.Transaction.faithful _).decode_of_passes hdata,
    (ActionPayload.faithful _).decode_of_passes haction, ActionPayload.passes_proposalPayload haction⟩

/-- The input of the proposal is read from there, without transient data. -/
theorem decode_transaction {e : Envelope} {header : Header} {payload : ProposalPayload} {responsePayload : Bytes}
    {endorsements : List Endorsement} (hpasses : Passes (Wire.encode e))
    (he : e.payload =
      Wire.encode (⟨some header, Wire.encode (transaction header payload responsePayload endorsements)⟩ : Payload)) :
    ∃ data action proposalPayload,
      Wire.decode (Wire.encode e) = .ok e ∧
      Wire.decode e.payload = .ok (⟨some header, data⟩ : Payload) ∧
      Wire.decode data = .ok (⟨[⟨header.signatureHeader, action⟩]⟩ : Message.Transaction) ∧
      Wire.decode action = .ok (⟨proposalPayload, some ⟨responsePayload, endorsements⟩⟩ : ActionPayload) ∧
      Wire.decode proposalPayload = .ok (⟨payload.input, []⟩ : ProposalPayload) := by
  obtain ⟨data, action, hpayload, hdata, haction, hproposal⟩ := decode_action hpasses he
  exact ⟨data, action, _, e.faithful.decode_of_passes hpasses, hpayload, hdata, haction,
    (ProposalPayload.faithful (p := withoutTransient payload) List.Pairwise.nil).decode_of_passes hproposal⟩

/-- A transaction carries the headers and the input of its proposal as they are, the endorsements of the responses
that count in order, and the payload of the first of these; what is signed is what is sent. -/
theorem transaction_carries {e : SignedEnvelope} (h : (signTransaction p identity proposal responses).outcome = .ok e)
    (hpasses : Passes e.encode) :
    ∃ (header : Header) (payload : ProposalPayload) (first : ProposalResponse) (endorsements : List Endorsement)
      (data action proposalPayload : Bytes),
      Wire.decode proposal.header = .ok header ∧ Wire.decode proposal.payload = .ok payload ∧
      (responses.filter (·.isEndorsed)).head? = some first ∧
      (responses.filter (·.isEndorsed)).map (·.endorsement) = endorsements.map some ∧
      Wire.decode e.encode = .ok e.envelope ∧
      Wire.decode e.envelope.payload = .ok (⟨some header, data⟩ : Payload) ∧
      Wire.decode data = .ok (⟨[⟨header.signatureHeader, action⟩]⟩ : Message.Transaction) ∧
      Wire.decode action = .ok (⟨proposalPayload, some ⟨first.payload, endorsements⟩⟩ : ActionPayload) ∧
      Wire.decode proposalPayload = .ok (⟨payload.input, []⟩ : ProposalPayload) ∧
      p.sign identity.key e.envelope.payload = .ok e.envelope.signature ∧
      (signTransaction p identity proposal responses).calls = [.sign identity.key e.envelope.payload] := by
  obtain ⟨header, channelHeader, payload, first, hread, hfirst, he, -⟩ := signTransaction_of_outcome h
  obtain ⟨data, action, proposalPayload, henvelope, hpayload, hdata, haction, hproposal⟩ :=
    decode_transaction hpasses he
  obtain ⟨hcalls, hsign⟩ := (signTransaction_disciplined p identity proposal responses).signed e h
  exact ⟨header, payload, first, responses.filterMap endorsement?, data, action, proposalPayload, hread.headerRead,
    hread.payloadRead, hfirst, map_endorsement_filter responses, henvelope, hpayload, hdata, haction, hproposal, hsign,
    hcalls⟩

theorem transaction_carries_mixed :
    let p : Provider := ⟨fun _ m => .ok (1 :: m.take 2), fun _ _ => .error .signing, fun _ => .error .invalidKey⟩
    let i : SigningIdentity := ⟨"Org1MSP", "certificate", "key"⟩
    let channelHeader : ChannelHeader := ⟨3, 0, some ⟨1, 2⟩, "ch", "tx", 0, [], []⟩
    let header : Header := ⟨Wire.encode channelHeader, Wire.encode (⟨i.serialize, [9]⟩ : SignatureHeader)⟩
    let proposal : Proposal := ⟨Wire.encode header, Wire.encode (⟨[5], [("k", [6])]⟩ : ProposalPayload), [8]⟩
    let x : Endorsement := ⟨[1], [2]⟩
    let y : Endorsement := ⟨[3], [4]⟩
    let responses : List ProposalResponse := [⟨1, none, some ⟨500, "no", []⟩, [1], some y⟩,
      ⟨1, none, some ⟨200, "", []⟩, [2], none⟩, ⟨1, none, none, [3], some y⟩, ⟨1, none, some ⟨200, "", []⟩, [4], some x⟩,
      ⟨1, none, some ⟨200, "", []⟩, [5], some y⟩, ⟨1, none, some ⟨200, "", []⟩, [6], some x⟩]
    ∃ e, (signTransaction p i proposal responses).outcome = .ok e ∧ Passes e.encode ∧
      ∃ data action proposalPayload,
        Wire.decode e.envelope.payload = .ok (⟨some header, data⟩ : Payload) ∧
        Wire.decode data = .ok (⟨[⟨header.signatureHeader, action⟩]⟩ : Message.Transaction) ∧
        Wire.decode action = .ok (⟨proposalPayload, some ⟨[4], [x, y, x]⟩⟩ : ActionPayload) ∧
        Wire.decode proposalPayload = .ok (⟨[5], []⟩ : ProposalPayload) := by
  intro p i channelHeader header proposal x y responses
  have hfits : ((signTransaction p i proposal responses).outcome.toOption.any fun e =>
      decide (e.encode.length < UInt64.size ∧ Wire.nestedWithin Wire.maxNesting e.encode = true)) = true := by
    decide +kernel
  obtain ⟨e, he, hshort, hwithin⟩ := exists_ok_of_any hfits
  have hpasses : Passes e.encode := .of_nestedWithin hshort hwithin
  obtain ⟨header', payload, first, endorsements, data, action, proposalPayload, hheader, hpayload, hfirst, hendorsements,
    -, hread, hdata, haction, hproposal, -⟩ := transaction_carries he hpasses
  dsimp only [proposal] at hheader hpayload
  rw [header.faithful.decode_of_passes (.of_nestedWithin (by decide +kernel) (by decide +kernel))] at hheader
  rw [(ProposalPayload.faithful (p := ⟨[5], [("k", [6])]⟩) (List.pairwise_singleton ..)).decode_of_passes
    (.of_nestedWithin (by decide +kernel) (by decide +kernel))] at hpayload
  cases hheader
  cases hpayload
  cases hfirst
  have hall : endorsements = [x, y, x] :=
    (List.map_inj_right fun _ _ => Option.some.inj).1 hendorsements.symm
  subst hall
  exact ⟨e, he, hpasses, data, action, proposalPayload, hread, hdata, haction, hproposal⟩

/-- The payload does not depend on the provider that signs it. -/
theorem signTransaction_payload_unique {q : Provider} {e e' : SignedEnvelope}
    (h : (signTransaction p identity proposal responses).outcome = .ok e)
    (h' : (signTransaction q identity proposal responses).outcome = .ok e') :
    e.envelope.payload = e'.envelope.payload ∧ e.txId = e'.txId := by
  obtain ⟨header, channelHeader, payload, first, hread, hfirst, hpayload, htxId⟩ := signTransaction_of_outcome h
  obtain ⟨header', channelHeader', payload', first', hread', hfirst', hpayload', htxId'⟩ :=
    signTransaction_of_outcome h'
  obtain ⟨rfl, rfl, rfl⟩ := hread.unique hread'
  obtain rfl := Option.some.inj (hfirst.symm.trans hfirst')
  exact ⟨hpayload.trans hpayload'.symm, htxId.trans htxId'.symm⟩

/-- What is put into a transaction does not depend on transient data, on the extension of the proposal or on how its
payload is encoded: whether there is a transaction does not, nor what it is, nor what is signed for it. -/
theorem transaction_hides_transient {a b : Proposal} {pa pb : ProposalPayload} (hheader : a.header = b.header)
    (ha : Wire.decode a.payload = .ok pa) (hb : Wire.decode b.payload = .ok pb) (hinput : pa.input = pb.input)
    (identity : SigningIdentity) (responses : List ProposalResponse) :
    (∀ p, signTransaction p identity a responses = signTransaction p identity b responses) ∧
    ∀ p q ea eb, (signTransaction p identity a responses).outcome = .ok ea →
      (signTransaction q identity b responses).outcome = .ok eb →
      ea.envelope.payload = eb.envelope.payload ∧ ea.txId = eb.txId ∧
      (signTransaction p identity a responses).calls = [.sign identity.key ea.envelope.payload] ∧
      (signTransaction q identity b responses).calls = [.sign identity.key ea.envelope.payload] := by
  have hsame (p : Provider) : signTransaction p identity a responses = signTransaction p identity b responses := by
    -- nothing but the input of a payload goes into a transaction
    have hpayload (header : Header) (responsePayload : Bytes) (endorsements : List Endorsement) :
        transaction header pa responsePayload endorsements = transaction header pb responsePayload endorsements := by
      simp only [transaction, withoutTransient, hinput]
    simp only [signTransaction, hheader, decodeMessage_eq_ok_iff.2 ha, decodeMessage_eq_ok_iff.2 hb,
      Traced.ofExcept_ok_bind, hpayload]
  refine ⟨hsame, ?_⟩
  intro p q ea eb hea heb
  rw [hsame p] at hea ⊢
  obtain ⟨hpayload, htxId⟩ := signTransaction_payload_unique hea heb
  have hcalls := ((signTransaction_disciplined p identity b responses).signed ea hea).1
  have hcalls' := ((signTransaction_disciplined q identity b responses).signed eb heb).1
  rw [← hpayload] at hcalls'
  exact ⟨hpayload, htxId, hcalls, hcalls'⟩

theorem transaction_hides_transient_split :
    let p : Provider := ⟨fun _ m => .ok (1 :: m.take 2), fun _ _ => .error .signing, fun _ => .error .invalidKey⟩
    let q : Provider := { p with sign := fun _ m => .ok (2 :: m.take 3) }
    let i : SigningIdentity := ⟨"Org1MSP", "certificate", "key"⟩
    let channelHeader : ChannelHeader := ⟨3, 0, some ⟨1, 2⟩, "ch", "tx", 0, [], []⟩
    let header : Header := ⟨Wire.encode channelHeader, Wire.encode (⟨i.serialize, [9]⟩ : SignatureHeader)⟩
    let a : Proposal := ⟨Wire.encode header, Wire.encode (⟨[5], []⟩ : ProposalPayload), []⟩
    -- the input twice, an unknown field, and one key with two values, the first of them in two parts
    let b : Proposal := ⟨Wire.encode header,
      [0x0A, 1, 9] ++ [0x78, 1] ++ [0x12, 9, 0x0A, 1, 107, 0x12, 1, 6, 0x12, 1, 7] ++ [0x0A, 1, 5] ++
        [0x12, 6, 0x0A, 1, 107, 0x12, 1, 8] ++ [0x12, 3, 0x0A, 1, 108], [8]⟩
    let responses : List ProposalResponse := [⟨1, none, some ⟨200, "", []⟩, [4], some ⟨[1], [2]⟩⟩]
    ∃ pb ea eb, Wire.decode b.payload = .ok pb ∧ pb = (⟨[5], [("k", [8]), ("l", [])]⟩ : ProposalPayload) ∧
      (signTransaction p i a responses).outcome = .ok ea ∧ (signTransaction q i b responses).outcome = .ok eb ∧
      ea.envelope.payload = eb.envelope.payload ∧ ea.envelope.signature ≠ eb.envelope.signature := by
  intro p q i channelHeader header a b responses
  obtain ⟨pa, hpa, hinput⟩ : ∃ pa, (Wire.decode a.payload : Except _ ProposalPayload) = .ok pa ∧ pa.input = [5] :=
    exists_ok_of_any (by decide +kernel)
  obtain ⟨pb, hpb, hmap⟩ : ∃ pb, (Wire.decode b.payload : Except _ ProposalPayload) = .ok pb ∧
      pb = ⟨[5], [("k", [8]), ("l", [])]⟩ := exists_ok_of_any (by decide +kernel)
  obtain ⟨ea, hea, hsigna⟩ : ∃ ea, (signTransaction p i a responses).outcome = .ok ea ∧
      ea.envelope.signature.head? = some 1 := exists_ok_of_any (by decide +kernel)
  obtain ⟨eb, heb, hsignb⟩ : ∃ eb, (signTransaction q i b responses).outcome = .ok eb ∧
      eb.envelope.signature.head? = some 2 := exists_ok_of_any (by decide +kernel)
  have hsame : pa.input = pb.input := by rw [hinput, hmap]
  obtain ⟨-, hruns⟩ := transaction_hides_transient (a := a) (b := b) rfl hpa hpb hsame i responses
  refine ⟨pb, ea, eb, hpb, hmap, hea, heb, (hruns p q ea eb hea heb).1, ?_⟩
  intro h
  rw [h, hsignb] at hsigna
  cases hsigna

end

end Fabric

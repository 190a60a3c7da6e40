import Fabric.Definition.Call
import Fabric.Proofs.Request.Acceptance
import Fabric.Proofs.Request.Traced
import Fabric.Request.ConfigUpdate
import Fabric.Request.Transaction

namespace Fabric

def RequestError.IsRefusal : RequestError → Prop
  | .validation .. | .policy _ | .noSuccessfulEndorsements _ => True
  | _ => False

def Provider.answer (p : Provider) : ProviderCall → Except CryptoError Unit
  | .digest algorithm message => (p.digest algorithm message).map fun _ => ()
  | .sign key message => (p.sign key message).map fun _ => ()

def plannedCalls (digests : List Bytes) (key : String) (message : Bytes) : List ProviderCall :=
  digests.map (.digest .sha256) ++ [.sign key message]

def certificateContents (p : Provider) : Option String → List Bytes
  | none => []
  | some pem =>
    match p.der pem with
    | .ok der => [der]
    | .error _ => []

variable {α β : Type}

theorem eq_of_singleton_eq_append_cons {a b : α} {l l' : List α} (h : [a] = l ++ b :: l') : b = a ∧ l' = [] := by
  cases l with
  | nil =>
    obtain ⟨rfl, hnil⟩ := List.cons.inj h
    exact ⟨rfl, hnil.symm⟩
  | cons x l => simp at h

structure Follows (p : Provider) (digests : List Bytes) (key : String) (message signature : α → Bytes)
    (x : Traced RequestError α) : Prop where
  inOrder : ∃ m, x.calls <+: plannedCalls digests key m
  failed : ∀ before c after e, x.calls = before ++ c :: after → p.answer c = .error e →
    after = [] ∧ x.outcome = .error (.crypto e)
  completed : (∃ m, x.calls = plannedCalls digests key m) → (∀ c ∈ x.calls, p.answer c = .ok ()) →
    ∃ a, x.outcome = .ok a
  signed : ∀ a, x.outcome = .ok a → x.calls = plannedCalls digests key (message a) ∧
    (∀ c ∈ x.calls, p.answer c = .ok ()) ∧ p.sign key (message a) = .ok (signature a)
  notRefused : ∀ e, x.outcome = .error e → ¬ e.IsRefusal

namespace Follows

variable {p : Provider} {digests : List Bytes} {key : String} {message signature : α → Bytes}

theorem stopped {e : RequestError} (he : ¬ e.IsRefusal) :
    Follows p digests key message signature ⟨[], .error e⟩ where
  inOrder := ⟨[], List.nil_prefix⟩
  failed before c after e' h := by simp at h
  completed h := by
    obtain ⟨m, hm⟩ := h
    simp [plannedCalls] at hm
  signed a h := by cases h
  notRefused e' h := by
    cases h
    exact he

/-- The call that is due fails. -/
theorem failing {c : ProviderCall} {e : CryptoError} (hc : p.answer c = .error e) {m : Bytes}
    (hfirst : [c] <+: plannedCalls digests key m) :
    Follows p digests key message signature ⟨[c], .error (.crypto e)⟩ where
  inOrder := ⟨m, hfirst⟩
  failed before c' after e' h hc' := by
    obtain ⟨rfl, hnil⟩ := eq_of_singleton_eq_append_cons h
    rw [hc] at hc'
    cases hc'
    exact ⟨hnil, rfl⟩
  completed _ h := by
    have hok := h c (List.mem_singleton_self c)
    rw [hc] at hok
    cases hok
  signed a h := by cases h
  notRefused e' h := by
    cases h
    exact id

/-- The digest that is due is given. -/
theorem cons {d : Bytes} {text : String} (hd : p.digest .sha256 d = .ok text) {x : Traced RequestError α}
    (hx : Follows p digests key message signature x) :
    Follows p (d :: digests) key message signature ⟨.digest .sha256 d :: x.calls, x.outcome⟩ := by
  have hanswer : p.answer (.digest .sha256 d) = .ok () := by rw [Provider.answer, hd, Except.map]
  have hplan (m : Bytes) : plannedCalls (d :: digests) key m = .digest .sha256 d :: plannedCalls digests key m := rfl
  refine ⟨?_, ?_, ?_, ?_, hx.notRefused⟩
  · obtain ⟨m, hm⟩ := hx.inOrder
    exact ⟨m, (List.prefix_cons_inj _).2 hm⟩
  · intro before c after e h hc
    cases before with
    | nil =>
      -- the call that failed cannot be this one, which was answered
      obtain ⟨rfl, -⟩ := List.cons.inj h
      rw [hanswer] at hc
      cases hc
    | cons b before => exact hx.failed before c after e (List.cons.inj h).2 hc
  · intro h hcalls
    obtain ⟨m, hm⟩ := h
    exact hx.completed ⟨m, (List.cons.inj hm).2⟩ fun c hc => hcalls c (List.mem_cons_of_mem _ hc)
  · intro a ha
    obtain ⟨hcalls, hanswers, hsign⟩ := hx.signed a ha
    refine ⟨?_, ?_, hsign⟩
    · rw [hplan, ← hcalls]
    · rw [List.forall_mem_cons]
      exact ⟨hanswer, hanswers⟩

theorem digest {d : Bytes} {f : String → Traced RequestError α}
    (hf : ∀ text, p.digest .sha256 d = .ok text → Follows p digests key message signature (f text)) :
    Follows p (d :: digests) key message signature (Traced.digest p .sha256 d >>= f) := by
  cases hd : p.digest .sha256 d with
  | ok text =>
    rw [Traced.digest_of_ok hd]
    exact cons hd (hf text hd)
  | error e =>
    have hanswer : p.answer (.digest .sha256 d) = .error e := by rw [Provider.answer, hd, Except.map]
    rw [Traced.digest_of_error hd]
    exact failing hanswer (m := []) (List.prefix_append [_] _)

/-- The signature comes last, and is returned with the bytes that it is on. -/
theorem sign {m : Bytes} {f : Bytes → α} (hm : ∀ g, message (f g) = m) (hs : ∀ g, signature (f g) = g) :
    Follows p [] key message signature (Traced.sign p key m >>= fun g => pure (f g)) := by
  cases hd : p.sign key m with
  | ok g =>
    have hrun : (Traced.sign p key m >>= fun g => pure (f g)) = ⟨[.sign key m], .ok (f g)⟩ := by
      rw [Traced.sign_of_ok hd]
      rfl
    have hanswer : p.answer (.sign key m) = .ok () := by rw [Provider.answer, hd, Except.map]
    rw [hrun]
    refine ⟨⟨m, List.prefix_refl _⟩, ?_, fun _ _ => ⟨f g, rfl⟩, ?_, ?_⟩
    · intro before c after e h hc
      obtain ⟨rfl, -⟩ := eq_of_singleton_eq_append_cons h
      rw [hanswer] at hc
      cases hc
    · intro a ha
      cases ha
      rw [hm, hs]
      refine ⟨rfl, ?_, hd⟩
      intro c hc
      rwa [List.mem_singleton.1 hc]
    · intro e he
      cases he
  | error e =>
    have hanswer : p.answer (.sign key m) = .error e := by rw [Provider.answer, hd, Except.map]
    rw [Traced.sign_of_error hd]
    exact failing hanswer (m := m) (List.prefix_refl _)

/-- Digits that are none come after the digest that they were to be. -/
theorem digestBytes {d : Bytes} {f : Bytes → Traced RequestError α}
    (hf : ∀ h, Follows p digests key message signature (f h)) :
    Follows p (d :: digests) key message signature (Traced.digestBytes p d >>= f) := by
  rw [Traced.digestBytes, bind_assoc]
  refine digest fun text _ => ?_
  cases Bytes.ofHex? text with
  | some h => exact hf h
  | none => exact stopped id

theorem tlsCertHash {tls : Option String} {f : Bytes → Traced RequestError α}
    (hf : ∀ h, Follows p digests key message signature (f h)) :
    Follows p (certificateContents p tls ++ digests) key message signature (Fabric.tlsCertHash p tls >>= f) := by
  cases tls with
  | none => exact hf []
  | some pem =>
    rw [Fabric.tlsCertHash, certificateContents, bind_assoc]
    cases hder : p.der pem with
    | error e => exact stopped id
    | ok der => exact digestBytes hf

theorem derive {identity : SigningIdentity} {nonce : Bytes} {f : TransactionContext → Traced RequestError α}
    (hf : ∀ c, Follows p digests key message signature (f c)) :
    Follows p ((nonce ++ identity.serialize) :: digests) key message signature
      (TransactionContext.derive p identity nonce >>= f) := by
  rw [TransactionContext.derive, bind_assoc]
  exact digest fun text _ => hf ⟨nonce, identity.serialize, text⟩

theorem signPayload {identity : SigningIdentity} {txId : String} {header : Message.Header} {data : Bytes} :
    Follows p [] identity.key (fun e => e.envelope.payload) (fun e => e.envelope.signature)
      (Fabric.signPayload p identity txId header data) :=
  sign (fun _ => rfl) fun _ => rfl

/-- For a content the certificate is hashed, if there is one, then nonce and creator, and the proposal is signed. -/
theorem signContent (c : ProposalContent) {w : Surroundings} {s : Settings} {identity : SigningIdentity}
    (nonce : Option Bytes) :
    Follows p (certificateContents p c.tlsCertificate ++ [nonce.getD (w.nonce s) ++ identity.serialize])
      identity.key (fun e : EndorsementProposal => e.signed.proposal) (fun e => e.signed.signature)
      (c.sign p w s identity nonce) := by
  -- the digests are due before the proposal is there to be signed
  refine tlsCertHash fun certHash => derive fun context => ?_
  dsimp only
  generalize c.proposal context w.now certHash = proposal
  -- kept apart from what it encodes, which unification would unfold
  generalize Wire.encode proposal = bytes
  refine sign (f := fun g => (⟨⟨bytes, g⟩, proposal, context.txId⟩ : EndorsementProposal)) ?_ ?_
  · exact fun _ => rfl
  · exact fun _ => rfl

end Follows

structure Disciplined (p : Provider) (digests : List Bytes) (key : String) (message signature : α → Bytes)
    (x : Traced RequestError α) : Prop where
  inOrder : ∃ m, x.calls <+: plannedCalls digests key m
  signsLast : ∀ c ∈ x.calls.dropLast, c.isSign = false
  refused : ∀ e, x.outcome = .error e → e.IsRefusal → x.calls = []
  failed : ∀ before c after e, x.calls = before ++ c :: after → p.answer c = .error e →
    after = [] ∧ x.outcome = .error (.crypto e)
  completed : (∃ a, x.outcome = .ok a) ↔
    (∃ m, x.calls = plannedCalls digests key m) ∧ ∀ c ∈ x.calls, p.answer c = .ok ()
  signed : ∀ a, x.outcome = .ok a →
    x.calls = plannedCalls digests key (message a) ∧ p.sign key (message a) = .ok (signature a)

namespace Disciplined

variable {p : Provider} {digests : List Bytes} {key : String} {message signature : α → Bytes}

theorem stopped (e : RequestError) : Disciplined p digests key message signature ⟨[], .error e⟩ where
  inOrder := ⟨[], List.nil_prefix⟩
  signsLast := List.forall_mem_nil _
  refused _ _ _ := rfl
  failed before c after e' h := by simp at h
  completed := by
    constructor
    · intro h
      obtain ⟨a, ha⟩ := h
      cases ha
    · intro h
      obtain ⟨⟨m, hm⟩, -⟩ := h
      simp [plannedCalls] at hm
  signed a h := by cases h

theorem of_follows {x : Traced RequestError α} (h : Follows p digests key message signature x) :
    Disciplined p digests key message signature x where
  inOrder := h.inOrder
  signsLast := by
    obtain ⟨m, hm⟩ := h.inOrder
    intro c hc
    -- all but the last call are among the digests
    have hdigests : x.calls.dropLast <+: digests.map (.digest .sha256) := by
      rcases List.prefix_concat_iff.1 hm with heq | hprefix
      · have hdrop : x.calls.dropLast = digests.map (.digest .sha256) := by rw [heq, List.dropLast_concat]
        exact ⟨[], by rw [hdrop, List.append_nil]⟩
      · exact (List.dropLast_prefix _).trans hprefix
    obtain ⟨d, -, rfl⟩ := List.mem_map.1 (hdigests.subset hc)
    rfl
  refused e he hrefused := absurd hrefused (h.notRefused e he)
  failed := h.failed
  completed := by
    constructor
    · intro hok
      obtain ⟨a, ha⟩ := hok
      obtain ⟨hcalls, hanswers, -⟩ := h.signed a ha
      exact ⟨⟨_, hcalls⟩, hanswers⟩
    · intro hall
      exact h.completed hall.1 hall.2
  signed a ha := by
    obtain ⟨hcalls, -, hsign⟩ := h.signed a ha
    exact ⟨hcalls, hsign⟩

/-- What is checked before anything is asked may refuse the request. -/
theorem check {y : Except RequestError β} {f : β → Traced RequestError α}
    (hf : ∀ b, y = .ok b → Disciplined p digests key message signature (f b)) :
    Disciplined p digests key message signature (Traced.ofExcept y >>= f) := by
  cases y with
  | ok b => exact hf b rfl
  | error e => exact stopped e

end Disciplined

theorem signTransaction_disciplined (p : Provider) (identity : SigningIdentity) (proposal : Message.Proposal)
    (responses : List Message.ProposalResponse) :
    Disciplined p [] identity.key (fun e => e.envelope.payload) (fun e => e.envelope.signature)
      (signTransaction p identity proposal responses) := by
  refine .check fun header _ => .check fun signatureHeader _ => .check fun channelHeader _ => .check fun _ _ => ?_
  cases responsePayload? responses with
  | none => exact .stopped _
  | some responsePayload => exact .check fun payload _ => .of_follows .signPayload

section

variable (p : Provider) (w : Surroundings) (s : Settings)

theorem EndorsementRequest.sign_refused {r : EndorsementRequest} {e : RequestError} (h : r.validate = .error e)
    (nonce : Option Bytes) : r.sign p w s nonce = ⟨[], .error e⟩ := by
  rw [EndorsementRequest.sign, h]
  rfl

theorem EndorsementRequest.sign_accepted {r : EndorsementRequest} {identity : SigningIdentity} {tls : Option String}
    (h : r.validate = .ok (identity, tls)) (nonce : Option Bytes) :
    r.sign p w s nonce =
      ProposalContent.sign ⟨r.channelId, r.spec s, r.transientMap, tls⟩ p w s identity nonce := by
  rw [EndorsementRequest.sign, h]
  rfl

/-- A certificate that cannot be read ends a request before anything is asked. -/
theorem tlsCertHash_bind_unreadable {pem : String} {e : CryptoError} (h : p.der pem = .error e)
    (f : Bytes → Traced RequestError α) : (tlsCertHash p (some pem) >>= f) = ⟨[], .error (.crypto e)⟩ := by
  rw [tlsCertHash, h]
  rfl

theorem SeekRequest.sign_disciplined (r : SeekRequest) :
    Disciplined p (certificateContents p r.tlsCertificate ++ [w.nonce s ++ r.identity.serialize]) r.identity.key
      (fun e => e.envelope.payload) (fun e => e.envelope.signature) (r.sign p w s) :=
  .check fun _ _ => .of_follows (.tlsCertHash fun _ => .derive fun _ => .signPayload)

theorem LifecycleCall.sign_disciplined (c : LifecycleCall) (identity : SigningIdentity) (channelId : String) :
    Disciplined p [w.nonce s ++ identity.serialize] identity.key (fun e => e.signed.proposal)
      (fun e => e.signed.signature) (c.sign p w s identity channelId) :=
  .check fun channelId _ => .of_follows (.signContent (c.content s channelId) none)

theorem ConfigUpdate.approve_disciplined (identity : SigningIdentity) (update : Bytes) :
    Disciplined p [] identity.key (fun a => a.signatureHeader ++ update) (fun a => a.signature)
      (ConfigUpdate.approve p w s identity update) :=
  .check fun _ _ => .of_follows (.sign (fun _ => rfl) fun _ => rfl)

theorem ConfigUpdate.sign_disciplined (identity : SigningIdentity) (channelId : String) (update : Bytes)
    (signatures : List Message.ConfigSignature) :
    Disciplined p [w.nonce s ++ identity.serialize] identity.key (fun e => e.envelope.payload)
      (fun e => e.envelope.signature) (ConfigUpdate.sign p w s identity channelId update signatures) :=
  .check fun _ _ => .of_follows (.derive fun _ => .signPayload)

/-- Every builder asks for the digests that its kind of request is made with and then for the signature on what it
returns, and for nothing on behalf of a request that is refused. -/
theorem builders_disciplined :
    (∀ (r : EndorsementRequest) (nonce : Option Bytes),
      (∀ e, r.validate = .error e →
        (∃ first more, e = .validation (first :: more)) ∧ r.sign p w s nonce = ⟨[], .error e⟩) ∧
      ∀ identity tls, r.validate = .ok (identity, tls) →
        Disciplined p (certificateContents p tls ++ [nonce.getD (w.nonce s) ++ identity.serialize]) identity.key
          (fun e => e.signed.proposal) (fun e => e.signed.signature) (r.sign p w s nonce) ∧
        ∀ pem e, tls = some pem → p.der pem = .error e → r.sign p w s nonce = ⟨[], .error (.crypto e)⟩) ∧
    (∀ (c : LifecycleCall) (identity : SigningIdentity) (channelId : String),
      Disciplined p [w.nonce s ++ identity.serialize] identity.key
        (fun e => e.signed.proposal) (fun e => e.signed.signature) (c.sign p w s identity channelId)) ∧
    (∀ r : SeekRequest,
      Disciplined p (certificateContents p r.tlsCertificate ++ [w.nonce s ++ r.identity.serialize]) r.identity.key
        (fun e => e.envelope.payload) (fun e => e.envelope.signature) (r.sign p w s) ∧
      ∀ pem e, r.validate = .ok () → r.tlsCertificate = some pem → p.der pem = .error e →
        r.sign p w s = ⟨[], .error (.crypto e)⟩) ∧
    (∀ (identity : SigningIdentity) (update : Bytes),
      Disciplined p [] identity.key
        (fun a => a.signatureHeader ++ update) (fun a => a.signature) (ConfigUpdate.approve p w s identity update)) ∧
    (∀ (identity : SigningIdentity) (channelId : String) (update : Bytes)
      (signatures : List Message.ConfigSignature),
      Disciplined p [w.nonce s ++ identity.serialize] identity.key
        (fun e => e.envelope.payload) (fun e => e.envelope.signature)
        (ConfigUpdate.sign p w s identity channelId update signatures)) ∧
    ∀ (identity : SigningIdentity) (proposal : Message.Proposal) (responses : List Message.ProposalResponse),
      Disciplined p [] identity.key (fun e => e.envelope.payload) (fun e => e.envelope.signature)
        (signTransaction p identity proposal responses) := by
  refine ⟨fun r nonce => ⟨?refused, ?accepted⟩, LifecycleCall.sign_disciplined p w s,
    fun r => ⟨SeekRequest.sign_disciplined p w s r, ?unreadable⟩, ConfigUpdate.approve_disciplined p w s,
    ConfigUpdate.sign_disciplined p w s, signTransaction_disciplined p⟩
  case refused =>
    intro e h
    exact ⟨r.exists_validation h, r.sign_refused p w s h nonce⟩
  case accepted =>
    intro identity tls h
    rw [r.sign_accepted p w s h nonce]
    refine ⟨.of_follows (.signContent ⟨r.channelId, r.spec s, r.transientMap, tls⟩ nonce), ?_⟩
    intro pem e htls hder
    subst htls
    exact tlsCertHash_bind_unreadable p hder _
  case unreadable =>
    intro pem e hcheck htls hder
    rw [SeekRequest.sign, hcheck, htls]
    exact tlsCertHash_bind_unreadable p hder _

end

theorem builders_disciplined_certificate :
    let p : Provider := ⟨fun _ m => .ok (1 :: m), fun _ _ => .ok "0a",
      fun pem => if pem = "-----BEGIN T" then .ok [48] else .error .invalidKey⟩
    let w : Surroundings := ⟨⟨0, 0⟩, fun n => List.replicate n 7⟩
    let i : SigningIdentity := ⟨"Org1MSP", " -----BEGIN C", "-----BEGIN K"⟩
    let r : String → EndorsementRequest := fun tls =>
      { EndorsementRequest.ofIdentity i "ch" "cc" with tlsCertificate := some (PemText.wrap tls) }
    let seek : SeekRequest := ⟨i, "ch", .oldest, .newest, .failIfNotReady, some "no armour"⟩
    (∃ e, ((r "-----BEGIN T").sign p w {} none).outcome = .ok e ∧
      ((r "-----BEGIN T").sign p w {} none).calls = [.digest .sha256 [48],
        .digest .sha256 (List.replicate 24 7 ++ i.serialize), .sign i.key e.signed.proposal] ∧
      e.signed.signature = 1 :: e.signed.proposal) ∧
    (r "-----BEGIN").sign p w {} none = ⟨[], .error (.crypto .invalidKey)⟩ ∧
    seek.sign p w {} = ⟨[], .error (.crypto .invalidKey)⟩ ∧
    EndorsementRequest.sign { r "-----BEGIN T" with channelId := " " } p w {} none =
      ⟨[], .error (.validation [⟨"channel_id", .required⟩])⟩ := by
  intro p w i r seek
  have hi : i.Wrappable := ⟨by decide, by decide, by decide⟩
  have hchannel : Text.isBlankText "ch" = false := by decide
  have hchaincode : Text.isBlankText "cc" = false := by decide
  have htls {tls : String} (hmark : PemText.mark.isPrefixOf (Text.trimStart tls.toList) = true) :
      EndorsementRequest.checkTlsCertificate (some (PemText.wrap tls)) = .accepted (some tls) := by
    rw [EndorsementRequest.checkTlsCertificate, SigningIdentity.checkPem_wrap hmark]
    rfl
  have hcheck {tls : String} (hmark : PemText.mark.isPrefixOf (Text.trimStart tls.toList) = true) :
      (r tls).validate = .ok (i, some tls) :=
    EndorsementRequest.validate_of_identity hi rfl rfl rfl hchannel hchaincode (htls hmark) (List.forall_mem_nil _)
  have hblank : EndorsementRequest.validate { r "-----BEGIN T" with channelId := " " } =
      .error (.validation [⟨"channel_id", .required⟩]) := by
    have hchannel : Text.isBlankText " " = true := by decide
    have hmark : PemText.mark.isPrefixOf (Text.trimStart "-----BEGIN T".toList) = true := by decide
    rw [EndorsementRequest.validate_eq]
    simp only [EndorsementRequest.check, r, EndorsementRequest.ofIdentity, hi.checkWrapped_wrap, Checked.present,
      hchannel, hchaincode, htls hmark]
    rfl
  have hseekCheck : seek.validate = .ok () := by
    rw [SeekRequest.validate, Collecting.require_of_not_blank (by decide)]
    rfl
  obtain ⟨hrequest, -, hseek, -⟩ := builders_disciplined p w {}
  refine ⟨?_, ?_, ?_, ?_⟩
  · have hplan := ((hrequest (r "-----BEGIN T") none).2 i (some "-----BEGIN T") (hcheck (by decide))).1
    obtain ⟨e, he⟩ : ∃ e, ((r "-----BEGIN T").sign p w {} none).outcome = .ok e := by
      rw [EndorsementRequest.sign_accepted p w {} (hcheck (by decide))]
      exact ⟨_, rfl⟩
    obtain ⟨hcalls, hsign⟩ := hplan.signed e he
    exact ⟨e, he, hcalls, (Except.ok.inj hsign).symm⟩
  · exact ((hrequest (r "-----BEGIN") none).2 i (some "-----BEGIN") (hcheck (by decide))).2 _ _ rfl rfl
  · exact (hseek seek).2 "no armour" _ hseekCheck rfl rfl
  · exact ((hrequest _ none).1 _ hblank).2

end Fabric

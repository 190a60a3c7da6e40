import Fabric.Proofs.Request.Proposal

namespace Fabric

open Message (Proposal ProposalResponse)
open Wire (Passes)

namespace SigningIdentity

open PemText (Form)

section

variable {pem : String} (hmark : PemText.mark.isPrefixOf (Text.trimStart pem.toList) = true)
include hmark

/-- The form of the certificate makes no difference to what is refused. -/
theorem checkWrapped_write (mspId key : String) (f : Form) :
    checkWrapped mspId (f.write pem) key =
      (fun key => ⟨mspId, f.read pem, key⟩) <$>
        ((fun _ key => key) <$> Checked.present "msp_id" mspId <*> checkPem "client_prv_key_b64pem" key) := by
  rw [checkWrapped, checkPem_write hmark]
  cases Checked.present "msp_id" mspId with
  | accepted u => cases checkPem "client_prv_key_b64pem" key <;> rfl
  | refused first more =>
    -- an accepted certificate adds nothing to what stands against the rest
    change Checked.refused first (more ++ [] ++ (checkPem "client_prv_key_b64pem" key).violations) = _
    rw [List.append_nil]
    rfl

theorem ofWrappedPem_write (mspId key : String) (f : Form) :
    ofWrappedPem mspId (f.write pem) key =
      (ofWrappedPem mspId (PemText.wrap pem) key).map fun i => { i with certificate := f.read pem } := by
  have hwrap : checkWrapped mspId (PemText.wrap pem) key = _ := checkWrapped_write hmark mspId key .wrapped
  rw [ofWrappedPem_eq, ofWrappedPem_eq, checkWrapped_write hmark, hwrap]
  cases (fun _ key => key) <$> Checked.present "msp_id" mspId <*> checkPem "client_prv_key_b64pem" key with
  | accepted key => rfl
  | refused first more => rfl

end

/-- Within an organisation, creators are told apart by their certificates, to the last byte. -/
theorem serialize_eq_iff {mspId a b key key' : String} :
    (⟨mspId, a, key⟩ : SigningIdentity).serialize = (⟨mspId, b, key'⟩ : SigningIdentity).serialize ↔ a = b := by
  have hserialize (c k : String) : (⟨mspId, c, k⟩ : SigningIdentity).serialize =
      Wire.Value.encodeFields (Wire.Fields.putText 1 mspId) ++
        Wire.Value.encodeFields (Wire.Fields.putBytes 2 (Bytes.ofText c)) := by
    rw [← Wire.Value.encodeFields_append]
    rfl
  rw [hserialize, hserialize]
  constructor
  · intro h
    have hbytes := Wire.Value.encodeFields_putBytes_injective (List.append_cancel_left h)
    have htexts := congrArg Bytes.toText? hbytes
    rw [Bytes.toText?_ofText, Bytes.toText?_ofText] at htexts
    exact Option.some.inj htexts
  · intro h
    rw [h]

inductive Proposes (i : SigningIdentity) : EndorsementProposal → Prop
  | request {r : EndorsementRequest} {p : Provider} {w : Surroundings} {s : Settings} {nonce : Option Bytes}
    {e : EndorsementProposal} (hi : ofWrappedPem r.mspId r.certificate r.key = .ok i)
    (hmap : Keyed.Ordered r.transientMap) (he : (r.sign p w s nonce).outcome = .ok e) : Proposes i e
  | call {c : LifecycleCall} {p : Provider} {w : Surroundings} {s : Settings} {channelId : String}
    {e : EndorsementProposal} (he : (c.sign p w s i channelId).outcome = .ok e) : Proposes i e

/-- What an identity proposes has some content, and the identity for its creator. -/
theorem Proposes.exists_content {i : SigningIdentity} {e : EndorsementProposal} (h : i.Proposes e) :
    ∃ (c : ProposalContent) (context : TransactionContext) (now : Message.Timestamp) (certHash : Bytes),
      Keyed.Ordered c.transientMap ∧ context.creator = i.serialize ∧ e.proposal = c.proposal context now certHash := by
  cases h with
  | request hi hmap he =>
    obtain ⟨identity, tls, hcheck, he⟩ := EndorsementRequest.sign_of_outcome he
    obtain ⟨hidentity, -⟩ := EndorsementRequest.parts_of_validate hcheck
    rw [ofWrappedPem_eq, hidentity] at hi
    obtain rfl := Except.ok.inj hi
    obtain ⟨context, certHash, hcreator, -, hproposal, -⟩ := ProposalContent.sign_of_outcome he
    exact ⟨_, context, _, certHash, hmap, hcreator, hproposal⟩
  | call he =>
    obtain ⟨channelId, -, he⟩ := Traced.outcome_bind_eq_ok_iff.1 he
    obtain ⟨context, certHash, hcreator, -, hproposal, -⟩ := ProposalContent.sign_of_outcome he
    exact ⟨_, context, _, certHash, List.Pairwise.nil, hcreator, hproposal⟩

def Commits (i : SigningIdentity) (proposal : Proposal) : Prop :=
  ∀ (q : Provider) (responses : List ProposalResponse), (∀ m, ∃ signature, q.sign i.key m = .ok signature) →
    (∃ r ∈ responses, r.isEndorsed = true) → ∃ tx, (signTransaction q i proposal responses).outcome = .ok tx

def IsOther (i : SigningIdentity) (proposal : Proposal) : Prop :=
  ∀ (q : Provider) (responses : List ProposalResponse),
    signTransaction q i proposal responses = ⟨[], .error (.validation [⟨"identity", .notCreator⟩])⟩

section

variable {i j : SigningIdentity} {e : EndorsementProposal} (h : i.Proposes e)
  (hpasses : Passes (Wire.encode e.proposal))
include h hpasses

theorem Proposes.commits (hsame : i.serialize = j.serialize) : j.Commits e.proposal := by
  obtain ⟨c, context, now, certHash, hmap, hcreator, hproposal⟩ := h.exists_content
  rw [hproposal] at hpasses ⊢
  have hread := ProposalContent.committable hpasses (hcreator.trans hsame) hmap
  intro q responses hsign hsome
  exact hread.exists_outcome hsome hsign

theorem Proposes.isOther (hother : i.serialize ≠ j.serialize) : j.IsOther e.proposal := by
  obtain ⟨c, context, now, certHash, hmap, hcreator, hproposal⟩ := h.exists_content
  rw [hproposal] at hpasses ⊢
  have hread := ProposalContent.committable hpasses hcreator hmap
  have hnotCreator : context.signatureHeader.creator ≠ j.serialize := by
    rw [TransactionContext.signatureHeader, hcreator]
    exact hother
  intro q responses
  exact signTransaction_of_other hread.headerRead (ProposalContent.decode_signatureHeader hpasses)
    hread.channelHeaderRead hnotCreator q responses

end

end SigningIdentity

open PemText (Form)

/-- The two forms of a text in armour stand for one certificate, and for one creator, exactly if the text has no blanks
at its ends: then each may commit what the other proposes. Otherwise what is proposed in one form is another's in the
other. Whether anything else is refused does not depend on the form. -/
theorem armour_forms_agree_iff {pem : String} (hmark : PemText.mark.isPrefixOf (Text.trimStart pem.toList) = true)
    {f g : Form} (hfg : f ≠ g) :
    (∀ field, PemText.unwrap field pem = .ok (Text.trim pem) ∧ PemText.unwrap field (PemText.wrap pem) = .ok pem ∧
      (PemText.unwrap field pem = PemText.unwrap field (PemText.wrap pem) ↔ Text.trim pem = pem)) ∧
    ∀ mspId key,
      (∀ error, SigningIdentity.ofWrappedPem mspId (f.write pem) key = .error error →
        SigningIdentity.ofWrappedPem mspId (g.write pem) key = .error error) ∧
      ∀ i, SigningIdentity.ofWrappedPem mspId (f.write pem) key = .ok i →
        ∃ j, SigningIdentity.ofWrappedPem mspId (g.write pem) key = .ok j ∧
          (i.serialize = j.serialize ↔ Text.trim pem = pem) ∧
          ∀ e, i.Proposes e → Passes (Wire.encode e.proposal) →
            (Text.trim pem = pem → j.Commits e.proposal) ∧ (Text.trim pem ≠ pem → j.IsOther e.proposal) := by
  refine ⟨?texts, ?identities⟩
  case texts =>
    intro field
    have hplain := PemText.unwrap_plain hmark field
    have hwrapped := PemText.unwrap_wrap hmark field
    refine ⟨hplain, hwrapped, ?_⟩
    rw [hplain, hwrapped, Except.ok.injEq]
  case identities =>
    intro mspId key
    -- in either form the outcome is that of the wrapped text, but for the certificate in it
    rw [SigningIdentity.ofWrappedPem_write hmark mspId key f, SigningIdentity.ofWrappedPem_write hmark mspId key g]
    cases SigningIdentity.ofWrappedPem mspId (PemText.wrap pem) key with
    | error refusal =>
      refine ⟨fun error h => h, ?_⟩
      intro i hi
      cases hi
    | ok k =>
      refine ⟨?refused, ?accepted⟩
      case refused =>
        intro error herror
        cases herror
      case accepted =>
        intro i hi
        obtain rfl := Except.ok.inj hi
        have hsame : (⟨k.mspId, f.read pem, k.key⟩ : SigningIdentity).serialize =
            (⟨k.mspId, g.read pem, k.key⟩ : SigningIdentity).serialize ↔ Text.trim pem = pem := by
          rw [SigningIdentity.serialize_eq_iff, Form.read_eq_read_iff hfg]
        refine ⟨_, rfl, hsame, ?_⟩
        intro e he hpasses
        exact ⟨fun htrim => he.commits hpasses (hsame.2 htrim), fun htrim => he.isOther hpasses (mt hsame.1 htrim)⟩

/-- A proposal of the plain form, committed by the wrapped one. -/
theorem armour_forms_agree_iff_committed :
    let pem := "-----BEGIN X"
    let p : Provider := ⟨fun _ m => .ok (m.take 2), fun _ _ => .ok "0a", fun _ => .error .invalidKey⟩
    let w : Surroundings := ⟨⟨0, 0⟩, fun n => List.replicate n 7⟩
    let r : EndorsementRequest :=
      { mspId := "Org1MSP", certificate := pem, key := "-----BEGIN K", channelId := "ch", chaincodeId := "cc" }
    let endorsed : ProposalResponse := ⟨1, none, some ⟨200, "", []⟩, [1], some ⟨[1], [2]⟩⟩
    PemText.mark.isPrefixOf (Text.trimStart pem.toList) = true ∧ Text.trim pem = pem ∧
      ∃ e j tx, (r.sign p w {} none).outcome = .ok e ∧
        SigningIdentity.ofWrappedPem r.mspId (PemText.wrap pem) r.key = .ok j ∧
        (signTransaction p j e.proposal [endorsed]).outcome = .ok tx := by
  intro pem p w r endorsed
  have hmark : PemText.mark.isPrefixOf (Text.trimStart pem.toList) = true := by decide
  have htrim : Text.trim pem = pem := by decide
  obtain ⟨-, hidentities⟩ := armour_forms_agree_iff hmark (show Form.plain ≠ .wrapped by decide)
  obtain ⟨-, haccepted⟩ := hidentities r.mspId r.key
  have hi : SigningIdentity.ofWrappedPem r.mspId pem r.key = .ok ⟨r.mspId, Text.trim pem, Text.trim r.key⟩ := by
    rw [SigningIdentity.ofWrappedPem_eq, Checked.toExcept_eq_ok_iff]
    exact SigningIdentity.checkWrapped_of_forms (by decide) hmark (by decide) .plain .plain
  obtain ⟨j, hj, -, hproposed⟩ := haccepted _ hi
  obtain ⟨e, he, hpasses⟩ : ∃ e, (r.sign p w {} none).outcome = .ok e ∧ Passes (Wire.encode e.proposal) :=
    exists_ok_of_any (by decide +kernel)
  obtain ⟨hcommits, -⟩ := hproposed e (.request (r := r) hi List.Pairwise.nil he) hpasses
  obtain ⟨tx, htx⟩ := hcommits htrim p [endorsed] (fun m => ⟨_, rfl⟩) ⟨endorsed, List.mem_singleton_self _, rfl⟩
  exact ⟨hmark, htrim, e, j, tx, he, hj, htx⟩

/-- A line end is enough: the identity of the wrapped form is told that the proposal is not its own. -/
theorem armour_forms_line_end :
    let pem := "-----BEGIN X\n"
    let p : Provider := ⟨fun _ m => .ok (m.take 2), fun _ _ => .ok "0a", fun _ => .error .invalidKey⟩
    let w : Surroundings := ⟨⟨0, 0⟩, fun n => List.replicate n 7⟩
    let r : EndorsementRequest :=
      { mspId := "Org1MSP", certificate := pem, key := "-----BEGIN K", channelId := "ch", chaincodeId := "cc" }
    let endorsed : ProposalResponse := ⟨1, none, some ⟨200, "", []⟩, [1], some ⟨[1], [2]⟩⟩
    PemText.mark.isPrefixOf (Text.trimStart pem.toList) = true ∧
    (∀ field, PemText.unwrap field pem ≠ PemText.unwrap field (PemText.wrap pem)) ∧
    ∃ i j e, SigningIdentity.ofWrappedPem r.mspId pem r.key = .ok i ∧
      SigningIdentity.ofWrappedPem r.mspId (PemText.wrap pem) r.key = .ok j ∧ i.serialize ≠ j.serialize ∧
      (r.sign p w {} none).outcome = .ok e ∧
      (∃ tx, (signTransaction p i e.proposal [endorsed]).outcome = .ok tx) ∧
      (signTransaction p j e.proposal [endorsed]).outcome = .error (.validation [⟨"identity", .notCreator⟩]) := by
  intro pem p w r endorsed
  have hmark : PemText.mark.isPrefixOf (Text.trimStart pem.toList) = true := by decide
  have htrim : Text.trim pem ≠ pem := by decide
  let identity (f : Form) : SigningIdentity := ⟨r.mspId, f.read pem, Text.trim r.key⟩
  have hidentity (f : Form) : SigningIdentity.ofWrappedPem r.mspId (f.write pem) r.key = .ok (identity f) := by
    rw [SigningIdentity.ofWrappedPem_eq, Checked.toExcept_eq_ok_iff]
    exact SigningIdentity.checkWrapped_of_forms (by decide) hmark (by decide) f .plain
  have hother : (identity .plain).serialize ≠ (identity .wrapped).serialize :=
    mt SigningIdentity.serialize_eq_iff.1 htrim
  obtain ⟨e, he, hpasses⟩ : ∃ e, (r.sign p w {} none).outcome = .ok e ∧ Passes (Wire.encode e.proposal) :=
    exists_ok_of_any (by decide +kernel)
  have hproposes := SigningIdentity.Proposes.request (r := r) (hidentity .plain) List.Pairwise.nil he
  refine ⟨hmark, ?texts, _, _, e, hidentity .plain, hidentity .wrapped, hother, he, ?own, ?other⟩
  case texts =>
    intro field
    rw [PemText.unwrap_plain hmark, PemText.unwrap_wrap hmark, ne_eq, Except.ok.injEq]
    exact htrim
  case own =>
    exact hproposes.commits hpasses rfl p [endorsed] (fun m => ⟨_, rfl⟩) ⟨endorsed, List.mem_singleton_self _, rfl⟩
  case other => rw [hproposes.isOther hpasses hother]

end Fabric

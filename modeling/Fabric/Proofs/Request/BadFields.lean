import Fabric.Proofs.Crypto.Unwrapping
import Fabric.Proofs.Request.Discipline
import Fabric.Proofs.Request.Violations
import Mathlib.Tactic.MkIffOfInductiveProp

namespace Fabric

inductive RequestField
  | mspId
  | certificate
  | key
  | channelId
  | chaincodeId
  | tlsCertificate
  | transientMap

namespace RequestField

def ofIdentity : List RequestField := [.mspId, .certificate, .key]

def inOrder : List RequestField := ofIdentity ++ [.channelId, .chaincodeId, .tlsCertificate, .transientMap]

end RequestField

@[mk_iff]
inductive SigningIdentity.BadField (mspId certificate key : String) : RequestField → Violation → Prop
  | mspId (h : Text.isBlankText mspId = true) : BadField mspId certificate key .mspId ⟨"msp_id", .required⟩
  | certificate {reason : Reason} (h : PemText.Unreadable "client_cert_b64pem" certificate reason) :
    BadField mspId certificate key .certificate ⟨"client_cert_b64pem", reason⟩
  | key {reason : Reason} (h : PemText.Unreadable "client_prv_key_b64pem" key reason) :
    BadField mspId certificate key .key ⟨"client_prv_key_b64pem", reason⟩

@[mk_iff]
inductive EndorsementRequest.BadField (r : EndorsementRequest) : RequestField → Violation → Prop
  | identity {field : RequestField} {v : Violation} (h : SigningIdentity.BadField r.mspId r.certificate r.key field v) :
    BadField r field v
  | channelId (h : Text.isBlankText r.channelId = true) : BadField r .channelId ⟨"channel_id", .required⟩
  | chaincodeId (h : Text.isBlankText r.chaincodeId = true) : BadField r .chaincodeId ⟨"chaincode_id", .required⟩
  | tlsCertificate {value : String} {reason : Reason} (hgiven : r.tlsCertificate = some value)
    (h : PemText.Unreadable "client_tls_cert_b64pem" value reason) :
    BadField r .tlsCertificate ⟨"client_tls_cert_b64pem", reason⟩
  | transientMap {value : Bytes} (h : ("", value) ∈ r.transientMap) :
    BadField r .transientMap ⟨"transient_map", .emptyKeys⟩

namespace SigningIdentity

theorem lists_checkPem {ρ : Type} {Breaks : ρ → Violation → Prop} {rule : ρ} {field value : String}
    (h : ∀ v, Breaks rule v ↔ ∃ reason, PemText.Unreadable field value reason ∧ v = ⟨field, reason⟩) :
    Lists Breaks [rule] (checkPem field value).violations := by
  obtain ⟨pem, hread⟩ | ⟨reason, hreason⟩ := PemText.readAs_or_unreadable field value
  · -- a text that is read is not unreadable as well: the check has one result
    have haccepted : checkPem field value = .accepted pem := checkPem_of_readAs hread
    rw [haccepted]
    apply Lists.kept _ .nil
    intro v hv
    obtain ⟨reason, hreason, -⟩ := (h v).1 hv
    rw [checkPem_of_unreadable hreason] at haccepted
    cases haccepted
  · rw [checkPem_of_unreadable hreason]
    exact .broken ((h _).2 ⟨reason, hreason, rfl⟩) .nil

theorem checkWrapped_eq_accepted_iff {mspId certificate key : String} {i : SigningIdentity} :
    checkWrapped mspId certificate key = .accepted i ↔ Text.isBlankText mspId = false ∧ i.mspId = mspId ∧
      PemText.ReadAs certificate i.certificate ∧ PemText.ReadAs key i.key := by
  constructor
  · intro h
    obtain ⟨_, keyText, hcertified, hkey, rfl⟩ := Checked.seq_eq_accepted_iff.1 h
    obtain ⟨_, certificateText, hnamed, hcertificate, rfl⟩ := Checked.seq_eq_accepted_iff.1 hcertified
    obtain ⟨_, hpresent, rfl⟩ := Checked.map_eq_accepted_iff.1 hnamed
    exact ⟨Checked.not_blank_of_present hpresent, rfl, checkPem_eq_accepted_iff.1 hcertificate,
      checkPem_eq_accepted_iff.1 hkey⟩
  · intro h
    obtain ⟨hmsp, rfl, hcertificate, hkey⟩ := h
    rw [checkWrapped, Checked.present_of_not_blank hmsp, checkPem_of_readAs hcertificate, checkPem_of_readAs hkey]
    rfl

theorem lists_checkWrapped (mspId certificate key : String) :
    Lists (BadField mspId certificate key) RequestField.ofIdentity (checkWrapped mspId certificate key).violations := by
  have hmsp : Lists (BadField mspId certificate key) [.mspId] (Checked.present "msp_id" mspId).violations := by
    apply Lists.present
    simp [badField_iff]
  have hcertificate : Lists (BadField mspId certificate key) [.certificate]
      (checkPem "client_cert_b64pem" certificate).violations := by
    apply lists_checkPem
    simp [badField_iff]
  have hkey : Lists (BadField mspId certificate key) [.key] (checkPem "client_prv_key_b64pem" key).violations := by
    apply lists_checkPem
    simp [badField_iff]
  simp only [checkWrapped, Checked.violations_seq, Checked.violations_map]
  exact (hmsp.append hcertificate).append hkey

end SigningIdentity

namespace EndorsementRequest

variable (r : EndorsementRequest)

theorem lists_checkTlsCertificate :
    Lists r.BadField [.tlsCertificate] (checkTlsCertificate r.tlsCertificate).violations := by
  cases hgiven : r.tlsCertificate with
  | none =>
    apply Lists.kept _ .nil
    simp [badField_iff, SigningIdentity.badField_iff, hgiven]
  | some value =>
    rw [checkTlsCertificate, Checked.violations_map]
    apply SigningIdentity.lists_checkPem
    simp [badField_iff, SigningIdentity.badField_iff, hgiven]

theorem lists_check : Lists r.BadField RequestField.inOrder r.check.violations := by
  have hidentity : Lists r.BadField RequestField.ofIdentity
      (SigningIdentity.checkWrapped r.mspId r.certificate r.key).violations := by
    apply (SigningIdentity.lists_checkWrapped r.mspId r.certificate r.key).congr
    simp [RequestField.ofIdentity, badField_iff]
  have hchannel : Lists r.BadField [.channelId] (Checked.present "channel_id" r.channelId).violations := by
    apply Lists.present
    simp [badField_iff, SigningIdentity.badField_iff]
  have hchaincode : Lists r.BadField [.chaincodeId] (Checked.present "chaincode_id" r.chaincodeId).violations := by
    apply Lists.present
    simp [badField_iff, SigningIdentity.badField_iff]
  have htransient : Lists r.BadField [.transientMap]
      (Checked.require (!r.transientMap.any fun e => e.1.isEmpty) "transient_map" .emptyKeys).violations := by
    apply Lists.require
    simp [badField_iff, SigningIdentity.badField_iff]
  simp only [check, Checked.violations_seq, Checked.violations_map]
  exact (((hidentity.append hchannel).append hchaincode).append r.lists_checkTlsCertificate).append htransient

/-- The certificate that is named is read as the other texts are. -/
theorem rel_of_checkTlsCertificate {given tls : Option String} (h : checkTlsCertificate given = .accepted tls) :
    Option.Rel PemText.ReadAs given tls := by
  cases given with
  | none =>
    obtain rfl := Checked.accepted.inj h
    exact .none
  | some value =>
    obtain ⟨pem, hpem, rfl⟩ := Checked.map_eq_accepted_iff.1 h
    exact .some (SigningIdentity.checkPem_eq_accepted_iff.1 hpem)

variable (p : Provider) (w : Surroundings) (s : Settings) (nonce : Option Bytes)

theorem sign_reports : Reports r.BadField RequestField.inOrder (r.sign p w s nonce).outcome := by
  apply r.lists_check.reports
  · intro first more h
    have hrefused : r.validate = .error (.validation (first :: more)) := by
      rw [validate_eq, h]
      rfl
    rw [r.sign_refused p w s hrefused]
  · intro accepted h vs hrefused
    rw [r.sign_accepted p w s (validate_eq_ok_iff.2 h)] at hrefused
    exact (Follows.signContent _ nonce).notRefused _ hrefused trivial

/-- Nothing is asked of the provider for a request that is not valid. -/
theorem calls_of_validation {vs : List Violation} (h : (r.sign p w s nonce).outcome = .error (.validation vs)) :
    (r.sign p w s nonce).calls = [] := by
  cases hvalidate : r.validate with
  | error e => rw [r.sign_refused p w s hvalidate]
  | ok accepted =>
    rw [r.sign_accepted p w s hvalidate] at h
    exact absurd trivial ((Follows.signContent _ nonce).notRefused _ h)

/-- A request without bad fields is signed by the identity in it. -/
theorem exists_signed_by (h : ∀ field ∈ RequestField.inOrder, ∀ v, ¬ r.BadField field v) :
    ∃ certificate key tls, PemText.ReadAs r.certificate certificate ∧ PemText.ReadAs r.key key ∧
      Option.Rel PemText.ReadAs r.tlsCertificate tls ∧
      r.sign p w s nonce = ProposalContent.sign ⟨r.channelId, r.spec s, r.transientMap, tls⟩ p w s
        ⟨r.mspId, certificate, key⟩ nonce := by
  cases hcheck : r.check with
  | refused first more =>
    -- the first violation would be of a field that is bad
    have hlist := r.lists_check
    rw [hcheck] at hlist
    obtain ⟨field, hfield, hbad⟩ := hlist.exists_breaks
    exact absurd hbad (h field hfield first)
  | accepted accepted =>
    obtain ⟨identity, tls⟩ := accepted
    have hvalidate := validate_eq_ok_iff.2 hcheck
    obtain ⟨hidentity, htls⟩ := parts_of_validate hvalidate
    obtain ⟨-, hmsp, hcertificate, hkey⟩ := SigningIdentity.checkWrapped_eq_accepted_iff.1 hidentity
    refine ⟨identity.certificate, identity.key, tls, hcertificate, hkey, rel_of_checkTlsCertificate htls, ?_⟩
    rw [r.sign_accepted p w s hvalidate, ← hmsp]

end EndorsementRequest

/-- A request is refused for its fields exactly if one of them is bad, with all that are, and before anything is asked of
a provider. If none is, the identity that signs has the organisation's id as it was given and the texts that the fields
are read as. The same goes for an identity that is made of its fields alone: it is missing exactly where something was
found in them, so that it is never asked for in vain. -/
theorem requests_report_bad_fields (p : Provider) (w : Surroundings) (s : Settings) :
    (∀ (r : EndorsementRequest) (nonce : Option Bytes),
      Reports r.BadField RequestField.inOrder (r.sign p w s nonce).outcome ∧
      (∀ vs, (r.sign p w s nonce).outcome = .error (.validation vs) → (r.sign p w s nonce).calls = []) ∧
      ((∀ field ∈ RequestField.inOrder, ∀ v, ¬ r.BadField field v) →
        ∃ certificate key tls, PemText.ReadAs r.certificate certificate ∧ PemText.ReadAs r.key key ∧
          Option.Rel PemText.ReadAs r.tlsCertificate tls ∧
          r.sign p w s nonce = ProposalContent.sign ⟨r.channelId, r.spec s, r.transientMap, tls⟩ p w s
            ⟨r.mspId, certificate, key⟩ nonce)) ∧
    ∀ mspId certificate key,
      Reports (SigningIdentity.BadField mspId certificate key) RequestField.ofIdentity
        (SigningIdentity.ofWrappedPem mspId certificate key) ∧
      (∀ e, SigningIdentity.ofWrappedPem mspId certificate key = .error e →
        ∃ first more, e = .validation (first :: more)) ∧
      (∀ i, SigningIdentity.ofWrappedPem mspId certificate key = .ok i ↔ Text.isBlankText mspId = false ∧
        i.mspId = mspId ∧ PemText.ReadAs certificate i.certificate ∧ PemText.ReadAs key i.key) ∧
      ∀ before, ∃ identity? found,
        (SigningIdentity.collectWrapped mspId certificate key).run before = (identity?, before ++ found) ∧
        (identity? = none ↔ found ≠ []) := by
  constructor
  · intro r nonce
    exact ⟨r.sign_reports p w s nonce, fun _ => r.calls_of_validation p w s nonce, r.exists_signed_by p w s nonce⟩
  · intro mspId certificate key
    have hreports := Checked.reports (SigningIdentity.lists_checkWrapped mspId certificate key)
    rw [SigningIdentity.ofWrappedPem_eq]
    refine ⟨hreports, fun _ => Checked.exists_validation, ?signed, ?missing⟩
    case signed =>
      intro i
      rw [← SigningIdentity.checkWrapped_eq_accepted_iff]
      exact Checked.toExcept_eq_ok_iff
    case missing =>
      intro before
      exact ⟨_, _, SigningIdentity.collectWrapped_gives mspId certificate key before, Checked.toOption_eq_none_iff⟩

/-- A request of which every field is bad, and an identity whose texts are good in either form, blanks included. -/
theorem requests_report_bad_fields_seven :
    let p : Provider := ⟨fun _ m => .ok m, fun _ _ => .ok "0a", fun _ => .error .invalidKey⟩
    let w : Surroundings := ⟨⟨0, 0⟩, fun n => List.replicate n 7⟩
    let r : EndorsementRequest :=
      { mspId := "\u2003\u00a0", certificate := "not base64!", key := PemText.wrap "no armour", channelId := "\t",
        chaincodeId := "", tlsCertificate := some "/w==", transientMap := [("", [1]), ("k", [])] }
    (r.sign p w {} none).calls = [] ∧
      (∃ vs, (r.sign p w {} none).outcome = .error (.validation vs) ∧
        vs.map Violation.message = ["msp_id is required",
          "client_cert_b64pem invalid base64 in client_cert_b64pem: not base64",
          "client_prv_key_b64pem invalid PEM in client_prv_key_b64pem: missing PEM header", "channel_id is required",
          "chaincode_id is required",
          "client_tls_cert_b64pem invalid PEM in client_tls_cert_b64pem: decoded bytes are not UTF-8",
          "transient_map keys must not be empty"] ∧
        Lists r.BadField RequestField.inOrder vs) ∧
      ∃ i, SigningIdentity.ofWrappedPem " Org1MSP" " -----BEGIN C\n" (PemText.wrap " -----BEGIN K\n") = .ok i ∧
        i = ⟨" Org1MSP", "-----BEGIN C", " -----BEGIN K\n"⟩ := by
  intro p w r
  have hmessages : (match (r.sign p w {} none).outcome with
      | .error (.validation vs) => vs.map Violation.message
      | _ => []) = ["msp_id is required", "client_cert_b64pem invalid base64 in client_cert_b64pem: not base64",
        "client_prv_key_b64pem invalid PEM in client_prv_key_b64pem: missing PEM header", "channel_id is required",
        "chaincode_id is required",
        "client_tls_cert_b64pem invalid PEM in client_tls_cert_b64pem: decoded bytes are not UTF-8",
        "transient_map keys must not be empty"] := by
    decide +kernel
  obtain ⟨hrequests, hidentities⟩ := requests_report_bad_fields p w {}
  obtain ⟨hreports, hcalls, -⟩ := hrequests r none
  split at hmessages
  · next vs hrefused =>
    refine ⟨hcalls vs hrefused, ⟨vs, hrefused, hmessages, hreports.lists vs hrefused⟩, ?_⟩
    refine ⟨_, ((hidentities _ _ _).2.2.1 _).2 ⟨by decide, rfl, ?certificate, ?key⟩, rfl⟩
    case certificate =>
      have htrim : Text.trim " -----BEGIN C\n" = "-----BEGIN C" := by decide
      dsimp only
      rw [← htrim]
      exact .plain (by decide)
    case key => exact .wrapped (PemText.dropBlanks_wrap _) (by decide)
  · cases hmessages

end Fabric

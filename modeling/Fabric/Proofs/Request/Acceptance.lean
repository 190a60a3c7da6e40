import Fabric.Proofs.Crypto.PemText
import Fabric.Proofs.Request.Checks

namespace Fabric

theorem SigningIdentity.checkPem_write {pem : String}
    (hmark : PemText.mark.isPrefixOf (Text.trimStart pem.toList) = true) (field : String) (f : PemText.Form) :
    SigningIdentity.checkPem field (f.write pem) = .accepted (f.read pem) := by
  rw [SigningIdentity.checkPem, PemText.isBlankText_write hmark, PemText.unwrap_write hmark]
  rfl

theorem SigningIdentity.checkPem_wrap {pem : String}
    (hmark : PemText.mark.isPrefixOf (Text.trimStart pem.toList) = true) (field : String) :
    SigningIdentity.checkPem field (PemText.wrap pem) = .accepted pem :=
  checkPem_write hmark field .wrapped

/-- An identity is accepted in any form of its texts. -/
theorem SigningIdentity.checkWrapped_of_forms {mspId certificate key : String}
    (hnamed : Text.isBlankText mspId = false)
    (hcertificate : PemText.mark.isPrefixOf (Text.trimStart certificate.toList) = true)
    (hkey : PemText.mark.isPrefixOf (Text.trimStart key.toList) = true) (f g : PemText.Form) :
    checkWrapped mspId (f.write certificate) (g.write key) = .accepted ⟨mspId, f.read certificate, g.read key⟩ := by
  rw [checkWrapped, Checked.present_of_not_blank hnamed, checkPem_write hcertificate, checkPem_write hkey]
  rfl

structure SigningIdentity.Wrappable (i : SigningIdentity) : Prop where
  named : Text.isBlankText i.mspId = false
  certificate : PemText.mark.isPrefixOf (Text.trimStart i.certificate.toList) = true
  key : PemText.mark.isPrefixOf (Text.trimStart i.key.toList) = true

theorem SigningIdentity.Wrappable.checkWrapped_wrap {i : SigningIdentity} (h : i.Wrappable) :
    SigningIdentity.checkWrapped i.mspId (PemText.wrap i.certificate) (PemText.wrap i.key) = .accepted i :=
  checkWrapped_of_forms h.named h.certificate h.key .wrapped .wrapped

/-- A request that is made in the name of an identity is accepted with that identity. -/
theorem EndorsementRequest.validate_of_identity {i : SigningIdentity} (hi : i.Wrappable) {r : EndorsementRequest}
    {tls : Option String} (hmsp : r.mspId = i.mspId) (hcert : r.certificate = PemText.wrap i.certificate)
    (hkey : r.key = PemText.wrap i.key) (hchannel : Text.isBlankText r.channelId = false)
    (hchaincode : Text.isBlankText r.chaincodeId = false)
    (htls : EndorsementRequest.checkTlsCertificate r.tlsCertificate = .accepted tls)
    (hkeys : ∀ e ∈ r.transientMap, e.1 ≠ "") : r.validate = .ok (i, tls) := by
  have hnonempty : (!r.transientMap.any fun e => e.1.isEmpty) = true := by
    simpa [List.any_eq_false] using fun key value h => hkeys (key, value) h
  rw [EndorsementRequest.validate_eq_ok_iff, EndorsementRequest.check, hmsp, hcert, hkey, hi.checkWrapped_wrap,
    Checked.present_of_not_blank hchannel, Checked.present_of_not_blank hchaincode, htls, Checked.require_of hnonempty]
  rfl

theorem SigningIdentity.mspId_of_checkWrapped {mspId certificate key : String} {identity : SigningIdentity}
    (h : checkWrapped mspId certificate key = .accepted identity) : identity.mspId = mspId := by
  obtain ⟨_, _, hcertificate, -, rfl⟩ := Checked.seq_eq_accepted_iff.1 h
  obtain ⟨_, _, hnamed, -, rfl⟩ := Checked.seq_eq_accepted_iff.1 hcertificate
  obtain ⟨_, -, rfl⟩ := Checked.map_eq_accepted_iff.1 hnamed
  rfl

theorem EndorsementRequest.isSome_of_checkTlsCertificate {given tls : Option String}
    (h : checkTlsCertificate given = .accepted tls) : tls.isSome = given.isSome := by
  cases given with
  | none =>
    cases h
    rfl
  | some text =>
    obtain ⟨pem, -, rfl⟩ := Checked.map_eq_accepted_iff.1 h
    rfl

theorem EndorsementRequest.parts_of_validate {r : EndorsementRequest} {identity : SigningIdentity}
    {tls : Option String} (h : r.validate = .ok (identity, tls)) :
    SigningIdentity.checkWrapped r.mspId r.certificate r.key = .accepted identity ∧
      checkTlsCertificate r.tlsCertificate = .accepted tls :=
  check_eq_accepted (validate_eq_ok_iff.1 h)

/-- The identity that signs is of the organisation in the request, and there is a certificate to name if one is given. -/
theorem EndorsementRequest.validate_eq_ok {r : EndorsementRequest} {identity : SigningIdentity}
    {tls : Option String} (h : r.validate = .ok (identity, tls)) :
    identity.mspId = r.mspId ∧ tls.isSome = r.tlsCertificate.isSome := by
  obtain ⟨hidentity, htls⟩ := parts_of_validate h
  exact ⟨SigningIdentity.mspId_of_checkWrapped hidentity, isSome_of_checkTlsCertificate htls⟩

end Fabric

import Fabric.Proofs.Request.Checked
import Fabric.Request.Endorsement

namespace Fabric

namespace SigningIdentity

def checkPem (field value : String) : Checked String :=
  if Text.isBlankText value then .violation field .required
  else .ofExcept field .undecodable (PemText.unwrap field value)

def checkWrapped (mspId certificate key : String) : Checked SigningIdentity :=
  (fun _ certificate key => ⟨mspId, certificate, key⟩) <$> Checked.present "msp_id" mspId
    <*> checkPem "client_cert_b64pem" certificate <*> checkPem "client_prv_key_b64pem" key

/-- A text is missing exactly where it is reported. -/
theorem collectPem_gives (field value : String) :
    (collectPem field value).Gives (checkPem field value).toOption (checkPem field value).violations := by
  rw [collectPem, checkPem]
  split
  · exact .refuse field .required
  · exact .accept field .undecodable _

/-- An identity is missing exactly where one of its fields is reported. -/
theorem collectWrapped_gives (mspId certificate key : String) :
    (collectWrapped mspId certificate key).Gives (checkWrapped mspId certificate key).toOption
      (checkWrapped mspId certificate key).violations := by
  refine .congr (.bind (.require "msp_id" mspId) <| .bind (collectPem_gives "client_cert_b64pem" certificate) <|
    .last (collectPem_gives "client_prv_key_b64pem" key) _) ?identity ?found
  case identity =>
    rw [checkWrapped, Checked.present]
    cases Text.isBlankText mspId with
    | true => rfl
    | false =>
      cases checkPem "client_cert_b64pem" certificate with
      | refused first more => rfl
      | accepted certificate => cases checkPem "client_prv_key_b64pem" key <;> rfl
  case found => simp [checkWrapped]

theorem ofWrappedPem_eq (mspId certificate key : String) :
    ofWrappedPem mspId certificate key = (checkWrapped mspId certificate key).toExcept :=
  (Collecting.Agrees.of_gives_toOption (collectWrapped_gives mspId certificate key)).expect

end SigningIdentity

namespace EndorsementRequest

def checkTlsCertificate : Option String → Checked (Option String)
  | none => .accepted none
  | some pem => some <$> SigningIdentity.checkPem "client_tls_cert_b64pem" pem

def check (r : EndorsementRequest) : Checked (SigningIdentity × Option String) :=
  (fun identity _ _ tls _ => (identity, tls))
    <$> SigningIdentity.checkWrapped r.mspId r.certificate r.key
    <*> Checked.present "channel_id" r.channelId
    <*> Checked.present "chaincode_id" r.chaincodeId
    <*> checkTlsCertificate r.tlsCertificate
    <*> Checked.require (!r.transientMap.any fun e => e.1.isEmpty) "transient_map" .emptyKeys

theorem agrees_collectTlsCertificate (given : Option String) :
    (collectTlsCertificate given).Agrees id (checkTlsCertificate given) := by
  cases given with
  | none => exact .accepted id none
  | some text =>
    refine .of_gives (SigningIdentity.collectPem_gives "client_tls_cert_b64pem" text) ?_ ?_
    · rw [checkTlsCertificate, Checked.violations_map]
    · intro tls htls
      obtain ⟨pem, haccepted, rfl⟩ := Checked.map_eq_accepted_iff.1 htls
      rw [haccepted]
      rfl

/-- The parts of a request that is accepted. -/
theorem check_eq_accepted {r : EndorsementRequest} {accepted : SigningIdentity × Option String}
    (h : r.check = .accepted accepted) :
    SigningIdentity.checkWrapped r.mspId r.certificate r.key = .accepted accepted.1 ∧
      checkTlsCertificate r.tlsCertificate = .accepted accepted.2 := by
  -- from the last field to the first
  obtain ⟨_, _, hkeys, -, rfl⟩ := Checked.seq_eq_accepted_iff.1 h
  obtain ⟨_, _, hchaincode, htls, rfl⟩ := Checked.seq_eq_accepted_iff.1 hkeys
  obtain ⟨_, _, hchannel, -, rfl⟩ := Checked.seq_eq_accepted_iff.1 hchaincode
  obtain ⟨_, _, hmember, -, rfl⟩ := Checked.seq_eq_accepted_iff.1 hchannel
  obtain ⟨_, hidentity, rfl⟩ := Checked.map_eq_accepted_iff.1 hmember
  exact ⟨hidentity, htls⟩

/-- Field by field, a request is collected as it is checked. -/
theorem agrees_collect (r : EndorsementRequest) :
    r.collect.Agrees (fun accepted => (some accepted.1, accepted.2)) r.check := by
  have hidentity := SigningIdentity.collectWrapped_gives r.mspId r.certificate r.key
  obtain ⟨tls, htls, hnamed⟩ := agrees_collectTlsCertificate r.tlsCertificate
  refine .of_gives (.bind hidentity <| .bind (.require "channel_id" r.channelId) <|
    .bind (.require "chaincode_id" r.chaincodeId) <| .bind htls <| .last (.check _ "transient_map" .emptyKeys) _)
    ?found ?accepted
  case found => simp [check]
  case accepted =>
    intro accepted h
    obtain ⟨hchecked, hcertificate⟩ := check_eq_accepted h
    rw [hchecked, hnamed _ hcertificate]
    rfl

/-- The identity is missing only where a violation says so: the request fails with that, and not for the identity. -/
theorem validate_eq (r : EndorsementRequest) : r.validate = r.check.toExcept := by
  rw [validate, r.agrees_collect.finish]
  cases r.check with
  | accepted accepted => rfl
  | refused first more => rfl

theorem validate_eq_ok_iff {r : EndorsementRequest} {accepted : SigningIdentity × Option String} :
    r.validate = .ok accepted ↔ r.check = .accepted accepted := by
  rw [validate_eq, Checked.toExcept_eq_ok_iff]

theorem exists_validation {r : EndorsementRequest} {e : RequestError} (h : r.validate = .error e) :
    ∃ first more, e = .validation (first :: more) := by
  rw [validate_eq] at h
  exact Checked.exists_validation h

end EndorsementRequest

end Fabric

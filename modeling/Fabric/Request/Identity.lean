import Fabric.Crypto.PemText
import Fabric.Message.Envelope
import Fabric.Request.Collecting
import Fabric.Text.Quoted

namespace Fabric

structure SigningIdentity where
  mspId : String
  certificate : String
  key : String
deriving DecidableEq

namespace SigningIdentity

def ofPem (mspId certificate key : String) : Except RequestError SigningIdentity := do
  Collecting.finish do
    Collecting.require "msp_id" mspId
    Collecting.require "client_cert" certificate
    Collecting.require "client_prv_key" key
  return ⟨mspId, certificate, key⟩

/-- The text in a field that holds armour, perhaps wrapped in base64. -/
def collectPem (field value : String) : Collecting (Option String) :=
  if Text.isBlankText value then Collecting.refuse field .required
  else Collecting.accept field .undecodable (PemText.unwrap field value)

def collectWrapped (mspId certificate key : String) : Collecting (Option SigningIdentity) := do
  Collecting.require "msp_id" mspId
  let certificate? ← collectPem "client_cert_b64pem" certificate
  let key? ← collectPem "client_prv_key_b64pem" key
  return match Text.isBlankText mspId, certificate?, key? with
    | false, some certificate, some key => some ⟨mspId, certificate, key⟩
    | _, _, _ => none

def ofWrappedPem (mspId certificate key : String) : Except RequestError SigningIdentity := do
  let identity? ← (collectWrapped mspId certificate key).finish
  Collecting.expect identity?

/-- The creator field of every header. -/
def serialize (i : SigningIdentity) : Bytes :=
  Wire.encode (⟨i.mspId, Bytes.ofText i.certificate⟩ : Message.SerializedIdentity)

/-- A description that does not show the key. -/
def describe (i : SigningIdentity) : String :=
  "SigningIdentity \x7b msp_id: " ++ Text.quoted i.mspId ++ ", cert_pem: " ++
    toString (Bytes.ofText i.certificate).length ++ " bytes, key_pem: \"<redacted>\" \x7d"

end SigningIdentity

end Fabric

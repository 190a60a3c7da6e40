import Fabric.Request.Deliver

namespace Fabric.ConfigUpdate

open Message (ConfigSignature ConfigUpdateEnvelope SignatureHeader)

def checkUpdate (update : Bytes) : Except RequestError Unit :=
  if update.isEmpty then .error (.validation [⟨"config_update", .required⟩]) else .ok ()

def validate (channelId : String) (update : Bytes) : Except RequestError Unit :=
  Collecting.finish do
    Collecting.require "channel_id" channelId
    Collecting.check (!update.isEmpty) "config_update" .required

/-- One signer's signature on a change. -/
def approve (p : Provider) (w : Surroundings) (s : Settings) (identity : SigningIdentity) (update : Bytes) :
    Traced RequestError ConfigSignature := do
  Traced.ofExcept (checkUpdate update)
  let header := Wire.encode (⟨identity.serialize, w.nonce s⟩ : SignatureHeader)
  let signature ← Traced.sign p identity.key (header ++ update)
  return ⟨header, signature⟩

/-- The envelope with a change and the signatures on it. -/
def sign (p : Provider) (w : Surroundings) (s : Settings) (identity : SigningIdentity) (channelId : String)
    (update : Bytes) (signatures : List ConfigSignature) : Traced RequestError SignedEnvelope := do
  Traced.ofExcept (validate channelId update)
  let context ← TransactionContext.derive p identity (w.nonce s)
  let header := context.header (context.channelHeader .configUpdate w.now channelId [] [])
  signPayload p identity context.txId header (Wire.encode (⟨update, signatures⟩ : ConfigUpdateEnvelope))

end Fabric.ConfigUpdate

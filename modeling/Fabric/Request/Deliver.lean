import Fabric.Message.Channel
import Fabric.Request.Headers

namespace Fabric

open Message (Envelope Header Payload SeekInfo SeekPosition)

/-- A signed envelope, and the id of the transaction in it. -/
structure SignedEnvelope where
  envelope : Envelope
  txId : String
deriving DecidableEq, Repr

def SignedEnvelope.encode (e : SignedEnvelope) : Bytes := Wire.encode e.envelope

/-- Signs the bytes of a payload. -/
def signPayload (p : Provider) (identity : SigningIdentity) (txId : String) (header : Header) (data : Bytes) :
    Traced RequestError SignedEnvelope := do
  let payload := Wire.encode (⟨some header, data⟩ : Payload)
  let signature ← Traced.sign p identity.key payload
  return ⟨⟨payload, signature⟩, txId⟩

inductive SeekTarget
  | newest
  | oldest
  | block (number : UInt64)
deriving DecidableEq, Repr

def SeekTarget.toMessage : SeekTarget → SeekPosition
  | .newest => .newest
  | .oldest => .oldest
  | .block number => .block number

/-- What to do about blocks that do not exist yet. -/
inductive SeekBehavior
  | blockUntilReady
  | failIfNotReady
deriving DecidableEq, Repr

def SeekBehavior.code : SeekBehavior → Int32
  | .blockUntilReady => 0
  | .failIfNotReady => 1

structure SeekRequest where
  identity : SigningIdentity
  channelId : String
  start : SeekTarget
  stop : SeekTarget
  behavior : SeekBehavior := .blockUntilReady
  tlsCertificate : Option String := none

namespace SeekRequest

def collectRange : SeekTarget → SeekTarget → Collecting Unit
  | .block start, .block stop => Collecting.check (start ≤ stop) "start" (.afterStop start stop)
  | _, _ => return

def validate (r : SeekRequest) : Except RequestError Unit :=
  Collecting.finish do
    Collecting.require "channel_id" r.channelId
    collectRange r.start r.stop

def info (r : SeekRequest) : SeekInfo := ⟨some r.start.toMessage, some r.stop.toMessage, r.behavior.code⟩

def sign (r : SeekRequest) (p : Provider) (w : Surroundings) (s : Settings) : Traced RequestError SignedEnvelope := do
  Traced.ofExcept r.validate
  let certHash ← tlsCertHash p r.tlsCertificate
  let context ← TransactionContext.derive p r.identity (w.nonce s)
  let header := context.header (context.channelHeader .deliverSeekInfo w.now r.channelId [] certHash)
  signPayload p r.identity context.txId header (Wire.encode r.info)

end SeekRequest

end Fabric

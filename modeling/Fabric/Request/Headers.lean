import Fabric.Request.Identity
import Fabric.Request.Settings
import Fabric.Request.Traced

namespace Fabric

open Message (Timestamp Header ChannelHeader SignatureHeader)

/-- What a request takes from its surroundings: the time, and random bytes of any number. -/
structure Surroundings where
  now : Timestamp
  randomBytes : Nat → Bytes

def Surroundings.nonce (w : Surroundings) (s : Settings) : Bytes := w.randomBytes s.nonceLength.toNat

inductive HeaderType
  | message
  | config
  | configUpdate
  | endorserTransaction
  | ordererTransaction
  | deliverSeekInfo
  | chaincodePackage
  | peerAdminOperation
deriving DecidableEq, Repr

namespace HeaderType

def code : HeaderType → Int32
  | .message => 0
  | .config => 1
  | .configUpdate => 2
  | .endorserTransaction => 3
  | .ordererTransaction => 4
  | .deliverSeekInfo => 5
  | .chaincodePackage => 6
  | .peerAdminOperation => 8

def name : HeaderType → String
  | .message => "Message"
  | .config => "Config"
  | .configUpdate => "ConfigUpdate"
  | .endorserTransaction => "EndorserTransaction"
  | .ordererTransaction => "OrdererTransaction"
  | .deliverSeekInfo => "DeliverSeekInfo"
  | .chaincodePackage => "ChaincodePackage"
  | .peerAdminOperation => "PeerAdminOperation"

def all : List HeaderType :=
  [.message, .config, .configUpdate, .endorserTransaction, .ordererTransaction, .deliverSeekInfo,
    .chaincodePackage, .peerAdminOperation]

def ofCode? (n : Int32) : Option HeaderType := all.find? fun t => t.code = n

end HeaderType

structure TransactionContext where
  nonce : Bytes
  creator : Bytes
  txId : String
deriving DecidableEq, Repr

namespace TransactionContext

/-- The transaction id is the digest of the nonce and the creator. -/
def derive (p : Provider) (identity : SigningIdentity) (nonce : Bytes) : Traced RequestError TransactionContext := do
  let creator := identity.serialize
  return ⟨nonce, creator, ← Traced.digest p .sha256 (nonce ++ creator)⟩

def signatureHeader (c : TransactionContext) : SignatureHeader := ⟨c.creator, c.nonce⟩

def channelHeader (c : TransactionContext) (type : HeaderType) (now : Timestamp) (channelId : String)
    (extension tlsCertHash : Bytes) : ChannelHeader :=
  ⟨type.code, 0, some now, channelId, c.txId, 0, extension, tlsCertHash⟩

def header (c : TransactionContext) (h : ChannelHeader) : Header :=
  ⟨Wire.encode h, Wire.encode c.signatureHeader⟩

end TransactionContext

/-- The digest of a certificate, or nothing where there is none. -/
def tlsCertHash (p : Provider) (certificate : Option String) : Traced RequestError Bytes :=
  match certificate with
  | none => pure []
  | some pem => do
    let der ← Traced.ofExcept ((p.der pem).mapError .crypto)
    Traced.digestBytes p der

def decodeMessage {α : Type} [Wire.Codec α] (b : Bytes) : Except RequestError α :=
  (Wire.decode b).mapError fun e => .encoding (.undecodable e)

end Fabric

import Fabric.Keyed
import Fabric.Request.Headers
import Fabric.Request.Invocation

namespace Fabric

open Message (BytesMap ChaincodeExtension ChaincodeInvocation ChaincodeSpec Proposal ProposalPayload
  SignedProposal)

/-- What a caller asks for. Certificates and the key are armour, perhaps wrapped in base64; a chaincode's
transient data is in order of its keys. -/
structure EndorsementRequest where
  mspId : String
  certificate : String
  key : String
  tlsCertificate : Option String := none
  channelId : String
  chaincodeId : String
  chaincodeVersion : Option String := none
  chaincodeType : ChaincodeType := .golang
  function : Option String := none
  args : List Bytes := []
  transientMap : BytesMap := []
  isInit : Bool := false

namespace EndorsementRequest

/-- A request by an identity, whose texts are wrapped. -/
def ofIdentity (i : SigningIdentity) (channelId chaincodeId : String) : EndorsementRequest :=
  { mspId := i.mspId, certificate := PemText.wrap i.certificate, key := PemText.wrap i.key,
    channelId := channelId, chaincodeId := chaincodeId }

def addTransient (r : EndorsementRequest) (key : String) (value : Bytes) : EndorsementRequest :=
  { r with transientMap := Keyed.insert key value r.transientMap }

def collectTlsCertificate : Option String → Collecting (Option String)
  | none => return none
  | some pem => SigningIdentity.collectPem "client_tls_cert_b64pem" pem

/-- Looks at every field, in order. -/
def collect (r : EndorsementRequest) : Collecting (Option SigningIdentity × Option String) := do
  let identity? ← SigningIdentity.collectWrapped r.mspId r.certificate r.key
  Collecting.require "channel_id" r.channelId
  Collecting.require "chaincode_id" r.chaincodeId
  let tls ← collectTlsCertificate r.tlsCertificate
  Collecting.check (!r.transientMap.any fun e => e.1.isEmpty) "transient_map" .emptyKeys
  return (identity?, tls)

/-- The identity that signs and the certificate to name. -/
def validate (r : EndorsementRequest) : Except RequestError (SigningIdentity × Option String) := do
  let (identity?, tls) ← r.collect.finish
  let identity ← Collecting.expect identity?
  return (identity, tls)

def spec (s : Settings) (r : EndorsementRequest) : ChaincodeSpec :=
  chaincodeSpec r.chaincodeId r.chaincodeVersion r.chaincodeType
    (chaincodeInput r.function r.args r.isInit) s.proposalTimeout

def describeFunction : Option String → String
  | none => "None"
  | some f => "Some(" ++ Text.quoted f ++ ")"

/-- A description that shows neither key material nor arguments. -/
def describe (r : EndorsementRequest) : String :=
  "EndorsementRequest \x7b msp_id: " ++ Text.quoted r.mspId ++ ", channel_id: " ++ Text.quoted r.channelId ++
    ", chaincode_id: " ++ Text.quoted r.chaincodeId ++ ", chaincode_function: " ++
    describeFunction r.function ++ ", args: " ++ toString r.args.length ++ ", transient_keys: [" ++
    String.intercalate ", " (r.transientMap.map fun e => Text.quoted e.1) ++ "], .. \x7d"

end EndorsementRequest

/-- A signed proposal, and the proposal that it covers. -/
structure EndorsementProposal where
  signed : SignedProposal
  proposal : Proposal
  txId : String
deriving DecidableEq, Repr

def EndorsementProposal.encode (p : EndorsementProposal) : Bytes := Wire.encode p.signed

/-- What a proposal says, apart from who makes it and when. -/
structure ProposalContent where
  channelId : String
  spec : ChaincodeSpec
  transientMap : BytesMap := []
  tlsCertificate : Option String := none

namespace ProposalContent

def payload (c : ProposalContent) : ProposalPayload :=
  ⟨Wire.encode (⟨some c.spec⟩ : ChaincodeInvocation), c.transientMap⟩

def extension (c : ProposalContent) : Bytes := Wire.encode (⟨c.spec.chaincodeId⟩ : ChaincodeExtension)

def proposal (c : ProposalContent) (context : TransactionContext) (now : Message.Timestamp)
    (tlsCertHash : Bytes) : Proposal :=
  let header := context.channelHeader .endorserTransaction now c.channelId c.extension tlsCertHash
  ⟨Wire.encode (context.header header), Wire.encode c.payload, []⟩

/-- Signs the proposal. A nonce that is given takes the place of a random one. -/
def sign (c : ProposalContent) (p : Provider) (w : Surroundings) (s : Settings) (identity : SigningIdentity)
    (nonce : Option Bytes) : Traced RequestError EndorsementProposal := do
  -- the provider is asked in this order: hash of the certificate, transaction id, signature
  let certHash ← tlsCertHash p c.tlsCertificate
  let context ← TransactionContext.derive p identity (nonce.getD (w.nonce s))
  let proposal := c.proposal context w.now certHash
  let bytes := Wire.encode proposal
  let signature ← Traced.sign p identity.key bytes
  return ⟨⟨bytes, signature⟩, proposal, context.txId⟩

end ProposalContent

/-- Builds and signs the proposal that a request asks for. -/
def EndorsementRequest.sign (r : EndorsementRequest) (p : Provider) (w : Surroundings) (s : Settings)
    (nonce : Option Bytes) : Traced RequestError EndorsementProposal := do
  let (identity, tls) ← Traced.ofExcept r.validate
  ProposalContent.sign ⟨r.channelId, r.spec s, r.transientMap, tls⟩ p w s identity nonce

end Fabric

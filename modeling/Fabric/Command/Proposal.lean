import Fabric.Command.Configuration
import Fabric.Request.Endorsement
import Fabric.View.Transaction

namespace Fabric

structure BuildCommand where
  channel : String
  chaincode : String
  function : Option String := none
  args : List String := []
  /-- Entries of the form key=value. -/
  transient : List String := []
  chaincodeType : String := "golang"
  isInit : Bool := false
deriving DecidableEq, Repr

/-- Splits an entry at its first equals sign; the key may not be empty. -/
def parseTransient (entry : String) : Except CommandError (String × Bytes) :=
  let cs := entry.toList
  let key := cs.takeWhile (· != '=')
  match cs.dropWhile (· != '=') with
  | _ :: value =>
    if key.isEmpty then .error (.transientEntry entry)
    else .ok (String.ofList key, Bytes.ofText (String.ofList value))
  | [] => .error (.transientEntry entry)

namespace BuildCommand

/-- The request that the command stands for. Of two entries with one key the later counts. -/
def request (c : BuildCommand) (identity : SigningIdentity) (tlsCertificate : Option String) :
    Except CommandError EndorsementRequest := do
  let type ← (ChaincodeType.parse c.chaincodeType).mapError .request
  let entries ← c.transient.mapM parseTransient
  return { EndorsementRequest.ofIdentity identity c.channel c.chaincode with
    chaincodeType := type
    function := c.function
    args := c.args.map Bytes.ofText
    transientMap := Keyed.ofList entries
    tlsCertificate := tlsCertificate.map PemText.wrap
    isInit := c.isInit }

def run (c : BuildCommand) (files : Files) (config : Configuration) (p : Provider) (w : Surroundings) :
    Traced CommandError Output := do
  let identity ← Traced.ofExcept (config.identity.signer files)
  let tls ← Traced.ofExcept (config.identity.tlsCertificate files)
  let request ← Traced.ofExcept (c.request identity tls)
  let proposal ← (request.sign p w config.protocol none).mapError .request
  return .bytes proposal.encode

end BuildCommand

inductive ProposalCommand
  | build (c : BuildCommand)
  | inspect (proposal : String)
  | inspectTransaction (envelope : String)
deriving DecidableEq, Repr

def inspectProposal (s : String) : Except CommandError Output := do
  let view ← (ProposalView.decode (← decodeBase64 s)).mapError .request
  return .json view.toJson

def inspectTransaction (s : String) : Except CommandError Output := do
  let view ← (TransactionView.decode (← decodeBase64 s)).mapError .request
  return .json view.toJson

def ProposalCommand.run (files : Files) (config : Configuration) (p : Provider) (w : Surroundings) :
    ProposalCommand → Traced CommandError Output
  | .build c => c.run files config p w
  | .inspect s => Traced.ofExcept (inspectProposal s)
  | .inspectTransaction s => Traced.ofExcept (Fabric.inspectTransaction s)

end Fabric

import Fabric.Definition.Chaincode
import Fabric.Request.Endorsement

namespace Fabric

open Message (InstallArgs QueryDefinitionArgs)

/-- Whether a call is made on a channel or on a peer alone. -/
inductive CallScope
  | peer
  | channel
deriving DecidableEq, Repr

def CallScope.name : CallScope → String
  | .peer => "peer"
  | .channel => "channel"

structure LifecycleCall where
  function : String
  args : Bytes
  scope : CallScope
deriving DecidableEq, Repr

namespace LifecycleCall

def install (package : Bytes) : Except RequestError LifecycleCall :=
  if package.isEmpty then .error (.validation [⟨"chaincode_install_package", .required⟩])
  else .ok ⟨"InstallChaincode", Wire.encode (⟨package⟩ : InstallArgs), .peer⟩

def queryInstalled : LifecycleCall := ⟨"QueryInstalledChaincodes", [], .peer⟩

def approve (s : Settings) (d : ChaincodeDefinition) (source : PackageSource) :
    Except RequestError LifecycleCall := do
  return ⟨"ApproveChaincodeDefinitionForMyOrg", Wire.encode (← d.approveArgs s source), .channel⟩

def checkReadiness (s : Settings) (d : ChaincodeDefinition) : Except RequestError LifecycleCall := do
  return ⟨"CheckCommitReadiness", Wire.encode (← d.readinessArgs s), .channel⟩

def commit (s : Settings) (d : ChaincodeDefinition) : Except RequestError LifecycleCall := do
  return ⟨"CommitChaincodeDefinition", Wire.encode (← d.commitArgs s), .channel⟩

def queryDefinition (name : String) : Except RequestError LifecycleCall := do
  (Collecting.require "name" name).finish
  return ⟨"QueryChaincodeDefinition", Wire.encode (⟨name⟩ : QueryDefinitionArgs), .channel⟩

def queryDefinitions : LifecycleCall := ⟨"QueryChaincodeDefinitions", [], .channel⟩

/-- A call on a peer alone names no channel. -/
def checkChannel (c : LifecycleCall) (channelId : String) : Except RequestError String :=
  match c.scope with
  | .peer => return ""
  | .channel => do
    (Collecting.require "channel_id" channelId).finish
    return channelId

def content (c : LifecycleCall) (s : Settings) (channelId : String) : ProposalContent where
  channelId := channelId
  spec := chaincodeSpec s.lifecycleChaincode none .golang (chaincodeInput (some c.function) [c.args] false)
    s.proposalTimeout

/-- Builds and signs the proposal that makes the call. -/
def sign (c : LifecycleCall) (p : Provider) (w : Surroundings) (s : Settings) (identity : SigningIdentity)
    (channelId : String) : Traced RequestError EndorsementProposal := do
  let channelId ← Traced.ofExcept (c.checkChannel channelId)
  (c.content s channelId).sign p w s identity none

end LifecycleCall

end Fabric

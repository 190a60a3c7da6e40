import Fabric.Command.Configuration
import Fabric.Command.Policy
import Fabric.Definition.Call

namespace Fabric

structure DefinitionOptions where
  channel : String
  name : String
  version : String
  sequence : Int64
  signaturePolicy : Option String := none
  policyReference : Option String := none
  endorsementPlugin : Option String := none
  validationPlugin : Option String := none
  initRequired : Bool := false
  /-- The path of a file with a list of collections. -/
  collections : Option String := none
deriving DecidableEq, Repr

namespace DefinitionOptions

def validation (o : DefinitionOptions) : Except CommandError ValidationParameter :=
  match o.signaturePolicy, o.policyReference with
  | some s, _ => (PolicyCommand.readInput s).map .signaturePolicy
  | none, some name => .ok (.policyReference name)
  | none, none => .ok .channelDefault

def readCollections (files : Files) (path : String) : Except CommandError (List CollectionDefinition) := do
  let s ← (files.text path).mapError fun fault => .context s!"reading collections config {path}" (.file fault)
  match CollectionDefinition.parseList? s with
  | some collections => return collections
  | none => throw (.context s!"parsing collections config {path}" .collections)

def definition (files : Files) (o : DefinitionOptions) : Except CommandError ChaincodeDefinition := do
  let validation ← o.validation
  let collections ←
    match o.collections with
    | some path => readCollections files path
    | none => pure []
  return ⟨o.name, o.version, o.sequence, o.initRequired, o.endorsementPlugin, o.validationPlugin, validation,
    collections⟩

end DefinitionOptions

inductive LifecycleCommand
  | install (path : String)
  | queryInstalled
  | approve (o : DefinitionOptions) (packageId : Option String)
  | readiness (o : DefinitionOptions)
  | commit (o : DefinitionOptions)
  | queryCommitted (channel : String) (name : Option String)
deriving DecidableEq, Repr

namespace LifecycleCommand

def source : Option String → PackageSource
  | some packageId => .localPackage packageId
  | none => .unavailable

/-- The call that a command stands for, and the channel to make it on. -/
def resolve (files : Files) (s : Settings) : LifecycleCommand → Except CommandError (LifecycleCall × String)
  | .install path => do
    let package ← (files path).mapError fun fault => .context s!"reading package {path}" (.file fault)
    return (← (LifecycleCall.install package).mapError .request, "")
  | .queryInstalled => return (.queryInstalled, "")
  | .approve o packageId => do
    let d ← o.definition files
    return (← (LifecycleCall.approve s d (source packageId)).mapError .request, o.channel)
  | .readiness o => do
    let d ← o.definition files
    return (← (LifecycleCall.checkReadiness s d).mapError .request, o.channel)
  | .commit o => do
    let d ← o.definition files
    return (← (LifecycleCall.commit s d).mapError .request, o.channel)
  | .queryCommitted channel (some name) => do
    return (← (LifecycleCall.queryDefinition name).mapError .request, channel)
  | .queryCommitted channel none => return (.queryDefinitions, channel)

def run (files : Files) (config : Configuration) (p : Provider) (w : Surroundings) (c : LifecycleCommand) :
    Traced CommandError Output := do
  let (call, channel) ← Traced.ofExcept (c.resolve files config.protocol)
  let identity ← Traced.ofExcept (config.identity.signer files)
  let proposal ← (call.sign p w config.protocol identity channel).mapError .request
  return .bytes proposal.encode

end LifecycleCommand

end Fabric

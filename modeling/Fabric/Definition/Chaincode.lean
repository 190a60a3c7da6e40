import Fabric.Definition.Collection
import Fabric.Message.Lifecycle
import Fabric.Request.Settings

namespace Fabric

open Message (ApplicationPolicy ApproveArgs ChaincodeSource CollectionPackage CommitArgs ReadinessArgs)

/-- What a transaction of the chaincode is validated against. -/
inductive ValidationParameter
  | channelDefault
  | policyReference (name : String)
  | signaturePolicy (input : PolicyInput)

def ValidationParameter.toMessage (s : Settings) : ValidationParameter → Except PolicyError ApplicationPolicy
  | .channelDefault => return .reference s.defaultPolicyReference
  | .policyReference name => return .reference name
  | .signaturePolicy input => return .signature (← input.normalize).toMessage

def ValidationParameter.collect (s : Settings) (v : ValidationParameter) : Collecting (Option ApplicationPolicy) :=
  Collecting.accept "validation" .badValidation (v.toMessage s)

/-- Where an organisation that approves has the package from. -/
inductive PackageSource
  | localPackage (packageId : String)
  | unavailable
deriving DecidableEq, Repr

namespace PackageSource

def toMessage : PackageSource → ChaincodeSource
  | .localPackage packageId => .localPackage packageId
  | .unavailable => .unavailable

def collect : PackageSource → Collecting Unit
  | .localPackage packageId => Collecting.require "package_id" packageId
  | .unavailable => return

end PackageSource

structure ChaincodeDefinition where
  name : String
  version : String
  sequence : Int64
  initRequired : Bool := false
  endorsementPlugin : Option String := none
  validationPlugin : Option String := none
  validation : ValidationParameter := .channelDefault
  collections : List CollectionDefinition := []

/-- What approvals, commits and the question who has approved have in common. -/
structure CommonArgs where
  sequence : Int64
  name : String
  version : String
  endorsementPlugin : String
  validationPlugin : String
  validationParameter : Bytes
  collections : Option CollectionPackage
  initRequired : Bool

namespace CommonArgs

def readiness (a : CommonArgs) : ReadinessArgs where
  sequence := a.sequence
  name := a.name
  version := a.version
  endorsementPlugin := a.endorsementPlugin
  validationPlugin := a.validationPlugin
  validationParameter := a.validationParameter
  collections := a.collections
  initRequired := a.initRequired

def commit (a : CommonArgs) : CommitArgs where
  sequence := a.sequence
  name := a.name
  version := a.version
  endorsementPlugin := a.endorsementPlugin
  validationPlugin := a.validationPlugin
  validationParameter := a.validationParameter
  collections := a.collections
  initRequired := a.initRequired

def approval (a : CommonArgs) (source : ChaincodeSource) : ApproveArgs where
  sequence := a.sequence
  name := a.name
  version := a.version
  endorsementPlugin := a.endorsementPlugin
  validationPlugin := a.validationPlugin
  validationParameter := a.validationParameter
  collections := a.collections
  initRequired := a.initRequired
  source := some source

end CommonArgs

namespace ChaincodeDefinition

/-- A plugin that is not named, or blank, is the one that is set up. -/
def plugin (named : Option String) (fallback : String) : String :=
  match named with
  | some name => if Text.isBlankText name then fallback else name
  | none => fallback

/-- The arguments that name the definition. They mean something only if nothing is found. -/
def collect (s : Settings) (d : ChaincodeDefinition) : Collecting CommonArgs := do
  Collecting.require "name" d.name
  Collecting.require "version" d.version
  Collecting.check (1 ≤ d.sequence) "sequence" .belowOne
  let validation? ← d.validation.collect s
  let collections ← CollectionDefinition.collectPackage d.collections
  return {
    sequence := d.sequence
    name := d.name
    version := d.version
    endorsementPlugin := plugin d.endorsementPlugin s.endorsementPlugin
    validationPlugin := plugin d.validationPlugin s.validationPlugin
    validationParameter := (validation?.map Wire.encode).getD []
    collections
    initRequired := d.initRequired }

def commonArgs (s : Settings) (d : ChaincodeDefinition) : Except RequestError CommonArgs := (d.collect s).finish

def readinessArgs (s : Settings) (d : ChaincodeDefinition) : Except RequestError ReadinessArgs := do
  let a ← d.commonArgs s
  return a.readiness

def commitArgs (s : Settings) (d : ChaincodeDefinition) : Except RequestError CommitArgs := do
  let a ← d.commonArgs s
  return a.commit

def approveArgs (s : Settings) (d : ChaincodeDefinition) (source : PackageSource) :
    Except RequestError ApproveArgs := do
  let a ← Collecting.finish do
    let a ← d.collect s
    source.collect
    return a
  return a.approval source.toMessage

end ChaincodeDefinition

end Fabric

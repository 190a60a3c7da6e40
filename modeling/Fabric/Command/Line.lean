import Fabric.Command.Arguments
import Fabric.Command.Lifecycle
import Fabric.Command.Proposal

namespace Fabric

inductive Command
  | policy (c : PolicyCommand)
  | proposal (c : ProposalCommand)
  | lifecycle (c : LifecycleCommand)
  /-- Shows the configuration. -/
  | configuration
deriving DecidableEq, Repr

structure CommandLine where
  /-- The path of the configuration. -/
  config : Option String
  command : Command
deriving DecidableEq, Repr

namespace PolicyCommand

def approvalOption : OptionSpec := { name := "approve", letter := some 'a' }

def ofWords (name : String) (words : List String) : Except UsageError PolicyCommand :=
  let only := fun argument => do (← Arguments.read [] false words).onlyWord argument
  match name with
  | "parse" => PolicyCommand.parse <$> only "policy"
  | "render" => PolicyCommand.render <$> only "json"
  | "kind" => PolicyCommand.kind <$> only "input"
  | "encode" => PolicyCommand.encode <$> only "policy"
  | "eval" => do
    let a ← Arguments.read [approvalOption] false words
    return .eval (← a.onlyWord "policy") (a.values "approve")
  | name => .error (.unknownCommand name)

end PolicyCommand

namespace BuildCommand

def options : List OptionSpec :=
  [{ name := "channel" }, { name := "chaincode" }, { name := "function", letter := some 'f' },
    { name := "arg", letter := some 'a' }, { name := "transient", letter := some 't' },
    { name := "chaincode-type" }, { name := "init", hasValue := false }]

def ofArguments (a : Arguments) : Except UsageError BuildCommand := do
  a.noWords
  return { channel := ← a.required "channel", chaincode := ← a.required "chaincode",
           function := ← a.optional "function", args := a.values "arg", transient := a.values "transient",
           chaincodeType := (← a.optional "chaincode-type").getD "golang", isInit := a.flag "init" }

end BuildCommand

def ProposalCommand.ofWords (name : String) (words : List String) : Except UsageError ProposalCommand :=
  match name with
  | "build" => do return .build (← BuildCommand.ofArguments (← Arguments.read BuildCommand.options false words))
  | "inspect" => do return .inspect (← (← Arguments.read [] false words).onlyWord "proposal")
  | "inspect-transaction" => do
    return .inspectTransaction (← (← Arguments.read [] false words).onlyWord "envelope")
  | name => .error (.unknownCommand name)

namespace DefinitionOptions

def options : List OptionSpec :=
  [{ name := "channel" }, { name := "name" }, { name := "version" }, { name := "sequence" },
    { name := "signature-policy" }, { name := "policy-reference" }, { name := "endorsement-plugin" },
    { name := "validation-plugin" }, { name := "init-required", hasValue := false },
    { name := "collections-config" }]

def int64OfWord (name value : String) : Except UsageError Int64 :=
  match (Text.signed? value.toList).bind Word.int64? with
  | some n => .ok n
  | none => .error (.notNumber name value)

def ofArguments (a : Arguments) : Except UsageError DefinitionOptions := do
  a.noWords
  let signaturePolicy ← a.optional "signature-policy"
  let policyReference ← a.optional "policy-reference"
  if signaturePolicy.isSome ∧ policyReference.isSome then
    throw (.conflict "signature-policy" "policy-reference")
  return { channel := ← a.required "channel", name := ← a.required "name", version := ← a.required "version",
           sequence := ← int64OfWord "sequence" (← a.required "sequence"),
           signaturePolicy := signaturePolicy, policyReference := policyReference,
           endorsementPlugin := ← a.optional "endorsement-plugin",
           validationPlugin := ← a.optional "validation-plugin", initRequired := a.flag "init-required",
           collections := ← a.optional "collections-config" }

end DefinitionOptions

namespace LifecycleCommand

def ofWords (name : String) (words : List String) : Except UsageError LifecycleCommand :=
  match name with
  | "install" => do
    let a ← Arguments.read [{ name := "package" }] false words
    a.noWords
    return .install (← a.required "package")
  | "query-installed" => do
    (← Arguments.read [] false words).noWords
    return .queryInstalled
  | "approve" => do
    let a ← Arguments.read (DefinitionOptions.options ++ [{ name := "package-id" }]) false words
    return .approve (← DefinitionOptions.ofArguments a) (← a.optional "package-id")
  | "readiness" => do
    return .readiness (← DefinitionOptions.ofArguments (← Arguments.read DefinitionOptions.options false words))
  | "commit" => do
    return .commit (← DefinitionOptions.ofArguments (← Arguments.read DefinitionOptions.options false words))
  | "query-committed" => do
    let a ← Arguments.read [{ name := "channel" }, { name := "name" }] false words
    a.noWords
    return .queryCommitted (← a.required "channel") (← a.optional "name")
  | name => .error (.unknownCommand name)

def definitionOptions? : LifecycleCommand → Option DefinitionOptions
  | .approve o _ | .readiness o | .commit o => some o
  | _ => none

/-- The files that the command reads, apart from those of the identity. -/
def paths (c : LifecycleCommand) : List String :=
  match c with
  | .install path => [path]
  | c => (c.definitionOptions?.bind (·.collections)).toList

end LifecycleCommand

namespace Command

def ofWords : List String → Except UsageError Command
  | [] => .error .noCommand
  | ["config"] => .ok .configuration
  | "config" :: word :: _ => .error (.extraWord word)
  | "policy" :: name :: words => Command.policy <$> PolicyCommand.ofWords name words
  | "proposal" :: name :: words => Command.proposal <$> ProposalCommand.ofWords name words
  | "lifecycle" :: name :: words => Command.lifecycle <$> LifecycleCommand.ofWords name words
  | "cc" :: name :: words => Command.lifecycle <$> LifecycleCommand.ofWords name words
  | [name] =>
    if ["policy", "proposal", "lifecycle", "cc"].contains name then .error .noCommand
    else .error (.unknownCommand name)
  | name :: _ => .error (.unknownCommand name)

/-- The files that the command may read. -/
def paths (config : Configuration) (c : Command) : List String :=
  let i := config.identity
  match c with
  | .proposal (.build _) => [i.certPath, i.keyPath, i.tlsCertPath]
  | .lifecycle c => [i.certPath, i.keyPath] ++ c.paths
  | _ => []

def run (files : Files) (config : Configuration) (p : Provider) (w : Surroundings) :
    Command → Traced CommandError Output
  | .policy c => Traced.ofExcept c.run
  | .proposal c => c.run files config p w
  | .lifecycle c => c.run files config p w
  | .configuration => pure (.json config.toJson)

end Command

namespace CommandLine

def configOption : OptionSpec := { name := "config", letter := some 'c' }

def ofWords (words : List String) : Except UsageError CommandLine := do
  let a ← Arguments.read [configOption] true words
  return ⟨← a.optional "config", ← Command.ofWords a.words⟩

end CommandLine

end Fabric

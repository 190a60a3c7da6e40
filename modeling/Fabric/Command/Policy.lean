import Fabric.Command.Output
import Fabric.Policy.Approval
import Fabric.Policy.Compact.Printer
import Fabric.Policy.Input

namespace Fabric

inductive PolicyCommand
  | parse (policy : String)
  | render (policy : String)
  | eval (policy : String) (approvals : List String)
  | kind (policy : String)
  | encode (policy : String)
deriving DecidableEq, Repr

namespace PolicyCommand

/-- A text that begins with a brace is JSON, any other the compact notation. -/
def readInput (s : String) : Except CommandError PolicyInput :=
  match Text.trimStart s.toList with
  | '{' :: _ => (PolicyInput.parseJson s).mapError fun e => .context "parsing policy JSON" (.policy e)
  | _ => .ok (.compact s)

def readPolicy (s : String) : Except CommandError Policy := do
  (← readInput s).normalize.mapError .policy

def kindName : PolicyKind → String
  | .signature => "signature"
  | .implicitMeta => "implicit-meta"
  | .unknown => "unknown"

def run : PolicyCommand → Except CommandError Output
  | .parse s => do return .json (← readPolicy s).toJson
  | .render s => do
    let text ← (Compact.render (← readPolicy s)).mapError .policy
    return .text text
  | .eval s approvals => do
    let policy ← readPolicy s
    let satisfied ← (policy.evaluate (.ofPairs (approvals.map fun key => (key, true)))).mapError .policy
    return .text (if satisfied then "satisfied" else "not satisfied")
  | .kind s => do return .text (kindName (← readInput s).kind)
  | .encode s => do
    let spec ← (PolicySpec.ofInput (← readInput s)).mapError .policy
    return .bytes (Wire.encode spec.toMessage)

end PolicyCommand

end Fabric

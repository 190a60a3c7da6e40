import Fabric.Keyed
import Fabric.Policy.Rule

/-!
When a policy is satisfied. Approvals are recorded under texts, which count if they name a principal;
an administrator or a peer of an organisation also counts as a member of it.
-/
namespace Fabric

/-- What has been recorded, approved or not, in order of the texts. -/
structure Approvals where
  entries : List (String × Bool)
deriving DecidableEq, Repr

namespace Approvals

def ofPairs (pairs : List (String × Bool)) : Approvals := ⟨Keyed.ofList pairs⟩

def approve (a : Approvals) (key : String) : Approvals := ⟨Keyed.insert key true a.entries⟩

/-- The principals that a principal's approval counts for. -/
def widened (x : Principal) : List Principal :=
  match x.role with
  | .admin | .peer => [⟨x.mspId, .member⟩, x]
  | _ => [x]

def grantedBy : String × Bool → List Principal
  | (key, true) =>
    match Principal.parse key with
    | .ok x => widened x
    | .error _ => []
  | (_, false) => []

def granted (a : Approvals) : List Principal := a.entries.flatMap grantedBy

/-- What is done with approvals: one more is recorded, or they are only looked at. -/
inductive Step
  | approve (key : String)
  | check
deriving DecidableEq, Repr

def after (a : Approvals) : Step → Approvals
  | .approve key => a.approve key
  | .check => a

end Approvals

namespace Policy

mutual
/-- Whether a rule is satisfied, given the principals that approvals count for. -/
def evaluateRule (p : Policy) (granted : List Principal) : Rule → Except PolicyError Bool
  | .signedBy i => do
    let x ← p.principal i
    return granted.contains x
  | .nOutOf n rules => do
    let satisfied ← p.countSatisfied granted 0 rules
    return n ≤ satisfied
/-- Goes on counting the rules that are satisfied, in 32 bits. -/
def countSatisfied (p : Policy) (granted : List Principal) (satisfied : UInt32) :
    List Rule → Except PolicyError UInt32
  | [] => return satisfied
  | r :: rest => do
    if ← p.evaluateRule granted r then p.countSatisfied granted (satisfied + 1) rest
    else p.countSatisfied granted satisfied rest
end

/-- Whether the approvals satisfy the policy, which has to be valid. -/
def evaluate (p : Policy) (a : Approvals) : Except PolicyError Bool := do
  p.validate
  p.evaluateRule a.granted p.rule

/-- What is recorded after each step, and whether it satisfies the policy then. -/
def follow (p : Policy) (a : Approvals) : List Approvals.Step → List (Approvals × Except PolicyError Bool)
  | [] => []
  | step :: rest => (a.after step, p.evaluate (a.after step)) :: p.follow (a.after step) rest

end Policy

end Fabric

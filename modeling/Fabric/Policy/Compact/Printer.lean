import Fabric.Policy.Rule

namespace Fabric.Compact

/-- The text that opens a group. -/
def groupOpening (n : UInt32) (size : Nat) : List Char :=
  if n.toNat = size then "AND(".toList
  else if n = 1 then "OR(".toList
  else "OutOf(".toList ++ (Nat.toDigits 10 n.toNat ++ ", ".toList)

mutual
/-- Writes a rule behind what is written already. -/
def writeRule (p : Policy) (out : String) : Rule → Except PolicyError String
  | .signedBy i => do
    let x ← p.principal i
    return (out.push '\'' ++ x.key).push '\''
  | .nOutOf n rules => do
    if rules.isEmpty then throw .emptyRuleSet
    let out ← writeRules p true (out ++ String.ofList (groupOpening n rules.length)) rules
    return out.push ')'
/-- Writes the rules of a group, with a comma and a blank in front of all but the first. -/
def writeRules (p : Policy) (first : Bool) (out : String) : List Rule → Except PolicyError String
  | [] => return out
  | r :: rest => do
    let out ← writeRule p (if first then out else out ++ ", ") r
    writeRules p false out rest
end

/-- The text of a policy, which has to be valid. -/
def render (p : Policy) : Except PolicyError String := do
  p.validate
  writeRule p "" p.rule

end Fabric.Compact

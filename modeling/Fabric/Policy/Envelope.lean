import Fabric.Message.Policy
import Fabric.Policy.Rule

/-!
Policies as messages. Counts and indices are 32-bit integers without a sign here and with one there, so
those from 2³¹ on turn negative on the way out, and a negative number is refused on the way in.
-/
namespace Fabric.Policy

open Message (SignaturePolicy MspPrincipal MspRole PolicyEnvelope)

/-- The kind of principal that is a role in an organisation. -/
def roleClassification : Int32 := 0

def principalToMessage (x : Principal) : MspPrincipal :=
  ⟨roleClassification, Wire.encode (⟨x.mspId, x.role.code⟩ : MspRole)⟩

mutual
def ruleToMessage : Rule → SignaturePolicy
  | .signedBy i => .signedBy i.toInt32
  | .nOutOf n rules => .nOutOf n.toInt32 (rulesToMessages rules)
def rulesToMessages : List Rule → List SignaturePolicy
  | [] => []
  | r :: rest => ruleToMessage r :: rulesToMessages rest
end

def toMessage (p : Policy) : PolicyEnvelope :=
  ⟨p.version, some (ruleToMessage p.rule), p.identities.map principalToMessage⟩

def messageChildren : SignaturePolicy → Option (List SignaturePolicy)
  | .nOutOf _ rules => some rules
  | _ => none

def messageTree : GroupTree SignaturePolicy where
  children := messageChildren
  size := SignaturePolicy.size
  size_pos r := by cases r <;> simp [SignaturePolicy.size]
  size_children r rules h := by
    cases r with
    | nOutOf n rs =>
      simp only [messageChildren, Option.some.injEq] at h
      subst h
      simp [SignaturePolicy.size, SignaturePolicy.sizeList_eq]
    | _ => simp [messageChildren] at h

def principalOfMessage (m : MspPrincipal) : Except PolicyError Principal :=
  if m.classification ≠ roleClassification then
    .error (.envelope (.unsupportedClassification m.classification))
  else
    match (Wire.decode m.principal : Except Wire.DecodeError MspRole) with
    | .error e => .error (.envelope (.undecodable e))
    | .ok role =>
      match Role.ofCode? role.role.toInt with
      | some r => .ok ⟨role.mspId, r⟩
      | none => .error (.unknownRole (toString role.role.toInt))

/-- The number itself, unless it is negative. -/
def unsigned? (n : Int32) : Option UInt32 := if n < 0 then none else some n.toUInt32

mutual
def ruleOfMessage : SignaturePolicy → Except PolicyError Rule
  | .unset => .error (.envelope .emptyRule)
  | .signedBy index =>
    match unsigned? index with
    | some i => .ok (.signedBy i)
    | none => .error (.envelope (.negativeIndex index))
  | .nOutOf n rules =>
    match unsigned? n with
    | none => .error (.invalidOutOfCount (toString n.toInt))
    | some n => (rulesOfMessages rules).map (.nOutOf n)
def rulesOfMessages : List SignaturePolicy → Except PolicyError (List Rule)
  | [] => .ok []
  | m :: rest =>
    match ruleOfMessage m with
    | .error e => .error e
    | .ok r => (rulesOfMessages rest).map (r :: ·)
end

/-- Reads a policy from a message and checks it. Depth is measured before anything else is read. -/
def ofMessage (m : PolicyEnvelope) : Except PolicyError Policy :=
  match m.rule with
  | none => .error (.envelope .noRule)
  | some rule =>
    if messageTree.withinLimit maxDepth [(rule, 0)] then do
      let identities ← m.identities.mapM principalOfMessage
      validated ⟨m.version, identities, ← ruleOfMessage rule⟩
    else .error (.tooDeep maxDepth)

def encode (p : Policy) : Bytes := Wire.encode p.toMessage

def decode (b : Bytes) : Except PolicyError Policy :=
  match Wire.decode b with
  | .ok m => ofMessage m
  | .error e => .error (.envelope (.undecodable e))

end Fabric.Policy

import Fabric.Json.Record
import Fabric.Policy.Canonical
import Fabric.Text.Digits

/-!
The legacy notation: principals under "identities", and under "policy" a tree of objects with one key
each, which is "signed-by" for a principal and a count with the suffix "-of" for a group.
-/
namespace Fabric

structure LegacyIdentity where
  name : String
  mspId : String
deriving DecidableEq, Repr

/-- The tree stays JSON until it is converted. -/
structure LegacyPolicy where
  identities : List LegacyIdentity
  policy : Json

namespace LegacyPolicy

def ofSuffix : List Char := "-of".toList

/-- An object with principals and a policy. -/
def hasShape (v : Json) : Bool :=
  match v with
  | .object members => (Json.lookup "identities" members).isSome && (Json.lookup "policy" members).isSome
  | _ => false

def groupChildren (v : Json) : Option (List Json) :=
  match v with
  | .object [(key, .array rules)] => if ofSuffix.isSuffixOf key.toList then some rules else none
  | _ => none

theorem size_groupChildren {v : Json} {rules : List Json} (h : groupChildren v = some rules) :
    total Json.size rules < v.size := by
  unfold groupChildren at h
  split at h
  · split at h
    · simp only [Option.some.injEq] at h
      subst h
      simp only [Json.size, Json.sizeOfMembers, Json.sizeOfItems_eq]
      omega
    · simp at h
  · simp at h

def groupTree : GroupTree Json where
  children := groupChildren
  size := Json.size
  size_pos := Json.size_pos
  size_children _ _ h := size_groupChildren h

/-- A count is written in digits, with or without a plus sign before them. -/
def count? (cs : List Char) : Option UInt32 :=
  (Text.unsigned? cs).bind fun n => Word.uint32? n

/-- What the object of a rule says, before the rules in it are read. -/
inductive RuleNode
  | signedBy (index : UInt32)
  | group (n : UInt32) (rules : List Json)

def RuleNode.ofEntry (key : String) (body : Json) : Except PolicyError RuleNode :=
  if key = "signed-by" then
    match Policy.word? body with
    | some i => .ok (.signedBy i)
    | none => .error (.json (.invalidLegacyIndex body))
  else
    let cs := key.toList
    if ofSuffix.isSuffixOf cs then
      match count? (cs.take (cs.length - ofSuffix.length)) with
      | none => .error (.invalidLegacyKey key)
      | some n =>
        match body with
        | .array rules => .ok (.group n rules)
        | _ => .error (.json (.legacyRulesNotArray key))
    else .error (.invalidLegacyKey key)

def RuleNode.ofJson (v : Json) : Except PolicyError RuleNode :=
  match v with
  | .object [(key, body)] => ofEntry key body
  | .object members => .error (.invalidLegacyKey (String.intercalate "," (members.map (·.1))))
  | v => .error (.json (.legacyRuleNotObject v))

theorem RuleNode.children_of_ofJson {v : Json} {n : UInt32} {rules : List Json}
    (h : RuleNode.ofJson v = .ok (.group n rules)) : groupChildren v = some rules := by
  unfold ofJson at h
  split at h
  · simp only [ofEntry] at h
    split at h
    · split at h <;> simp at h
    · split at h
      · next hs =>
        split at h
        · simp at h
        · split at h
          · simp only [Except.ok.injEq, RuleNode.group.injEq] at h
            simp [groupChildren, hs, h.2]
          · simp at h
      · simp at h
  · simp at h
  · simp at h

mutual
def ruleOfJson (v : Json) : Except PolicyError Rule :=
  match h : RuleNode.ofJson v with
  | .error e => .error e
  | .ok (.signedBy i) => .ok (.signedBy i)
  | .ok (.group n rules) =>
    have : Json.sizeOfItems rules < v.size := by
      rw [Json.sizeOfItems_eq]
      exact size_groupChildren (RuleNode.children_of_ofJson h)
    match rulesOfJson rules with
    | .error e => .error e
    | .ok rs =>
      -- the rules of a group come before its count
      if rs.isEmpty then .error .emptyRuleSet
      else if n = 0 ∨ rs.length < n.toNat then .error (.outOfRange n rs.length)
      else .ok (.nOutOf n rs)
termination_by (v.size, 0)
def rulesOfJson (vs : List Json) : Except PolicyError (List Rule) :=
  match vs with
  | [] => .ok []
  | v :: rest =>
    have := v.size_pos
    match ruleOfJson v with
    | .error e => .error e
    | .ok r =>
      match rulesOfJson rest with
      | .ok rs => .ok (r :: rs)
      | .error e => .error e
termination_by (Json.sizeOfItems vs, vs.length + 1)
decreasing_by
  all_goals simp only [Json.sizeOfItems, List.length_cons]
  all_goals simp only [Prod.lex_def]
  all_goals omega
end

def roleFields : List (List String) := [["name"], ["mspId", "msp_id"]]

def identityOfJson? (v : Json) : Option LegacyIdentity :=
  match Json.record? [["role"]] v with
  | some [some role] =>
    match Json.record? roleFields role with
    | some [some (.string name), some (.string mspId)] => some ⟨name, mspId⟩
    | _ => none
  | _ => none

def identitiesOfJson? (v : Json) : Option (List LegacyIdentity) :=
  match v with
  | .array items => items.mapM identityOfJson?
  | _ => none

/-- Reads the two parts of a legacy policy. Depth is measured before the principals are read. -/
def ofJson (v : Json) : Except PolicyError LegacyPolicy :=
  match v with
  | .object members =>
    match Json.lookup "policy" members with
    | none => .error (.json (.missing "policy"))
    | some policy => do
      Policy.checkDepth groupTree policy
      match Json.lookup "identities" members with
      | none => throw (.json (.missing "identities"))
      | some identities =>
        -- the principals are read as they stand; their roles are looked at when the policy is converted
        match identitiesOfJson? identities with
        | some identities => return ⟨identities, policy⟩
        | none => throw (.json .malformed)
  | _ => .error (.unknownSyntax "expected a JSON object")

def identityToJson (i : LegacyIdentity) : Json :=
  .object [("role", .object [("name", .string i.name), ("mspId", .string i.mspId)])]

def toJson (p : LegacyPolicy) : Json :=
  .object [("identities", .array (p.identities.map identityToJson)), ("policy", p.policy)]

def principal (i : LegacyIdentity) : Except PolicyError Principal :=
  (Role.parse i.name).map fun r => ⟨i.mspId, r⟩

/-- The policy it stands for, with the principals in the same order. -/
def toPolicy (p : LegacyPolicy) : Except PolicyError Policy := do
  Policy.checkDepth groupTree p.policy
  let identities ← p.identities.mapM principal
  Policy.validated ⟨0, identities, ← ruleOfJson p.policy⟩

end LegacyPolicy

end Fabric

import Fabric.Json.Document
import Fabric.Json.Inspect
import Fabric.Json.Nesting
import Fabric.Policy.Rule
import Fabric.Word

namespace Fabric

namespace Policy

def signedByKeys : List String := ["signedBy", "signed_by"]

def groupKeys : List String := ["nOutOf", "n_out_of"]

def mspIdKeys : List String := ["mspIdentifier", "msp_identifier", "mspId", "msp_id"]

def classificationKeys : List String := ["principalClassification", "principal_classification"]

def principalToJson (x : Principal) : Json :=
  .object [("principalClassification", .string "ROLE"),
    ("principal", .object [("mspIdentifier", .string x.mspId), ("role", .string x.role.name)])]

mutual
def ruleToJson : Rule → Json
  | .signedBy i => .object [("signedBy", Json.ofNat i.toNat)]
  | .nOutOf n rules =>
    .object [("nOutOf", .object [("n", Json.ofNat n.toNat), ("rules", .array (rulesToJson rules))])]
def rulesToJson : List Rule → List Json
  | [] => []
  | r :: rest => ruleToJson r :: rulesToJson rest
end

def toJson (p : Policy) : Json :=
  .object [("version", Json.ofInt p.version.toInt), ("identities", .array (p.identities.map principalToJson)),
    ("rule", ruleToJson p.rule)]

/-- An object with principals and a rule. -/
def hasShape (v : Json) : Bool :=
  match v with
  | .object members => (Json.lookup "identities" members).isSome && (Json.lookup "rule" members).isSome
  | _ => false

def word? (v : Json) : Option UInt32 := v.int?.bind Word.uint32?

/-- The rules of a group, none for a value that is no group. -/
def groupChildren (v : Json) : Option (List Json) := do
  let group ← Json.lookupAny groupKeys (← v.members?)
  let rules ← Json.lookup "rules" (← group.members?)
  rules.items?

theorem size_groupChildren {v : Json} {rules : List Json} (h : groupChildren v = some rules) :
    total Json.size rules < v.size := by
  simp only [groupChildren, Option.bind_eq_bind, Option.bind_eq_some_iff] at h
  obtain ⟨members, hm, group, hg, inner, hi, items, hr, hitems⟩ := h
  cases v <;> simp [Json.members?] at hm
  cases group <;> simp [Json.members?] at hi
  cases items <;> simp [Json.items?] at hitems
  subst hm hi hitems
  have h₁ := Json.size_lookupAny hg
  have h₂ := Json.size_lookup hr
  simp only [Json.size, Json.sizeOfItems_eq] at h₁ h₂ ⊢
  omega

def groupTree : GroupTree Json where
  children := groupChildren
  size := Json.size
  size_pos := Json.size_pos
  size_children _ _ h := size_groupChildren h

def checkDepth (t : GroupTree Json) (v : Json) : Except PolicyError Unit :=
  if t.withinLimit maxDepth [(v, 0)] then .ok () else .error (.tooDeep maxDepth)

def versionOfJson (v : Option Json) : Except PolicyError Int32 :=
  match v with
  | none | some .null => .ok 0
  | some v =>
    match v.int?.bind Word.int32? with
    | some n => .ok n
    | none => .error (.json (.invalidVersion v))

/-- Only role principals can be expressed. -/
def checkClassification (v : Option Json) : Except PolicyError Unit :=
  match v with
  | none => .ok ()
  | some (.number n) =>
    -- zero is the number of the classification by role
    if n = .int 0 then .ok () else .error (.json (.unsupportedClassification (.number n)))
  | some (.string s) =>
    if s.toUpper = "ROLE" then .ok () else .error (.json (.unsupportedClassification (.string s)))
  | some v => .error (.json (.unsupportedClassification v))

def roleOfJson (v : Option Json) : Except PolicyError Role :=
  match v with
  | some (.string s) => Role.parse s
  | some (.number (.int n)) =>
    match Role.ofCode? n with
    | some r => .ok r
    | none => .error (.unknownRole (Json.Number.int n).text)
  | some (.number n) => .error (.unknownRole n.text)
  | _ => .error (.json .missingRole)

def principalOfJson (v : Json) : Except PolicyError Principal :=
  match v with
  | .object members => do
    checkClassification (Json.lookupAny classificationKeys members)
    match Json.lookup "principal" members with
    | some (.object principal) =>
      match Json.lookupAny mspIdKeys principal with
      | some (.string mspId) => return ⟨mspId, ← roleOfJson (Json.lookup "role" principal)⟩
      | _ => throw (.json .missingMspId)
    | _ => throw (.json .missingPrincipal)
  | v => .error (.json (.identityNotObject v))

/-- What the object of a rule says, before the rules in it are read. -/
inductive RuleNode
  | signedBy (index : UInt32)
  | group (n : UInt32) (rules : List Json)

def RuleNode.ofJson (v : Json) : Except PolicyError RuleNode :=
  match v with
  | .object members =>
    match Json.lookupAny signedByKeys members with
    | some index =>
      match word? index with
      | some i => .ok (.signedBy i)
      | none => .error (.json (.invalidIndex index))
    | none =>
      match Json.lookupAny groupKeys members with
      | some (.object inner) =>
        match (Json.lookup "n" inner).bind word? with
        | some n =>
          match Json.lookup "rules" inner with
          | some (.array rules) => .ok (.group n rules)
          | _ => .error (.json .missingRules)
        | none => .error (.invalidOutOfCount (Json.inspect? (Json.lookup "n" inner)))
      | some _ => .error (.json .groupNotObject)
      | none => .error (.json (.unknownRule v))
  | v => .error (.json (.ruleNotObject v))

theorem RuleNode.children_of_ofJson {v : Json} {n : UInt32} {rules : List Json}
    (h : RuleNode.ofJson v = .ok (.group n rules)) : groupChildren v = some rules := by
  unfold ofJson at h
  split at h
  · next members =>
    split at h
    · split at h <;> simp at h
    · split at h
      · next inner hg =>
        split at h
        · split at h
          · next hr =>
            simp only [Except.ok.injEq, RuleNode.group.injEq] at h
            simp [groupChildren, Json.members?, hg, hr, Json.items?, h.2]
          · simp at h
        · simp at h
      · simp at h
      · simp at h
  · simp at h

mutual
def ruleOfJson (v : Json) : Except PolicyError Rule :=
  match h : RuleNode.ofJson v with
  | .error e => .error e
  | .ok (.signedBy i) => .ok (.signedBy i)
  | .ok (.group n rules) =>
    have : Json.sizeOfItems rules < v.size := by
      rw [Json.sizeOfItems_eq]
      exact size_groupChildren (RuleNode.children_of_ofJson h)
    match rulesOfJson rules with
    | .ok rs => .ok (.nOutOf n rs)
    | .error e => .error e
termination_by (v.size, 0)
def rulesOfJson (vs : List Json) : Except PolicyError (List Rule) :=
  match vs with
  | [] => .ok []
  | v :: rest =>
    have := v.size_pos
    match ruleOfJson v with
    | .error e => .error e
    | .ok r =>
      match rulesOfJson rest with
      | .ok rs => .ok (r :: rs)
      | .error e => .error e
termination_by (Json.sizeOfItems vs, vs.length + 1)
decreasing_by
  all_goals simp only [Json.sizeOfItems, List.length_cons]
  all_goals simp only [Prod.lex_def]
  all_goals omega
end

def identitiesOfJson (v : Option Json) : Except PolicyError (List Principal) :=
  match v with
  | some (.array items) => items.mapM principalOfJson
  | _ => .error (.json .identitiesNotArray)

/-- Reads a policy from an object and checks it. Depth is measured before anything else is read. -/
def ofJson (v : Json) : Except PolicyError Policy :=
  match v with
  | .object members =>
    match Json.lookup "rule" members with
    | none => .error (.json (.missing "rule"))
    | some rule => do
      checkDepth groupTree rule
      let version ← versionOfJson (Json.lookup "version" members)
      let identities ← identitiesOfJson (Json.lookup "identities" members)
      validated ⟨version, identities, ← ruleOfJson rule⟩
  | _ => .error (.unknownSyntax "expected a JSON object")

/-- A policy of the greatest depth takes three levels of JSON for each group. -/
def maxJsonNesting : Nat := 3 * maxDepth + 8

/-- Reads a JSON text whose brackets are not nested deeper than those of any policy. -/
def parseJson (s : String) : Except PolicyError Json :=
  if maxJsonNesting < Json.bracketNesting s then .error (.tooDeep maxDepth)
  else
    match Json.parse? s with
    | some v => .ok v
    | none => .error (.json .malformed)

end Policy

end Fabric

import Fabric.Command.Output
import Fabric.Policy.Input
import Fabric.Proofs.Json.Nesting
import Fabric.Proofs.Policy.GroupTree
import Fabric.Proofs.Policy.Naming

namespace Fabric

/-- Where a group takes so many levels of JSON and a principal one, a rule takes as many for each of its groups. -/
theorem Rule.nesting_image_le {f : Rule → Json} {levels : Nat} (hleaf : ∀ i, (f (.signedBy i)).nesting ≤ 1)
    (hgroup : ∀ n rules, (f (.nOutOf n rules)).nesting ≤ Json.nestingOfItems (rules.map f) + levels) (r : Rule) :
    (f r).nesting ≤ levels * r.nesting + 1 := by
  induction r using Rule.induction with
  | signedBy i => exact Nat.le_trans (hleaf i) (Nat.le_add_left ..)
  | nOutOf n rules ih =>
    have hrules : Json.nestingOfItems (rules.map f) ≤ levels * Rule.nestingList rules + 1 := by
      rw [Json.nestingOfItems_le_iff, List.forall_mem_map]
      intro r hr
      have hle := Nat.mul_le_mul_left levels (Rule.nestingList_le_iff.1 (Nat.le_refl _) r hr)
      have hr := ih r hr
      omega
    calc
      (f (.nOutOf n rules)).nesting ≤ Json.nestingOfItems (rules.map f) + levels := hgroup n rules
      _ ≤ levels * Rule.nestingList rules + 1 + levels := Nat.add_le_add_right hrules levels
      _ = levels * (Rule.nOutOf n rules).nesting + 1 := by
        rw [Rule.nesting, Nat.mul_succ]
        omega

namespace Policy

theorem rulesToJson_eq (rules : List Rule) : rulesToJson rules = rules.map ruleToJson := by
  induction rules with
  | nil => rfl
  | cons r rest ih => rw [rulesToJson, ih, List.map_cons]

section Rule

theorem integral_ruleToJson (r : Rule) : (ruleToJson r).Integral := by
  have hword : ∀ n : UInt32, Int64.minValue.toInt ≤ (n.toNat : Int) ∧ (n.toNat : Int) < UInt64.size := by
    intro n
    have hlt : n.toNat < 4294967296 := n.toNat_lt_size
    have hmin : Int64.minValue.toInt = -9223372036854775808 := rfl
    have hsize : UInt64.size = 18446744073709551616 := rfl
    omega
  induction r using Rule.induction with
  | signedBy i => exact ⟨hword i, trivial⟩
  | nOutOf n rules ih =>
    have hrules : Json.AllIntegral (rulesToJson rules) := by
      rw [rulesToJson_eq, Json.allIntegral_iff, List.forall_mem_map]
      exact ih
    exact ⟨⟨hword n, hrules, trivial⟩, trivial⟩

/-- A group takes three levels of JSON. -/
theorem nesting_ruleToJson (r : Rule) : (ruleToJson r).nesting ≤ 3 * r.nesting + 1 := by
  apply Rule.nesting_image_le
  · exact fun i => Nat.le_refl 1
  · intro n rules
    simp only [ruleToJson, rulesToJson_eq, Json.nesting, Json.nestingOfMembers, Json.ofNat]
    omega

/-- The members of rules are in order as they are. -/
theorem sorted_ruleToJson (r : Rule) : (ruleToJson r).sorted = ruleToJson r := by
  induction r using Rule.induction with
  | signedBy i => rfl
  | nOutOf n rules ih =>
    have hrules : Json.sortedItems (rulesToJson rules) = rulesToJson rules := by
      rw [rulesToJson_eq, Json.sortedItems_eq, List.map_map]
      exact List.map_congr_left ih
    have hsorted : (ruleToJson (.nOutOf n rules)).sorted = .object [("nOutOf", .object
        [("n", Json.ofNat n.toNat), ("rules", .array (Json.sortedItems (rulesToJson rules)))])] := rfl
    rw [hsorted, hrules, ruleToJson]

/-- The groups of a JSON value are those of the rule. -/
theorem withinLimit_ruleToJson (r : Rule) :
    groupTree.withinLimit maxDepth [(ruleToJson r, 0)] = true ↔ r.nesting ≤ maxDepth := by
  apply Rule.withinLimit_image_iff
  intro r
  cases r with
  | signedBy i => rfl
  | nOutOf n rules => exact congrArg some (rulesToJson_eq rules)

theorem word?_ofNat (n : UInt32) : word? (Json.ofNat n.toNat) = some n :=
  Word.uint32?_natCast_eq_some_iff.2 rfl

theorem rulesOfJson_map {rules : List Rule} (h : ∀ r ∈ rules, ruleOfJson (ruleToJson r) = .ok r) :
    rulesOfJson (rulesToJson rules) = .ok rules := by
  induction rules with
  | nil => simp [rulesToJson, rulesOfJson]
  | cons r rest ih =>
    rw [List.forall_mem_cons] at h
    simp [rulesToJson, rulesOfJson, h.1, ih h.2]

/-- A JSON value is read by its node, and a group then by its items. -/
theorem ruleOfJson_eq (v : Json) : ruleOfJson v =
    match RuleNode.ofJson v with
    | .error e => .error e
    | .ok (.signedBy i) => .ok (.signedBy i)
    | .ok (.group n vs) => (rulesOfJson vs).map (.nOutOf n) := by
  rw [ruleOfJson]
  split
  · next e hnode => rw [hnode]
  · next i hnode => rw [hnode]
  · next n vs hnode =>
    simp only [hnode]
    cases rulesOfJson vs <;> rfl

/-- A rule is read back from its JSON. -/
theorem ruleOfJson_ruleToJson (r : Rule) : ruleOfJson (ruleToJson r) = .ok r := by
  induction r using Rule.induction with
  | signedBy i =>
    have hnode : RuleNode.ofJson (ruleToJson (.signedBy i)) = .ok (.signedBy i) := by
      simp [RuleNode.ofJson, ruleToJson, Json.lookupAny, signedByKeys, Json.lookup, word?_ofNat]
    rw [ruleOfJson_eq, hnode]
  | nOutOf n rules ih =>
    have hnode : RuleNode.ofJson (ruleToJson (.nOutOf n rules)) = .ok (.group n (rulesToJson rules)) := by
      simp [RuleNode.ofJson, ruleToJson, Json.lookupAny, signedByKeys, groupKeys, Json.lookup, word?_ofNat]
    have hrules : rulesOfJson (rulesToJson rules) = .ok rules := rulesOfJson_map ih
    simp only [ruleOfJson_eq, hnode, hrules]
    rfl

end Rule

theorem toInt_mem_range (n : Int32) : Int32.minValue.toInt ≤ n.toInt ∧ n.toInt ≤ Int32.maxValue.toInt := by
  have hmin : Int32.minValue.toInt = -2147483648 := rfl
  have hmax : Int32.maxValue.toInt = 2147483647 := rfl
  have hle := n.le_toInt
  have hlt := n.toInt_lt
  omega

theorem int32?_toInt (n : Int32) : Word.int32? n.toInt = some n := by
  rw [Word.int32?, if_pos (toInt_mem_range n), Int32.ofInt_toInt]

/-- A principal is read back from its JSON, in whichever order its members stand. -/
theorem principalOfJson_sorted (x : Principal) : principalOfJson (principalToJson x).sorted = .ok x := by
  let inner := Keyed.ofList [("mspIdentifier", Json.string x.mspId), ("role", .string x.role.name)]
  let members := Keyed.ofList [("principalClassification", Json.string "ROLE"), ("principal", .object inner)]
  have hclass : checkClassification (Json.lookupAny classificationKeys members) = .ok () := by
    have hlookup : Json.lookupAny classificationKeys members = some (.string "ROLE") := by
      simp [members, Json.lookupAny, classificationKeys, Keyed.ofList]
    rw [hlookup]
    exact if_pos (toUpper_of_toList rfl)
  have hprincipal : Json.lookup "principal" members = some (.object inner) := by
    simp [members, Keyed.ofList]
  have hmsp : Json.lookupAny mspIdKeys inner = some (.string x.mspId) := by
    simp [inner, Json.lookupAny, mspIdKeys, Keyed.ofList]
  have hrole : roleOfJson (Json.lookup "role" inner) = .ok x.role := by
    have hlookup : Json.lookup "role" inner = some (.string x.role.name) := by
      simp [inner, Keyed.ofList]
    rw [hlookup]
    exact Role.parse_eq_ok_iff.2 (Role.toUpper_name x.role)
  have hsorted : (principalToJson x).sorted = .object members := rfl
  simp only [hsorted, principalOfJson, hclass, hprincipal, hmsp, hrole]
  rfl

section Policy

variable (p : Policy)

theorem integral_toJson : p.toJson.Integral := by
  have hidentities : Json.AllIntegral (p.identities.map principalToJson) := by
    rw [Json.allIntegral_iff, List.forall_mem_map]
    exact fun x _ => ⟨trivial, ⟨trivial, trivial, trivial⟩, trivial⟩
  have hversion : Int64.minValue.toInt ≤ p.version.toInt ∧ p.version.toInt < UInt64.size := by
    have hrange := toInt_mem_range p.version
    have hmin : Int64.minValue.toInt ≤ Int32.minValue.toInt := by decide
    have hmax : Int32.maxValue.toInt < UInt64.size := by decide
    omega
  exact ⟨hversion, hidentities, integral_ruleToJson p.rule, trivial⟩

/-- Three levels for each of the deepest groups, and two around the rule, stay within the limit. -/
theorem nesting_toJson_le (h : p.rule.nesting ≤ maxDepth) : p.toJson.nesting ≤ maxJsonNesting := by
  have hrule := nesting_ruleToJson p.rule
  have hidentities : Json.nestingOfItems (p.identities.map principalToJson) ≤ 2 := by
    rw [Json.nestingOfItems_le_iff, List.forall_mem_map]
    exact fun x _ => Nat.le_refl 2
  simp only [toJson, Json.nesting, Json.nestingOfMembers, Json.ofInt, maxJsonNesting, maxDepth] at *
  omega

def jsonMembers : List (String × Json) :=
  Keyed.ofList [("version", Json.ofInt p.version.toInt),
    ("identities", .array (p.identities.map fun x => (principalToJson x).sorted)), ("rule", ruleToJson p.rule)]

theorem sorted_toJson : p.toJson.sorted = .object p.jsonMembers := by
  have hidentities : Json.sortedItems (p.identities.map principalToJson) =
      p.identities.map fun x => (principalToJson x).sorted := by
    rw [Json.sortedItems_eq, List.map_map]
    rfl
  rw [toJson, Json.sorted, Json.sortedMembers, Json.sortedMembers, Json.sortedMembers, sorted_ruleToJson, Json.sorted,
    hidentities]
  rfl

theorem lookup_version : Json.lookup "version" p.jsonMembers = some (Json.ofInt p.version.toInt) := by
  simp [jsonMembers, Keyed.ofList]

theorem lookup_identities : Json.lookup "identities" p.jsonMembers =
    some (.array (p.identities.map fun x => (principalToJson x).sorted)) := by
  simp [jsonMembers, Keyed.ofList]

theorem lookup_rule : Json.lookup "rule" p.jsonMembers = some (ruleToJson p.rule) := by
  simp [jsonMembers, Keyed.ofList]

/-- A policy is read from its JSON as itself, if it is valid. -/
theorem ofJson_sorted (h : p.rule.nesting ≤ maxDepth) : ofJson p.toJson.sorted = p.validated := by
  have hdepth : checkDepth groupTree (ruleToJson p.rule) = .ok () := if_pos ((withinLimit_ruleToJson p.rule).2 h)
  have hversion : versionOfJson (some (Json.ofInt p.version.toInt)) = .ok p.version := by
    simp [versionOfJson, Json.ofInt, Json.int?, int32?_toInt]
  have hidentities : identitiesOfJson (some (.array (p.identities.map fun x => (principalToJson x).sorted))) =
      .ok p.identities := by
    have hmap := mapM_map_eq_pure (h := id) fun x (_ : x ∈ p.identities) => principalOfJson_sorted x
    rw [List.map_id] at hmap
    exact hmap
  simp only [sorted_toJson, ofJson, lookup_rule, hdepth, lookup_version, hversion, lookup_identities, hidentities,
    ruleOfJson_ruleToJson]
  rfl

theorem ofJson_sorted_of_valid (h : p.validate = .ok ()) : ofJson p.toJson.sorted = .ok p := by
  rw [ofJson_sorted p (validate_eq_ok_iff.1 h).2]
  exact validated_eq_ok_iff.2 ⟨h, rfl⟩

/-- A valid policy's JSON stands for the policy. -/
theorem normalize_sorted (h : p.validate = .ok ()) : (PolicyInput.json p.toJson.sorted).normalize = .ok p := by
  have hshape : hasShape p.toJson.sorted = true := by
    rw [sorted_toJson, hasShape, lookup_identities, lookup_rule]
    rfl
  have hread := ofJson_sorted_of_valid p h
  rw [sorted_toJson] at hshape hread ⊢
  rw [PolicyInput.normalize, if_pos hshape, hread]
  exact nofun

/-- A text that is nested at most as the policy's JSON and denotes it is read as the policy. -/
theorem normalize_parseJson (h : p.validate = .ok ()) {text : String}
    (hnesting : Json.bracketNesting text ≤ p.toJson.nesting) (htext : Json.parse? text = some p.toJson.sorted) :
    (PolicyInput.parseJson text).bind PolicyInput.normalize = .ok p := by
  have hdeep : p.rule.nesting ≤ maxDepth := (validate_eq_ok_iff.1 h).2
  have hle : Json.bracketNesting text ≤ maxJsonNesting := Nat.le_trans hnesting (nesting_toJson_le p hdeep)
  have hparse : PolicyInput.parseJson text = .ok (.json p.toJson.sorted) := by
    rw [PolicyInput.parseJson, parseJson, if_neg (Nat.not_lt.2 hle), htext, sorted_toJson]
    rfl
  rw [hparse]
  exact normalize_sorted p h

/-- Both texts that a valid policy is printed as are read back as the policy. -/
theorem printed_json_reads_back (h : p.validate = .ok ()) :
    (PolicyInput.parseJson p.toJson.compact).bind PolicyInput.normalize = .ok p ∧
    (PolicyInput.parseJson (Output.json p.toJson).render).bind PolicyInput.normalize = .ok p := by
  have hv := integral_toJson p
  constructor
  · exact normalize_parseJson p h (Nat.le_of_eq (Json.bracketNesting_compact hv)) (Json.parse?_compact hv)
  · refine normalize_parseJson p h ?_ (Json.parse?_pretty_sorted hv)
    rw [Output.render, Json.bracketNesting_pretty hv.sorted]
    exact Json.nesting_sorted_le _

/-- An id of a quote, a bracket, a backslash, a control character and a letter outside ASCII, and a version with
a sign. -/
theorem printed_json_reads_back_escaped :
    let p : Policy := ⟨-7, [⟨"\"[\\\x01\u00e9", .member⟩, ⟨"", .peer⟩], .nOutOf 1 [.signedBy 1, .nOutOf 1 [.signedBy 0]]⟩
    p.validate = .ok () ∧
    (PolicyInput.parseJson p.toJson.compact).bind PolicyInput.normalize = .ok p ∧
    (PolicyInput.parseJson (Output.json p.toJson).render).bind PolicyInput.normalize = .ok p := by
  intro p
  have hp : p.validate = .ok () := by
    rw [validate_eq_ok_iff]
    simp [p, Rule.WellFormed, Rule.AllWellFormed, Rule.nesting, Rule.nestingList, maxDepth]
  exact ⟨hp, printed_json_reads_back p hp⟩

end Policy

end Policy

end Fabric

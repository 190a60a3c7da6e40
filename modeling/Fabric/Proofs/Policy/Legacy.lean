import Fabric.Proofs.Policy.Canonical
import Fabric.Proofs.Policy.RoundTrip

namespace Fabric

namespace LegacyPolicy

def groupKey (n : UInt32) : String := String.ofList (Nat.toDigits 10 n.toNat) ++ "-of"

mutual
def ruleToJson : Rule → Json
  | .signedBy i => .object [("signed-by", Json.ofNat i.toNat)]
  | .nOutOf n rules => .object [(groupKey n, .array (rulesToJson rules))]
def rulesToJson : List Rule → List Json
  | [] => []
  | r :: rest => ruleToJson r :: rulesToJson rest
end

theorem rulesToJson_eq (rules : List Rule) : rulesToJson rules = rules.map ruleToJson := by
  induction rules with
  | nil => rfl
  | cons r rest ih => rw [rulesToJson, ih, List.map_cons]

section Keys

variable (n : UInt32)

theorem toList_groupKey : (groupKey n).toList = Nat.toDigits 10 n.toNat ++ ofSuffix := by
  simp [groupKey, ofSuffix]

theorem isSuffixOf_groupKey : ofSuffix.isSuffixOf (groupKey n).toList = true := by
  rw [List.isSuffixOf_iff_suffix, toList_groupKey]
  exact List.suffix_append ..

theorem groupKey_ne_signedBy : groupKey n ≠ "signed-by" := by
  intro h
  have hsuffix := isSuffixOf_groupKey n
  rw [h] at hsuffix
  exact absurd hsuffix (by decide)

/-- The number is read back from its digits. -/
theorem count?_toDigits : count? (Nat.toDigits 10 n.toNat) = some n := by
  have hdigits : ∀ c ∈ Nat.toDigits 10 n.toNat, c.isDigit = true :=
    fun c hc => Nat.isDigit_of_mem_toDigits (by decide) (by decide) hc
  have hnat : Text.nat? (Nat.toDigits 10 n.toNat) = some n.toNat := by
    rw [Text.nat?, if_neg]
    · rw [Nat.ofDigitChars_ten_toDigits]
    · simpa using hdigits
  have hunsigned : Text.unsigned? (Nat.toDigits 10 n.toNat) = some n.toNat := by
    unfold Text.unsigned?
    split
    · next hplus =>
      -- a plus sign is no digit
      exact absurd (hdigits '+' (by rw [hplus]; exact List.mem_cons_self ..)) (by decide)
    · exact hnat
  rw [count?, hunsigned]
  exact Word.uint32?_natCast_eq_some_iff.2 rfl

theorem ofEntry_groupKey (vs : List Json) : RuleNode.ofEntry (groupKey n) (.array vs) = .ok (.group n vs) := by
  have hcount : (groupKey n).toList.take ((groupKey n).toList.length - ofSuffix.length) =
      Nat.toDigits 10 n.toNat := by
    rw [toList_groupKey, List.length_append, Nat.add_sub_cancel, List.take_left]
  simp only [RuleNode.ofEntry, groupKey_ne_signedBy, isSuffixOf_groupKey, hcount, count?_toDigits, if_true, if_false]

end Keys

section Rules

/-- The groups of a JSON value are those of the rule. -/
theorem withinLimit_ruleToJson (r : Rule) :
    groupTree.withinLimit Policy.maxDepth [(ruleToJson r, 0)] = true ↔ r.nesting ≤ Policy.maxDepth := by
  apply Rule.withinLimit_image_iff
  intro r
  cases r with
  | signedBy i => rfl
  | nOutOf n rules =>
    rw [ruleToJson, rulesToJson_eq]
    exact if_pos (isSuffixOf_groupKey n)

/-- A group takes two levels of JSON. -/
theorem nesting_ruleToJson (r : Rule) : (ruleToJson r).nesting ≤ 2 * r.nesting + 1 := by
  apply Rule.nesting_image_le
  · exact fun i => Nat.le_refl 1
  · intro n rules
    simp only [ruleToJson, rulesToJson_eq, Json.nesting, Json.nestingOfMembers]
    omega

theorem rulesOfJson_map {rules : List Rule} (h : ∀ r ∈ rules, ruleOfJson (ruleToJson r) = .ok r) :
    rulesOfJson (rulesToJson rules) = .ok rules := by
  induction rules with
  | nil => simp [rulesToJson, rulesOfJson]
  | cons r rest ih =>
    rw [List.forall_mem_cons] at h
    simp [rulesToJson, rulesOfJson, h.1, ih h.2]

def group (n : UInt32) (rules : List Rule) : Except PolicyError Rule :=
  if rules.isEmpty then .error .emptyRuleSet
  else if n = 0 ∨ rules.length < n.toNat then .error (.outOfRange n rules.length)
  else .ok (.nOutOf n rules)

/-- A JSON value is read by its node, and a group then by its items. -/
theorem ruleOfJson_eq (v : Json) : ruleOfJson v =
    match RuleNode.ofJson v with
    | .error e => .error e
    | .ok (.signedBy i) => .ok (.signedBy i)
    | .ok (.group n vs) => (rulesOfJson vs).bind (group n) := by
  rw [ruleOfJson]
  split
  · next e hnode => rw [hnode]
  · next i hnode => rw [hnode]
  · next n vs hnode =>
    simp only [hnode]
    cases rulesOfJson vs <;> rfl

theorem group_eq_ok {n : UInt32} {rules : List Rule} (h1 : 1 ≤ n.toNat) (hn : n.toNat ≤ rules.length) :
    group n rules = .ok (.nOutOf n rules) := by
  have hne : rules.isEmpty = false := by
    rw [← Bool.not_eq_true, List.isEmpty_iff]
    rintro rfl
    rw [List.length_nil] at hn
    omega
  have hrange : ¬ (n = 0 ∨ rules.length < n.toNat) := by
    rintro (rfl | hlt)
    · exact absurd h1 (by decide)
    · omega
  rw [group, if_neg (by simp [hne]), if_neg hrange]

/-- A well-formed rule is read back from the legacy notation. -/
theorem ruleOfJson_ruleToJson {identities : Nat} {r : Rule} (hw : r.WellFormed identities) :
    ruleOfJson (ruleToJson r) = .ok r := by
  induction r using Rule.induction with
  | signedBy i =>
    have hnode : RuleNode.ofJson (ruleToJson (.signedBy i)) = .ok (.signedBy i) := by
      simp [RuleNode.ofJson, RuleNode.ofEntry, ruleToJson, Policy.word?_ofNat]
    rw [ruleOfJson_eq, hnode]
  | nOutOf n rules ih =>
    rw [Rule.wellFormed_nOutOf] at hw
    obtain ⟨h1, hn, hw⟩ := hw
    have hnode : RuleNode.ofJson (ruleToJson (.nOutOf n rules)) = .ok (.group n (rulesToJson rules)) :=
      ofEntry_groupKey n _
    have hrules : rulesOfJson (rulesToJson rules) = .ok rules := rulesOfJson_map fun r hr => ih r hr (hw r hr)
    simp only [ruleOfJson_eq, hnode, hrules]
    exact group_eq_ok h1 hn

end Rules

def EitherOrder (m m' : String × Json) (members : List (String × Json)) : Prop :=
  members = [m, m'] ∨ members = [m', m]

/-- A way of writing a principal: the name of its role in any letter case, either key for the id of its
organisation, and the two in either order. -/
structure Spelling where
  principal : Principal
  roleName : String
  mspIdKey : String
  members : List (String × Json)
  toUpper_roleName : roleName.toUpper = principal.role.name
  mspIdKey_mem : mspIdKey ∈ ["mspId", "msp_id"]
  inOrder : EitherOrder ("name", .string roleName) (mspIdKey, .string principal.mspId) members

namespace Spelling

variable (s : Spelling)

def identity : LegacyIdentity := ⟨s.roleName, s.principal.mspId⟩

def json : Json := .object [("role", .object s.members)]

theorem principal_identity : LegacyPolicy.principal s.identity = .ok s.principal := by
  have hrole : Role.parse s.roleName = .ok s.principal.role := Role.parse_eq_ok_iff.2 s.toUpper_roleName
  rw [LegacyPolicy.principal, identity, hrole]
  rfl

theorem identityOfJson?_json : identityOfJson? s.json = some s.identity := by
  obtain ⟨x, name, key, members, -, hkey, hmembers⟩ := s
  simp only [List.mem_cons, List.not_mem_nil, or_false] at hkey
  rcases hkey with rfl | rfl <;> rcases hmembers with rfl | rfl <;> rfl

theorem nesting_json : s.json.nesting = 2 := by
  obtain ⟨x, name, key, members, -, -, hmembers⟩ := s
  rcases hmembers with rfl | rfl <;> rfl

end Spelling

def Members (ss : List Spelling) (r : Rule) (members : List (String × Json)) : Prop :=
  EitherOrder ("identities", .array (ss.map Spelling.json)) ("policy", ruleToJson r) members

section Written

variable {p : Policy} {ss : List Spelling}

/-- The principals and the rule of a valid policy are read as the policy. -/
theorem toPolicy_written (hp : p.validate = .ok ()) (hversion : p.version = 0)
    (hss : ss.map Spelling.principal = p.identities) :
    toPolicy ⟨ss.map Spelling.identity, ruleToJson p.rule⟩ = .ok p := by
  obtain ⟨hw, hdeep⟩ := Policy.validate_eq_ok_iff.1 hp
  have hdepth : Policy.checkDepth groupTree (ruleToJson p.rule) = .ok () :=
    if_pos ((withinLimit_ruleToJson p.rule).2 hdeep)
  have hidentities : (ss.map Spelling.identity).mapM principal = .ok p.identities := by
    rw [← hss]
    exact mapM_map_eq_pure fun s _ => s.principal_identity
  have hpolicy : (⟨0, p.identities, p.rule⟩ : Policy) = p := by
    rw [← hversion]
  simp only [toPolicy, hdepth, hidentities, ruleOfJson_ruleToJson hw, bind, Except.bind, hpolicy]
  exact Policy.validated_eq_ok_iff.2 ⟨hp, rfl⟩

variable {members : List (String × Json)}

theorem lookup_of_members {r : Rule} (hm : Members ss r members) :
    Json.lookup "identities" members = some (.array (ss.map Spelling.json)) ∧
      Json.lookup "policy" members = some (ruleToJson r) ∧ Json.lookup "rule" members = none := by
  rcases hm with rfl | rfl <;> exact ⟨rfl, rfl, rfl⟩

/-- The members are read as the principals and the rule that they are made of. -/
theorem ofJson_of_members {r : Rule} (hdeep : r.nesting ≤ Policy.maxDepth) (hm : Members ss r members) :
    ofJson (.object members) = .ok ⟨ss.map Spelling.identity, ruleToJson r⟩ := by
  obtain ⟨hids, hpolicy, -⟩ := lookup_of_members hm
  have hdepth : Policy.checkDepth groupTree (ruleToJson r) = .ok () :=
    if_pos ((withinLimit_ruleToJson r).2 hdeep)
  have hidentities : identitiesOfJson? (.array (ss.map Spelling.json)) = some (ss.map Spelling.identity) :=
    mapM_map_eq_pure fun s _ => s.identityOfJson?_json
  simp only [ofJson, hpolicy, hdepth, hids, hidentities, bind, Except.bind]
  rfl

theorem normalize_of_members (hp : p.validate = .ok ()) (hversion : p.version = 0)
    (hss : ss.map Spelling.principal = p.identities) (hm : Members ss p.rule members) :
    (PolicyInput.json (.object members)).normalize = .ok p := by
  obtain ⟨hids, hpolicy, hrule⟩ := lookup_of_members hm
  have hcanonical : Policy.hasShape (.object members) = false := by simp [Policy.hasShape, hrule]
  have hshape : hasShape (.object members) = true := by simp [hasShape, hids, hpolicy]
  have hread := ofJson_of_members (Policy.validate_eq_ok_iff.1 hp).2 hm
  have hwritten := toPolicy_written hp hversion hss
  simp [PolicyInput.normalize, hcanonical, hshape, hread, hwritten, bind, Except.bind]

/-- Two levels for each of the deepest groups, and two around the rule, stay within the limit on brackets. -/
theorem nesting_of_members {r : Rule} (hdeep : r.nesting ≤ Policy.maxDepth) (hm : Members ss r members) :
    (Json.object members).nesting ≤ Policy.maxJsonNesting := by
  have hrule := nesting_ruleToJson r
  have hidentities : Json.nestingOfItems (ss.map Spelling.json) ≤ 2 := by
    rw [Json.nestingOfItems_le_iff, List.forall_mem_map]
    exact fun s _ => Nat.le_of_eq s.nesting_json
  have hmembers : Json.nestingOfMembers members ≤ 2 * Policy.maxDepth + 3 := by
    rw [Json.nestingOfMembers_le_iff]
    intro m hmem
    have hm : m = ("identities", .array (ss.map Spelling.json)) ∨ m = ("policy", ruleToJson r) := by
      rcases hm with rfl | rfl <;> simpa [or_comm] using hmem
    rcases hm with rfl | rfl
    · simp only [Json.nesting]
      omega
    · simp only
      omega
  rw [Json.nesting, Policy.maxJsonNesting]
  omega

theorem normalize_of_writes (hp : p.validate = .ok ()) (hversion : p.version = 0)
    (hss : ss.map Spelling.principal = p.identities) (hm : Members ss p.rule members) {text : String}
    (htext : Json.Writes text (.object members)) :
    (PolicyInput.parseJson text).bind PolicyInput.normalize = .ok p := by
  have hnesting : Json.bracketNesting text ≤ Policy.maxJsonNesting := by
    rw [htext.bracketNesting]
    exact nesting_of_members (Policy.validate_eq_ok_iff.1 hp).2 hm
  rw [PolicyInput.parseJson, Policy.parseJson, if_neg (Nat.not_lt.2 hnesting), htext.parse?]
  exact normalize_of_members hp hversion hss hm

end Written

end LegacyPolicy

/-- A valid policy of version zero is what it is written as in the legacy notation: from its principals and its
rule, from a JSON value and from any text of the value that repeats no key. If the ids of its organisations can be
printed, its compact text is read as the same policy with its principals in order of first appearance. -/
theorem legacy_denotes {p : Policy} (hp : p.validate = .ok ()) (hversion : p.version = 0) :
    (∀ ss : List LegacyPolicy.Spelling, ss.map LegacyPolicy.Spelling.principal = p.identities →
      (PolicyInput.legacy ⟨ss.map LegacyPolicy.Spelling.identity, LegacyPolicy.ruleToJson p.rule⟩).normalize = .ok p ∧
      ∀ members, LegacyPolicy.Members ss p.rule members →
        (PolicyInput.json (.object members)).normalize = .ok p ∧
        ∀ text, Json.Writes text (.object members) →
          (PolicyInput.parseJson text).bind PolicyInput.normalize = .ok p) ∧
    (Compact.Printable p →
      ∃ text, Compact.render p = .ok text ∧ (PolicyInput.compact text).normalize = .ok p.reindexed) := by
  refine ⟨?_, ?_⟩
  · intro ss hss
    refine ⟨LegacyPolicy.toPolicy_written hp hversion hss, ?_⟩
    intro members hm
    refine ⟨LegacyPolicy.normalize_of_members hp hversion hss hm, ?_⟩
    exact fun text htext => LegacyPolicy.normalize_of_writes hp hversion hss hm htext
  · intro hprint
    refine ⟨Compact.printed p, Compact.render_eq_ok_iff.2 ⟨hp, rfl⟩, ?_⟩
    exact Compact.parse_printed_of_printable hp hprint

/-- Roles in mixed case, both keys of an id, the rule in front of the principals, and an unused principal. -/
theorem legacy_denotes_mixed :
    let p : Policy := ⟨0, [⟨"A", .admin⟩, ⟨"Org\"1", .member⟩, ⟨"B.c", .peer⟩],
      .nOutOf 2 [.signedBy 2, .nOutOf 1 [.signedBy 1]]⟩
    let v : Json := .object [
      ("policy", .object [("2-of", .array [.object [("signed-by", .ofNat 2)],
        .object [("1-of", .array [.object [("signed-by", .ofNat 1)]])]])]),
      ("identities", .array [
        .object [("role", .object [("mspId", .string "A"), ("name", .string "ADMIN")])],
        .object [("role", .object [("msp_id", .string "Org\"1"), ("name", .string "mEmber")])],
        .object [("role", .object [("mspId", .string "B.c"), ("name", .string "peer")])]])]
    p.validate = .ok () ∧ (PolicyInput.json v).normalize = .ok p ∧
      (PolicyInput.parseJson v.compact).bind PolicyInput.normalize = .ok p ∧
      ∃ text, Compact.render p = .ok text ∧ (PolicyInput.compact text).normalize =
        .ok ⟨0, [⟨"B.c", .peer⟩, ⟨"Org\"1", .member⟩], .nOutOf 2 [.signedBy 0, .nOutOf 1 [.signedBy 1]]⟩ := by
  intro p v
  have hp : p.validate = .ok () := by
    rw [Policy.validate_eq_ok_iff]
    simp [p, Rule.WellFormed, Rule.AllWellFormed, Rule.nesting, Rule.nestingList, Policy.maxDepth]
  let ss : List LegacyPolicy.Spelling := [
    ⟨⟨"A", .admin⟩, "ADMIN", "mspId", _, toUpper_of_toList (by decide), by decide, .inr rfl⟩,
    ⟨⟨"Org\"1", .member⟩, "mEmber", "msp_id", _, toUpper_of_toList (by decide), by decide, .inr rfl⟩,
    ⟨⟨"B.c", .peer⟩, "peer", "mspId", _, toUpper_of_toList (by decide), by decide, .inr rfl⟩]
  obtain ⟨hlegacy, hcompact⟩ := legacy_denotes hp rfl
  have hmembers := (hlegacy ss rfl).2
  have hwrites : Json.Writes v.compact v.sorted := by
    apply Json.writes_compact
    · simp [v, Json.ofNat, Json.Integral, Json.AllIntegral, Json.MembersIntegral]
    · simp [v, Json.ofNat, Json.toDocument, Json.toDocuments, Json.toDocumentMembers, Json.Document.DistinctKeys,
        Json.Document.AllDistinctKeys, Json.Document.MembersDistinctKeys]
  refine ⟨hp, (hmembers _ (.inr rfl)).1, (hmembers _ (.inl rfl)).2 _ hwrites, ?_⟩
  have hprint : Compact.Printable p := by
    have hreferenced : p.referenced = [⟨"B.c", .peer⟩, ⟨"Org\"1", .member⟩] := by decide
    rw [Compact.Printable, hreferenced]
    decide
  exact hcompact hprint

end Fabric

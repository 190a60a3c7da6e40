import Fabric.Policy.Input
import Fabric.Proofs.Json.RoundTrip
import Fabric.Proofs.Policy.Acceptance

namespace Fabric

section Groups

variable {α : Type}

/-- The value is the outermost of `k` groups that stand around one another, where `holds` says which values
are groups and what they hold. -/
inductive NestsGroups (holds : α → List α → Prop) : Nat → α → Prop
  | one {a : α} {bs : List α} (h : holds a bs) : NestsGroups holds 1 a
  | more {a b : α} {bs : List α} {k : Nat} (h : holds a bs) (hb : b ∈ bs) (hk : NestsGroups holds k b) :
      NestsGroups holds (k + 1) a

/-- The measure passes exactly the work in which no groups stand around one another beyond the limit. -/
theorem GroupTree.withinLimit_iff_nestsGroups (t : GroupTree α) {holds : α → List α → Prop}
    (hholds : ∀ a bs, holds a bs ↔ t.children a = some bs) {limit : Nat} {work : GroupTree.Work α} :
    t.withinLimit limit work = true ↔ ∀ w ∈ work, ∀ k, NestsGroups holds k w.1 → w.2 + k ≤ limit := by
  fun_induction t.withinLimit limit work with
  | case1 => simp
  | case2 a depth rest h hlt ih =>
    have hnone : ∀ k, ¬ NestsGroups holds k a := by
      intro k hk
      cases hk with
      | one hg | more hg => simp [(hholds _ _).1 hg] at h
    simp [ih, hnone]
  | case3 a depth rest bs h hlt hdeep =>
    -- the group itself is one too many
    have hone : NestsGroups holds 1 a := .one ((hholds a bs).2 h)
    simp only [Bool.false_eq_true, List.forall_mem_cons, false_iff]
    intro hall
    have hle := hall.1 1 hone
    omega
  | case4 a depth rest bs h hlt hdeep ih =>
    simp only [List.map_subtype, List.unattach_attach] at ih
    have hgroup : (∀ k, NestsGroups holds k a → depth + k ≤ limit) ↔
        ∀ b ∈ bs, ∀ k, NestsGroups holds k b → depth + 1 + k ≤ limit := by
      constructor
      · intro hall b hb k hk
        have hle := hall (k + 1) (.more ((hholds a bs).2 h) hb hk)
        omega
      · intro hall k hk
        cases hk with
        | one => omega
        | more hg hb hk =>
          obtain rfl : _ = bs := Option.some.inj (((hholds _ _).1 hg).symm.trans h)
          have hle := hall _ hb _ hk
          omega
    rw [ih, List.forall_mem_append, List.forall_mem_cons, List.forall_mem_map, hgroup]

theorem NestsGroups.repeat {holds : α → List α → Prop} {f : α → α} (hf : ∀ a, holds (f a) [a]) (a : α) (k : Nat) :
    NestsGroups holds (k + 1) (Nat.repeat f (k + 1) a) := by
  induction k with
  | zero => exact .one (hf a)
  | succ k ih => exact .more (hf _) (List.mem_singleton_self _) ih

theorem GroupTree.withinLimit_eq_false (t : GroupTree α) {holds : α → List α → Prop}
    (hholds : ∀ a bs, holds a bs ↔ t.children a = some bs) {limit k : Nat} {a : α} (hk : limit < k)
    (hdeep : NestsGroups holds k a) : t.withinLimit limit [(a, 0)] = false := by
  rw [← Bool.not_eq_true, t.withinLimit_iff_nestsGroups hholds]
  intro hall
  have hle := hall (a, 0) (List.mem_singleton_self _) k hdeep
  omega

end Groups

namespace Policy

def HoldsRules (v : Json) (rules : List Json) : Prop :=
  ∃ members inner, v = .object members ∧ Json.lookupAny ["nOutOf", "n_out_of"] members = some (.object inner) ∧
    Json.lookup "rules" inner = some (.array rules)

theorem holdsRules_iff {v : Json} {rules : List Json} : HoldsRules v rules ↔ groupTree.children v = some rules := by
  have hmembers {v : Json} {members : List (String × Json)} : v.members? = some members ↔ v = .object members := by
    cases v <;> simp [Json.members?]
  have hitems {v : Json} {items : List Json} : v.items? = some items ↔ v = .array items := by
    cases v <;> simp [Json.items?]
  change _ ↔ groupChildren v = some rules
  simp only [groupChildren, Option.bind_eq_bind, Option.bind_eq_some_iff, hmembers, hitems]
  constructor
  · rintro ⟨members, inner, rfl, hgroup, hrules⟩
    exact ⟨members, rfl, _, hgroup, inner, rfl, _, hrules, rfl⟩
  · rintro ⟨members, rfl, _, hgroup, inner, rfl, _, hrules, rfl⟩
    exact ⟨members, inner, rfl, hgroup, hrules⟩

def HoldsMessages (m : Message.SignaturePolicy) (rules : List Message.SignaturePolicy) : Prop :=
  ∃ n, m = .nOutOf n rules

theorem holdsMessages_iff {m : Message.SignaturePolicy} {rules : List Message.SignaturePolicy} :
    HoldsMessages m rules ↔ messageTree.children m = some rules := by
  cases m <;> simp [HoldsMessages, messageTree, messageChildren]

theorem checkDepth_of_nestsGroups {t : GroupTree Json} {holds : Json → List Json → Prop}
    (hholds : ∀ v rules, holds v rules ↔ t.children v = some rules) {v : Json} {k : Nat} (hk : maxDepth < k)
    (hdeep : NestsGroups holds k v) : checkDepth t v = .error (.tooDeep maxDepth) := by
  rw [checkDepth, t.withinLimit_eq_false hholds hk hdeep]
  rfl

end Policy

def LegacyPolicy.HoldsRules (v : Json) (rules : List Json) : Prop :=
  ∃ key, v = .object [(key, .array rules)] ∧ "-of".toList <:+ key.toList

theorem LegacyPolicy.holdsRules_iff {v : Json} {rules : List Json} :
    HoldsRules v rules ↔ groupTree.children v = some rules := by
  constructor
  · rintro ⟨key, rfl, hkey⟩
    exact if_pos (List.isSuffixOf_iff_suffix.2 hkey)
  · intro h
    change groupChildren v = some rules at h
    unfold groupChildren at h
    split at h
    · next key items =>
      split at h
      · next hkey =>
        cases h
        exact ⟨key, rfl, List.isSuffixOf_iff_suffix.1 hkey⟩
      · cases h
    · cases h

namespace Compact

def surplus (ts : List Token) : Int := (ts.count .openParen : Int) - ts.count .closeParen

theorem surplus_cons (t : Token) (ts : List Token) : surplus (t :: ts) = surplus [t] + surplus ts := by
  simp only [surplus, List.count_cons, List.count_nil]
  omega

/-- Read from the start, the tokens open more than `limit` parentheses that are not closed yet, before they
close one that is not open. -/
def OpensBeyond (limit : Nat) (ts : List Token) : Prop :=
  ∃ before after, ts = before ++ after ∧ (limit : Int) < surplus before ∧ ∀ us, us <+: before → 0 ≤ surplus us

/-- The parentheses are too deep where the open ones and the surplus of the next tokens exceed the limit. -/
theorem checkNesting_of_surplus {before after : List Token} {depth : Nat} (offset : Nat)
    (hdepth : depth ≤ Policy.maxDepth) (hbeyond : (Policy.maxDepth : Int) < depth + surplus before)
    (hopen : ∀ us, us <+: before → 0 ≤ depth + surplus us) :
    checkNesting depth offset (before ++ after) = .error (.tooDeep Policy.maxDepth) := by
  induction before generalizing depth offset with
  | nil =>
    have hnil : surplus [] = 0 := rfl
    omega
  | cons t before ih =>
    -- what the next token adds to the depth it takes from the surplus of the rest
    have hnext : ∀ d : Nat, (d : Int) = depth + surplus [t] → d ≤ Policy.maxDepth →
        checkNesting d (offset + 1) (before ++ after) = .error (.tooDeep Policy.maxDepth) := by
      intro d hd hle
      apply ih (offset + 1) hle
      · rw [surplus_cons] at hbeyond
        omega
      · intro us hus
        have hprefix : 0 ≤ (depth : Int) + surplus (t :: us) := hopen (t :: us) (List.cons_prefix_cons.2 ⟨rfl, hus⟩)
        rw [surplus_cons] at hprefix
        omega
    have hfirst : 0 ≤ (depth : Int) + surplus [t] := hopen [t] (List.prefix_append [t] before)
    rw [List.cons_append]
    cases t with
    | openParen =>
      have hone : surplus [.openParen] = 1 := rfl
      rw [checkNesting]
      by_cases hlt : Policy.maxDepth < depth + 1
      · rw [if_pos hlt]
      · rw [if_neg hlt]
        exact hnext (depth + 1) (by omega) (by omega)
    | closeParen =>
      have hone : surplus [.closeParen] = -1 := rfl
      cases depth with
      | zero => omega
      | succ d => exact hnext d (by omega) (by omega)
    | word s | quoted s | number s | comma => exact hnext depth (by simp [surplus]) hdepth

theorem split_replicate_openParen (k : Nat) :
    Token.split (String.ofList (List.replicate k '(')) = .ok (List.replicate k .openParen) := by
  rw [split_eq_ok_iff, String.toList_ofList]
  induction k with
  | zero => exact .done
  | succ k ih => exact .openParen ih

theorem opensBeyond_replicate {limit k : Nat} (hk : limit < k) : OpensBeyond limit (List.replicate k .openParen) := by
  have hsurplus : ∀ us, us <+: List.replicate k Token.openParen → surplus us = us.length := by
    intro us hus
    rw [List.prefix_replicate_iff] at hus
    rw [hus.2, surplus]
    simp [List.count_replicate]
  refine ⟨List.replicate k .openParen, [], (List.append_nil _).symm, ?_, ?_⟩
  · rw [hsurplus _ (List.prefix_refl _), List.length_replicate]
    omega
  · intro us hus
    rw [hsurplus us hus]
    omega

theorem parse_of_opensBeyond {s : String} {ts : List Token} (hs : Token.split s = .ok ts)
    (hts : OpensBeyond Policy.maxDepth ts) : parse s = .error (.tooDeep Policy.maxDepth) := by
  obtain ⟨before, after, rfl, hbeyond, hopen⟩ := hts
  have hnesting : checkNesting 0 0 (before ++ after) = .error (.tooDeep Policy.maxDepth) :=
    checkNesting_of_surplus 0 (Nat.zero_le _) (by omega) fun us hus => by simpa using hopen us hus
  have hblank : ¬ Text.isBlankText s := by
    -- a blank text has no tokens, and so no parentheses
    intro hb
    have hnil := (split_eq_ok_iff.1 hs).eq_nil_of_blank (List.all_eq_true.1 hb)
    obtain rfl : before = [] := (List.append_eq_nil_iff.1 hnil).1
    exact absurd hbeyond (by decide)
  rw [parse, if_neg hblank, hs]
  simp only [bind, Except.bind, ofTokens, hnesting]

end Compact

inductive PolicyInput.Overdeep : PolicyInput → Prop
  | compact {s : String} {ts : List Compact.Token} (hs : Compact.Token.split s = .ok ts)
      (hdeep : Compact.OpensBeyond Policy.maxDepth ts) : Overdeep (.compact s)
  | canonical {members : List (String × Json)} {rule : Json} {k : Nat}
      (hids : (Json.lookup "identities" members).isSome) (hrule : Json.lookup "rule" members = some rule)
      (hk : Policy.maxDepth < k) (hdeep : NestsGroups Policy.HoldsRules k rule) :
      Overdeep (.json (.object members))
  | legacyJson {members : List (String × Json)} {policy : Json} {k : Nat}
      (hids : (Json.lookup "identities" members).isSome) (hrule : Json.lookup "rule" members = none)
      (hpolicy : Json.lookup "policy" members = some policy) (hk : Policy.maxDepth < k)
      (hdeep : NestsGroups LegacyPolicy.HoldsRules k policy) : Overdeep (.json (.object members))
  | legacy {p : LegacyPolicy} {k : Nat} (hk : Policy.maxDepth < k)
      (hdeep : NestsGroups LegacyPolicy.HoldsRules k p.policy) : Overdeep (.legacy p)

namespace PolicyInput

/-- The groups are counted before anything else that could be wrong. -/
theorem normalize_of_overdeep {input : PolicyInput} (h : input.Overdeep) :
    input.normalize = .error (.tooDeep Policy.maxDepth) := by
  cases h with
  | compact hs hdeep => exact Compact.parse_of_opensBeyond hs hdeep
  | @canonical members rule k hids hrule hk hdeep =>
    -- two members decide that the notation is this one, and the groups are counted next
    have hshape : Policy.hasShape (.object members) = true := by simp [Policy.hasShape, hids, hrule]
    have hcheck := Policy.checkDepth_of_nestsGroups (fun _ _ => Policy.holdsRules_iff) hk hdeep
    have hread : Policy.ofJson (.object members) = .error (.tooDeep Policy.maxDepth) := by
      rw [Policy.ofJson, hrule]
      simp only [hcheck, bind, Except.bind]
    simp [normalize, hshape, hread]
  | @legacyJson members policy k hids hrule hpolicy hk hdeep =>
    have hcanonical : Policy.hasShape (.object members) = false := by simp [Policy.hasShape, hrule]
    have hshape : LegacyPolicy.hasShape (.object members) = true := by
      simp [LegacyPolicy.hasShape, hids, hpolicy]
    have hcheck := Policy.checkDepth_of_nestsGroups (fun _ _ => LegacyPolicy.holdsRules_iff) hk hdeep
    have hread : LegacyPolicy.ofJson (.object members) = .error (.tooDeep Policy.maxDepth) := by
      rw [LegacyPolicy.ofJson, hpolicy]
      simp only [hcheck, bind, Except.bind]
    simp only [normalize, hcanonical, hshape, hread, bind, Except.bind]
    simp
  | @legacy p k hk hdeep =>
    have hcheck := Policy.checkDepth_of_nestsGroups (fun _ _ => LegacyPolicy.holdsRules_iff) hk hdeep
    simp only [normalize, LegacyPolicy.toPolicy, hcheck, bind, Except.bind]

/-- A text of such a value is refused so by its brackets, or else once it was read. -/
theorem parseJson_of_overdeep {text : String} {v : Json} (htext : Json.parse? text = some v)
    (hv : (ofJson v).Overdeep) : (parseJson text).bind normalize = .error (.tooDeep Policy.maxDepth) := by
  rw [parseJson, Policy.parseJson]
  by_cases hnesting : Policy.maxJsonNesting < Json.bracketNesting text
  · rw [if_pos hnesting]
    rfl
  · rw [if_neg hnesting, htext]
    exact normalize_of_overdeep hv

end PolicyInput

theorem Policy.ofMessage_of_nestsGroups {m : Message.PolicyEnvelope} {rule : Message.SignaturePolicy} {k : Nat}
    (hrule : m.rule = some rule) (hk : maxDepth < k) (hdeep : NestsGroups HoldsMessages k rule) :
    ofMessage m = .error (.tooDeep maxDepth) := by
  simp [ofMessage, hrule, messageTree.withinLimit_eq_false (fun _ _ => holdsMessages_iff) hk hdeep]

/-- Groups that are nested beyond the limit are refused as too deep, in a text, in a JSON value of either
notation, in a JSON text and in a message, whatever else is wrong there. -/
theorem overdeep_refused :
    (∀ input : PolicyInput, input.Overdeep → input.normalize = .error (.tooDeep Policy.maxDepth)) ∧
    (∀ (text : String) (v : Json), Json.parse? text = some v → (PolicyInput.ofJson v).Overdeep →
      (PolicyInput.parseJson text).bind PolicyInput.normalize = .error (.tooDeep Policy.maxDepth)) ∧
    (∀ (m : Message.PolicyEnvelope) (rule : Message.SignaturePolicy) (k : Nat), m.rule = some rule →
      Policy.maxDepth < k → NestsGroups Policy.HoldsMessages k rule →
        Policy.ofMessage m = .error (.tooDeep Policy.maxDepth)) := by
  refine ⟨?_, ?_, ?_⟩
  · exact fun input h => PolicyInput.normalize_of_overdeep h
  · exact fun text v htext hv => PolicyInput.parseJson_of_overdeep htext hv
  · exact fun m rule k hrule hk hdeep => Policy.ofMessage_of_nestsGroups hrule hk hdeep

/-- Values with one group too many, which ask for none of their rules or for a negative number of them, hold no
rule in the innermost group, and list no principals or one of an unknown role; and a text that only opens
parentheses. -/
theorem overdeep_refused_malformed :
    let rule : Json :=
      Nat.repeat (fun v => .object [("n_out_of", .object [("n", .null), ("rules", .array [v])])]) 1001 .null
    let policy : Json := Nat.repeat (fun v => .object [("0-of", .array [v])]) 1001 .null
    let message : Message.SignaturePolicy := Nat.repeat (fun m => .nOutOf (-1) [m]) 1001 .unset
    (PolicyInput.json (.object [("identities", .null), ("rule", rule), ("version", .null)])).normalize =
      .error (.tooDeep Policy.maxDepth) ∧
    (PolicyInput.json (.object [("identities", .null), ("policy", policy)])).normalize =
      .error (.tooDeep Policy.maxDepth) ∧
    (PolicyInput.legacy ⟨[⟨"nobody", ""⟩], policy⟩).normalize = .error (.tooDeep Policy.maxDepth) ∧
    (PolicyInput.parseJson (Json.string (String.ofList (List.replicate 1001 '('))).compact).bind
      PolicyInput.normalize = .error (.tooDeep Policy.maxDepth) ∧
    Policy.ofMessage ⟨-1, some message, [⟨7, []⟩]⟩ = .error (.tooDeep Policy.maxDepth) := by
  intro rule policy message
  obtain ⟨hinput, htext, hmessage⟩ := overdeep_refused
  have hk : Policy.maxDepth < 1001 := by decide
  have hrule : NestsGroups Policy.HoldsRules 1001 rule := .repeat (fun v => ⟨_, _, rfl, rfl, rfl⟩) _ _
  have hpolicy : NestsGroups LegacyPolicy.HoldsRules 1001 policy := .repeat (fun v => ⟨_, rfl, by decide⟩) _ _
  refine ⟨?_, ?_, ?_, ?_, ?_⟩
  · exact hinput _ (.canonical rfl rfl hk hrule)
  · exact hinput _ (.legacyJson rfl rfl rfl hk hpolicy)
  · exact hinput _ (.legacy hk hpolicy)
  · refine htext _ _ (Json.parse?_compact trivial) (.compact ?_ (Compact.opensBeyond_replicate hk))
    exact Compact.split_replicate_openParen 1001
  · exact hmessage _ message 1001 rfl hk (.repeat (fun m => ⟨_, rfl⟩) _ _)

end Fabric

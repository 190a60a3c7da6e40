import Fabric.Proofs.Policy.Canonical
import Fabric.Proofs.Policy.Quoting
import Fabric.Proofs.Policy.Satisfaction

namespace Fabric

namespace Rule

variable {signed signed' : UInt32 → Bool}

/-- What more principals have signed does not make a rule fail. -/
theorem holds_mono (h : ∀ i, signed i = true → signed' i = true) {r : Rule} (hr : r.holds signed = true) :
    r.holds signed' = true := by
  induction r using Rule.induction with
  | signedBy i => exact h i hr
  | nOutOf n rules ih =>
    rw [holds, decide_eq_true_eq, le_holding_iff] at hr ⊢
    obtain ⟨chosen, hsub, hn, hall⟩ := hr
    exact ⟨chosen, hsub, hn, fun r hmem => ih r (hsub.subset hmem) (hall r hmem)⟩

/-- A well-formed rule holds if all principals that it refers to have signed. -/
theorem holds_of_signed {identities : List Principal} {r : Rule} (hw : r.WellFormed identities.length)
    (h : ∀ (i : UInt32), ∀ x ∈ r.referenced identities, identities[i.toNat]? = some x → signed i = true) :
    r.holds signed = true := by
  induction r using Rule.induction with
  | signedBy i =>
    have hi : identities[i.toNat]? = some _ := List.getElem?_eq_getElem hw
    exact h i _ (by simp [referenced, hi]) hi
  | nOutOf n rules ih =>
    rw [wellFormed_nOutOf] at hw
    obtain ⟨-, hn, hrules⟩ := hw
    rw [holds, decide_eq_true_eq, le_holding_iff]
    -- all rules of the group can be chosen
    refine ⟨rules, List.Sublist.refl rules, hn, fun r hr => ih r hr (hrules r hr) ?_⟩
    exact fun i x hx => h i x (mem_referencedIn.2 ⟨r, hr, hx⟩)

end Rule

namespace Approvals

/-- An approval counts for principals of organisations that have an id. -/
theorem mspId_ne_of_mem_granted {a : Approvals} {x : Principal} (hx : x ∈ a.granted) : x.mspId ≠ "" := by
  obtain ⟨key, y, -, hname, hwidened⟩ := mem_granted.1 hx
  have hcounts : y.CountsFor x := mem_widened_iff.1 hwidened
  exact hcounts.1 ▸ hname.1

theorem mem_granted_of_key {a : Approvals} {x : Principal} (hkey : (x.key, true) ∈ a.entries)
    (hx : x.mspId ≠ "") : x ∈ a.granted :=
  mem_granted.2 ⟨x.key, x, hkey, Principal.namedBy_key hx, mem_widened_self x⟩

end Approvals

namespace Policy

variable {p : Policy} {a : Approvals}

def nameable (p : Policy) (index : UInt32) : Bool := p.identities[index.toNat]?.any fun x => x.mspId ≠ ""

theorem nameable_eq_true_iff {i : UInt32} :
    p.nameable i = true ↔ ∃ x, p.identities[i.toNat]? = some x ∧ x.mspId ≠ "" := by
  simp [nameable, Option.any_eq_true]

theorem nameable_of_signedAmong {i : UInt32} (h : p.signedAmong a.granted i = true) : p.nameable i = true := by
  obtain ⟨x, hx, hgranted⟩ := signedAmong_eq_true_iff.1 h
  exact nameable_eq_true_iff.2 ⟨x, hx, Approvals.mspId_ne_of_mem_granted hgranted⟩

/-- The approvals of all principals of a policy count for those that can be named, and no others do. -/
theorem signedAmong_own (ha : ∀ x ∈ p.identities, (x.key, true) ∈ a.entries) :
    p.signedAmong a.granted = p.nameable := by
  ext i
  rw [Bool.eq_iff_iff]
  refine ⟨nameable_of_signedAmong, fun h => ?_⟩
  obtain ⟨x, hx, hid⟩ := nameable_eq_true_iff.1 h
  have hkey : (x.key, true) ∈ a.entries := ha x (List.mem_of_getElem? hx)
  exact signedAmong_eq_true_iff.2 ⟨x, hx, Approvals.mem_granted_of_key hkey hid⟩

theorem holds_nameable (hp : p.validate = .ok ()) (h : ∀ x ∈ p.referenced, x.mspId ≠ "") :
    p.rule.holds p.nameable = true :=
  Rule.holds_of_signed (validate_eq_ok_iff.1 hp).1 fun _ x hx hi => nameable_eq_true_iff.2 ⟨x, hi, h x hx⟩

end Policy

/-- A text of the compact notation lists principals that can be named, for it names them. -/
theorem Compact.mspId_ne_empty_of_parse {s : String} {p : Policy} (h : parse s = .ok p) :
    ∀ x ∈ p.identities, x.mspId ≠ "" := by
  obtain ⟨e, ⟨ts, -, he⟩, -, rfl, -⟩ := parse_eq_ok_iff.1 h
  intro x hx
  obtain ⟨name, -, hname⟩ := he.exists_name (List.mem_eraseDups.1 hx)
  exact hname.1

section Validity

variable {p : Policy}

theorem Policy.validate_of_validated {q : Policy} (h : q.validated = .ok p) : p.validate = .ok () := by
  obtain ⟨hvalid, rfl⟩ := validated_eq_ok_iff.1 h
  exact hvalid

theorem Policy.validate_of_ofJson {v : Json} (h : ofJson v = .ok p) : p.validate = .ok () := by
  rw [ofJson.eq_def] at h
  split at h
  · split at h
    · cases h
    · obtain ⟨-, -, h⟩ := bind_eq_ok_iff.1 h
      obtain ⟨version, -, h⟩ := bind_eq_ok_iff.1 h
      obtain ⟨identities, -, h⟩ := bind_eq_ok_iff.1 h
      obtain ⟨rule, -, h⟩ := bind_eq_ok_iff.1 h
      exact validate_of_validated h
  · cases h

theorem LegacyPolicy.validate_of_toPolicy {l : LegacyPolicy} (h : l.toPolicy = .ok p) : p.validate = .ok () := by
  obtain ⟨-, -, h⟩ := bind_eq_ok_iff.1 h
  obtain ⟨identities, -, h⟩ := bind_eq_ok_iff.1 h
  obtain ⟨rule, -, h⟩ := bind_eq_ok_iff.1 h
  exact Policy.validate_of_validated h

theorem Compact.validate_of_parse {s : String} (h : parse s = .ok p) : p.validate = .ok () := by
  obtain ⟨-, -, -, -, hvalid⟩ := parse_eq_ok_iff.1 h
  exact hvalid

/-- Every policy that is accepted is valid, in whichever notation it is written. -/
theorem PolicyInput.validate_of_normalize {input : PolicyInput} (h : input.normalize = .ok p) :
    p.validate = .ok () := by
  rw [normalize.eq_def] at h
  split at h
  · exact Compact.validate_of_parse h
  · exact Policy.validate_of_validated h
  · exact LegacyPolicy.validate_of_toPolicy h
  · exact Compact.validate_of_parse h
  · split at h
    · exact Policy.validate_of_ofJson h
    · split at h
      · obtain ⟨l, -, hl⟩ := bind_eq_ok_iff.1 h
        exact LegacyPolicy.validate_of_toPolicy hl
      · cases h

end Validity

namespace Policy

/-- The approvals of all principals of a policy satisfy it exactly if those that can be named are enough. -/
theorem evaluate_own {p : Policy} (hp : p.validate = .ok ()) (hg : p.rule.GroupsBelow UInt32.size) {a : Approvals}
    (ha : ∀ x ∈ p.identities, (x.key, true) ∈ a.entries) : p.evaluate a = .ok (p.rule.holds p.nameable) := by
  rw [evaluate_eq_ok hp hg, signedAmong_own ha]

mutual
/-- A well-formed rule is not satisfied by nobody, since every group asks for one rule at least. -/
theorem evaluateRule_nil {p : Policy} : ∀ {r : Rule}, r.WellFormed p.identities.length →
    p.evaluateRule [] r = .ok false
  | .signedBy i, hw => by
    rw [evaluateRule, principal, List.getElem?_eq_getElem hw]
    rfl
  | .nOutOf n rules, hw => by
    have hpos : ¬ n ≤ 0 := by
      have := hw.1
      rw [UInt32.le_iff_toNat_le, UInt32.toNat_zero]
      omega
    rw [evaluateRule, countSatisfied_nil hw.2.2]
    exact congrArg Except.ok (decide_eq_false hpos)
theorem countSatisfied_nil {p : Policy} {satisfied : UInt32} : ∀ {rules : List Rule},
    Rule.AllWellFormed p.identities.length rules → p.countSatisfied [] satisfied rules = .ok satisfied
  | [], _ => by
    rw [countSatisfied]
    rfl
  | r :: rest, hw => by
    rw [countSatisfied, evaluateRule_nil hw.1]
    exact countSatisfied_nil hw.2
end

theorem evaluate_empty {p : Policy} (hp : p.validate = .ok ()) : p.evaluate ⟨[]⟩ = .ok false := by
  rw [evaluate_of_valid hp]
  exact evaluateRule_nil (validate_eq_ok_iff.1 hp).1

/-- Approvals satisfy a policy only if its principals that can be named are enough for it. -/
theorem holds_nameable_of_evaluate {p : Policy} (hp : p.validate = .ok ()) (hg : p.rule.GroupsBelow UInt32.size)
    {a : Approvals} (h : p.evaluate a = .ok true) : p.rule.holds p.nameable = true := by
  rw [evaluate_eq_ok hp hg, Except.ok.injEq] at h
  exact Rule.holds_mono (fun _ => nameable_of_signedAmong) h

theorem mem_identities_of_mem_referenced {p : Policy} {x : Principal} (hx : x ∈ p.referenced) : x ∈ p.identities :=
  List.mem_of_mem_take (Rule.mem_take_of_mem_referenced hx)

end Policy

/-- No approvals satisfy no accepted policy. Where every group has fewer than 2³² rules, the approvals of all
principals count for those that can be named: the policy is satisfied exactly if they are enough for it, and by no
approvals at all if they are not. They are enough if each principal that the policy refers to can be named, which is
so for all of the compact notation. -/
theorem evaluate_own_approvals {input : PolicyInput} {p : Policy} (h : input.normalize = .ok p) {a : Approvals}
    (ha : ∀ x ∈ p.identities, (x.key, true) ∈ a.entries) :
    p.evaluate ⟨[]⟩ = .ok false ∧
      (p.rule.GroupsBelow UInt32.size →
        p.evaluate a = .ok (p.rule.holds p.nameable) ∧
        (p.rule.holds p.nameable = false → ∀ b, p.evaluate b = .ok false) ∧
        ((∀ x ∈ p.referenced, x.mspId ≠ "") → p.evaluate a = .ok true) ∧
        ∀ s, input = .compact s ∨ input = .json (.string s) → p.evaluate a = .ok true) := by
  have hp := PolicyInput.validate_of_normalize h
  refine ⟨Policy.evaluate_empty hp, fun hg => ?_⟩
  have hown := Policy.evaluate_own hp hg ha
  have hnamed : (∀ x ∈ p.referenced, x.mspId ≠ "") → p.evaluate a = .ok true := by
    intro hids
    rw [hown, Policy.holds_nameable hp hids]
  refine ⟨hown, ?_, hnamed, ?_⟩
  · intro hfew b
    cases hb : p.rule.holds (p.signedAmong b.granted) with
    | false => rw [Policy.evaluate_eq_ok hp hg, hb]
    | true =>
      -- an approval counts under a text that names a principal, so more than the nameable ones cannot sign
      have henough := Policy.holds_nameable_of_evaluate hp hg (a := b) (by rw [Policy.evaluate_eq_ok hp hg, hb])
      rw [hfew] at henough
      cases henough
  · intro s hs
    have hparse : Compact.parse s = .ok p := by
      rcases hs with rfl | rfl <;> exact h
    exact hnamed fun x hx => Compact.mspId_ne_empty_of_parse hparse x (Policy.mem_identities_of_mem_referenced hx)

/-- One principal that can be named is enough where one of two is asked for. -/
theorem evaluate_own_approvals_one_of_two :
    let p : Policy := ⟨3, [⟨"", .member⟩, ⟨"A", .admin⟩], .nOutOf 1 [.signedBy 0, .signedBy 1]⟩
    let a : Approvals := ⟨[(".MEMBER", true), ("A.ADMIN", true)]⟩
    (PolicyInput.canonical p).normalize = .ok p ∧ (∀ x ∈ p.identities, (x.key, true) ∈ a.entries) ∧
      p.rule.GroupsBelow UInt32.size ∧ p.evaluate a = .ok true ∧ p.evaluate ⟨[]⟩ = .ok false := by
  intro p a
  have hinput : (PolicyInput.canonical p).normalize = .ok p := by
    rw [PolicyInput.normalize, Policy.validated_eq_ok_iff, Policy.validate_eq_ok_iff]
    simp [p, Rule.WellFormed, Rule.AllWellFormed, Rule.nesting, Rule.nestingList, Policy.maxDepth]
  have hkeys : ∀ x ∈ p.identities, (x.key, true) ∈ a.entries := by decide
  have hsize : p.rule.GroupsBelow UInt32.size := by
    simp [p, Rule.GroupsBelow, Rule.AllGroupsBelow, UInt32.size]
  obtain ⟨hempty, hlarge⟩ := evaluate_own_approvals hinput hkeys
  obtain ⟨hown, -⟩ := hlarge hsize
  have henough : p.rule.holds p.nameable = true := by decide
  exact ⟨hinput, hkeys, hsize, henough ▸ hown, hempty⟩

/-- A JSON value may list a principal without an organisation, whose own approval does not satisfy the policy. -/
theorem evaluate_nameless :
    let principal : Json := .object [("mspIdentifier", .string ""), ("role", .string "MEMBER")]
    let identity : Json := .object [("principal", principal), ("principalClassification", .string "ROLE")]
    let input : PolicyInput := .json (.object [("identities", .array [identity]),
      ("rule", .object [("signedBy", Json.ofNat 0)]), ("version", Json.ofNat 0)])
    let p : Policy := ⟨0, [⟨"", .member⟩], .signedBy 0⟩
    let a : Approvals := ⟨[(".MEMBER", true)]⟩
    input.normalize = .ok p ∧ (∀ x ∈ p.identities, (x.key, true) ∈ a.entries) ∧ p.evaluate a = .ok false := by
  intro principal identity input p a
  have hp : p.validate = .ok () := by
    rw [Policy.validate_eq_ok_iff]
    simp [p, Rule.WellFormed, Rule.nesting]
  -- the value is the policy's own JSON, its members in order
  have hinput : input.normalize = .ok p := by
    have hread : Policy.ofJson p.toJson.sorted = p.validated := Policy.ofJson_sorted p (Nat.zero_le _)
    exact hread.trans (Policy.validated_eq_ok_iff.2 ⟨hp, rfl⟩)
  have hkeys : ∀ x ∈ p.identities, (x.key, true) ∈ a.entries := by decide
  have hfew : p.rule.holds p.nameable = false := by decide
  exact ⟨hinput, hkeys, hfew ▸ Policy.evaluate_own hp trivial hkeys⟩

end Fabric

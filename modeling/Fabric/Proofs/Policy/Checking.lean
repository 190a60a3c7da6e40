import Fabric.Proofs.Policy.Validity

/-!
The check of a policy as the rounds of a loop. A round takes a rule off the work and puts the rules of a group there,
one level deeper; what is in the work are nodes of the tree at their depths. Main statement: the rounds come to an end,
with the answer that the recursion over the tree gives, and a refusal is for a node that breaks the policy.
-/
namespace Fabric

namespace Rule

inductive NodeAt (root : Rule) : Rule → Nat → Prop
  | root : NodeAt root root 0
  | member {n : UInt32} {rules : List Rule} {depth : Nat} (h : NodeAt root (.nOutOf n rules) depth) {r : Rule}
    (hr : r ∈ rules) : NodeAt root r (depth + 1)

/-- A group at a depth, where rules that are no groups count for nothing. -/
theorem depth_add_nesting_le_iff {n : UInt32} {rules : List Rule} {depth limit : Nat} :
    depth + (nOutOf n rules).nesting ≤ limit ↔
      depth + 1 ≤ limit ∧ ∀ r ∈ rules, r.nesting = 0 ∨ depth + 1 + r.nesting ≤ limit := by
  constructor
  · intro h
    have hd : depth + 1 ≤ limit := by
      rw [nesting] at h
      omega
    exact ⟨hd, fun r hr => .inr ((nesting_nOutOf_le_iff hd).1 h r hr)⟩
  · intro h
    obtain ⟨hd, hrules⟩ := h
    rw [nesting_nOutOf_le_iff hd]
    intro r hr
    have hrule := hrules r hr
    omega

theorem deepest_le_iff {found limit : Nat} {work : GroupTree.Work Rule} :
    deepest found work ≤ limit ↔ found ≤ limit ∧ ∀ w ∈ work, w.1.nesting = 0 ∨ w.2 + w.1.nesting ≤ limit := by
  fun_induction deepest found work with
  | case1 found => simp
  | case2 found i depth rest _ ih => simp [ih, nesting]
  | case3 found n rules depth rest _ ih =>
    have hgroup : (nOutOf n rules).nesting ≠ 0 := by simp [nesting]
    simp only [List.map_subtype, List.unattach_attach] at ih
    rw [ih, List.forall_mem_append, List.forall_mem_cons, List.forall_mem_map, Nat.max_le, or_iff_right hgroup,
      depth_add_nesting_le_iff, and_assoc, and_assoc]

/-- The depth that the loop finds is that of the recursion over the tree. -/
theorem depth_eq_nesting (r : Rule) : r.depth = r.nesting := by
  have hle (limit : Nat) : r.depth ≤ limit ↔ r.nesting ≤ limit := by
    rw [depth, deepest_le_iff, List.forall_mem_singleton]
    show 0 ≤ limit ∧ (r.nesting = 0 ∨ 0 + r.nesting ≤ limit) ↔ r.nesting ≤ limit
    omega
  apply Nat.le_antisymm
  · exact (hle r.nesting).2 (Nat.le_refl _)
  · exact (hle r.depth).1 (Nat.le_refl _)

end Rule

namespace Policy

open Rule (NodeAt)

inductive Breaks (identities : Nat) : Rule × Nat → PolicyError → Prop
  | index {i : UInt32} {depth : Nat} (h : identities ≤ i.toNat) :
    Breaks identities (.signedBy i, depth) (.signedByOutOfRange i identities)
  | tooDeep {n : UInt32} {rules : List Rule} {depth : Nat} (h : maxDepth < depth + 1) :
    Breaks identities (.nOutOf n rules, depth) (.tooDeep maxDepth)
  | empty {n : UInt32} {depth : Nat} (hdepth : depth + 1 ≤ maxDepth) :
    Breaks identities (.nOutOf n [], depth) .emptyRuleSet
  | count {n : UInt32} {rules : List Rule} {depth : Nat} (hdepth : depth + 1 ≤ maxDepth) (hne : rules ≠ [])
    (h : n = 0 ∨ rules.length < n.toNat) : Breaks identities (.nOutOf n rules, depth) (.outOfRange n rules.length)

inductive Round (identities : Nat) : GroupTree.Work Rule → GroupTree.Work Rule → Prop
  | signedBy {i : UInt32} {depth : Nat} {rest : GroupTree.Work Rule} (h : i.toNat < identities) :
    Round identities ((.signedBy i, depth) :: rest) rest
  | nOutOf {n : UInt32} {rules : List Rule} {depth : Nat} {rest : GroupTree.Work Rule} (hdepth : depth + 1 ≤ maxDepth)
    (hne : rules ≠ []) (h : ¬ (n = 0 ∨ rules.length < n.toNat)) :
    Round identities ((.nOutOf n rules, depth) :: rest) ((rules.map (·, depth + 1)).reverse ++ rest)

inductive Ends (identities : Nat) : GroupTree.Work Rule → Nat → Except PolicyError Unit → Prop
  | done : Ends identities [] 0 (.ok ())
  | refused {w : Rule × Nat} {rest : GroupTree.Work Rule} {e : PolicyError} (h : Breaks identities w e) :
    Ends identities (w :: rest) 1 (.error e)
  | round {work next : GroupTree.Work Rule} {rounds : Nat} {out : Except PolicyError Unit}
    (h : Round identities work next) (hnext : Ends identities next rounds out) :
    Ends identities work (rounds + 1) out

variable {identities rounds : Nat} {work next rest : GroupTree.Work Rule} {w : Rule × Nat} {e : PolicyError}
  {out : Except PolicyError Unit}

/-- A round takes away more than it puts in. -/
theorem Round.workSize_lt (h : Round identities work next) :
    Rule.groups.workSize next < Rule.groups.workSize work := by
  cases h with
  | signedBy _ => exact Rule.groups.workSize_rest ..
  | nOutOf _ _ _ => exact Rule.groups.workSize_children_reverse rfl ..

theorem Round.checkRules_eq (h : Round identities work next) :
    checkRules identities work = checkRules identities next := by
  cases h with
  | signedBy h => rw [checkRules, if_neg (Nat.not_le.2 h)]
  | nOutOf hdepth hne h =>
    rw [checkRules, if_neg (Nat.not_lt.2 hdepth), if_neg (mt List.isEmpty_iff.1 hne), if_neg h]

theorem Breaks.checkRules_eq (h : Breaks identities w e) : checkRules identities (w :: rest) = .error e := by
  cases h with
  | index h => rw [checkRules, if_pos h]
  | tooDeep h => rw [checkRules, if_pos h]
  | empty hdepth => rw [checkRules, if_neg (Nat.not_lt.2 hdepth), if_pos List.isEmpty_nil]
  | count hdepth hne h =>
    rw [checkRules, if_neg (Nat.not_lt.2 hdepth), if_neg (mt List.isEmpty_iff.1 hne), if_pos h]

/-- Something is wrong with a rule, or the next round goes on with the others. -/
theorem exists_breaks_or_round (identities : Nat) (w : Rule × Nat) (rest : GroupTree.Work Rule) :
    (∃ e, Breaks identities w e) ∨ ∃ next, Round identities (w :: rest) next := by
  obtain ⟨r, depth⟩ := w
  cases r with
  | signedBy i =>
    rcases Nat.lt_or_ge i.toNat identities with h | h
    · exact .inr ⟨_, .signedBy h⟩
    · exact .inl ⟨_, .index h⟩
  | nOutOf n rules =>
    rcases Nat.lt_or_ge maxDepth (depth + 1) with hdeep | hdepth
    · exact .inl ⟨_, .tooDeep hdeep⟩
    · by_cases hne : rules = []
      · subst hne
        exact .inl ⟨_, .empty hdepth⟩
      · by_cases h : n = 0 ∨ rules.length < n.toNat
        · exact .inl ⟨_, .count hdepth hne h⟩
        · exact .inr ⟨_, .nOutOf hdepth hne h⟩

theorem Ends.checkRules_eq (h : Ends identities work rounds out) : checkRules identities work = out := by
  induction h with
  | done => rw [checkRules]
  | refused h => exact h.checkRules_eq
  | round h _ ih => rw [h.checkRules_eq, ih]

/-- There are no more rounds than there are rules in the trees that are left. -/
theorem exists_ends (identities : Nat) (work : GroupTree.Work Rule) :
    ∃ rounds ≤ Rule.groups.workSize work, Ends identities work rounds (checkRules identities work) := by
  -- the induction is on what is left, which a round makes smaller
  induction hsize : Rule.groups.workSize work using Nat.strongRecOn generalizing work with
  | _ size ih =>
    subst hsize
    cases work with
    | nil =>
      rw [checkRules]
      exact ⟨0, Nat.zero_le _, .done⟩
    | cons w rest =>
      have hpos := Rule.groups.workSize_rest w.1 w.2 rest
      obtain ⟨e, h⟩ | ⟨next, h⟩ := exists_breaks_or_round identities w rest
      · rw [h.checkRules_eq]
        exact ⟨1, Nat.one_le_of_lt hpos, .refused h⟩
      · obtain ⟨rounds, hle, hends⟩ := ih _ h.workSize_lt next rfl
        rw [h.checkRules_eq]
        exact ⟨rounds + 1, Nat.lt_of_le_of_lt hle h.workSize_lt, .round h hends⟩

section Nodes

variable {root : Rule}

/-- What a round puts into the work are nodes of the same tree. -/
theorem Round.nodeAt (h : Round identities work next) (hwork : ∀ w ∈ work, NodeAt root w.1 w.2) :
    ∀ w ∈ next, NodeAt root w.1 w.2 := by
  cases h with
  | signedBy _ => exact (List.forall_mem_cons.1 hwork).2
  | nOutOf _ _ _ =>
    rw [List.forall_mem_cons] at hwork
    simp only [List.forall_mem_append, List.mem_reverse, List.forall_mem_map]
    exact ⟨fun _ hr => .member hwork.1 hr, hwork.2⟩

theorem Ends.exists_breaks (h : Ends identities work rounds (.error e))
    (hwork : ∀ w ∈ work, NodeAt root w.1 w.2) : ∃ r depth, NodeAt root r depth ∧ Breaks identities (r, depth) e := by
  generalize hout : Except.error e = out at h
  induction h with
  | done => cases hout
  | refused h =>
    cases hout
    exact ⟨_, _, (List.forall_mem_cons.1 hwork).1, h⟩
  | round h _ ih => exact ih (h.nodeAt hwork) hout

end Nodes

/-- The check comes to an end after at most as many rounds as there are rules, with one answer. A policy passes exactly if
every index is below the number of identities, every group asks for at least one and at most all of its rules, and
groups are not nested too deep; a refusal names what is wrong with a node of the tree. The depth of a rule is its
nesting. -/
theorem validate_decides :
    (∀ (p : Policy) (out : Except PolicyError Unit),
      (∃ rounds ≤ p.rule.size, Ends p.identities.length [(p.rule, 0)] rounds out) ↔ p.validate = out) ∧
    (∀ p : Policy,
      p.validate = .ok () ↔ p.rule.WellFormed p.identities.length ∧ p.rule.nesting ≤ maxDepth) ∧
    (∀ (p : Policy) (e : PolicyError), p.validate = .error e →
      ∃ r depth, NodeAt p.rule r depth ∧ Breaks p.identities.length (r, depth) e) ∧
    ∀ r : Rule, r.depth = r.nesting := by
  refine ⟨?_, fun _ => validate_eq_ok_iff, ?_, Rule.depth_eq_nesting⟩
  · intro p out
    constructor
    · intro h
      obtain ⟨_, -, hends⟩ := h
      exact hends.checkRules_eq
    · intro h
      obtain ⟨rounds, hle, hends⟩ := exists_ends p.identities.length [(p.rule, 0)]
      rw [← h]
      exact ⟨rounds, hle, hends⟩
  · intro p e h
    obtain ⟨rounds, -, hends⟩ := exists_ends p.identities.length [(p.rule, 0)]
    -- the work begins with the root, so what breaks the policy is a node of its tree
    rw [← validate, h] at hends
    apply hends.exists_breaks
    rw [List.forall_mem_singleton]
    exact .root

/-- The last rule of a group is looked at first, so of two groups that are wrong the second is named, in the third round. -/
theorem validate_decides_last :
    let p : Policy := ⟨0, [⟨"A", .member⟩], .nOutOf 2 [.nOutOf 1 [], .nOutOf 3 [.signedBy 0, .signedBy 7], .signedBy 0]⟩
    p.validate = .error (.outOfRange 3 2) ∧
      (∃ r depth, NodeAt p.rule r depth ∧ Breaks p.identities.length (r, depth) (.outOfRange 3 2)) ∧
      p.rule.depth = 2 := by
  intro p
  obtain ⟨hrounds, -, hbreaks, hdepth⟩ := validate_decides
  have hends : Ends 1 [(p.rule, 0)] 3 (.error (.outOfRange 3 2)) := by
    apply Ends.round (.nOutOf (by decide) (by decide) (by decide))
    apply Ends.round (.signedBy (by decide))
    exact .refused (.count (by decide) (by decide) (by decide))
  have hvalidate : p.validate = .error (.outOfRange 3 2) := (hrounds p _).1 ⟨3, by decide, hends⟩
  exact ⟨hvalidate, hbreaks p _ hvalidate, hdepth p.rule⟩

end Policy

end Fabric

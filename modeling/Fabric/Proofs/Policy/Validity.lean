import Fabric.Policy.Rule

namespace Fabric

namespace Rule

/-- Proofs about rules go by the rules of a group. -/
@[elab_as_elim]
theorem induction {motive : Rule → Prop} (signedBy : ∀ i, motive (.signedBy i))
    (nOutOf : ∀ n rules, (∀ r ∈ rules, motive r) → motive (.nOutOf n rules)) : ∀ r, motive r
  | .signedBy i => signedBy i
  | .nOutOf n rules => nOutOf n rules fun r _ => induction signedBy nOutOf r

mutual
def WellFormed (identities : Nat) : Rule → Prop
  | .signedBy i => i.toNat < identities
  | .nOutOf n rules => 1 ≤ n.toNat ∧ n.toNat ≤ rules.length ∧ AllWellFormed identities rules
def AllWellFormed (identities : Nat) : List Rule → Prop
  | [] => True
  | r :: rest => WellFormed identities r ∧ AllWellFormed identities rest
end

theorem allWellFormed_iff {identities : Nat} {rules : List Rule} :
    AllWellFormed identities rules ↔ ∀ r ∈ rules, r.WellFormed identities := by
  induction rules with
  | nil => simp [AllWellFormed]
  | cons r rest ih => simp only [AllWellFormed, ih, List.forall_mem_cons]

theorem wellFormed_nOutOf {identities : Nat} {n : UInt32} {rules : List Rule} :
    (nOutOf n rules).WellFormed identities ↔
      1 ≤ n.toNat ∧ n.toNat ≤ rules.length ∧ ∀ r ∈ rules, r.WellFormed identities := by
  rw [WellFormed, allWellFormed_iff]

mutual
def GroupsBelow (limit : Nat) : Rule → Prop
  | .signedBy _ => True
  | .nOutOf _ rules => rules.length < limit ∧ AllGroupsBelow limit rules
def AllGroupsBelow (limit : Nat) : List Rule → Prop
  | [] => True
  | r :: rest => GroupsBelow limit r ∧ AllGroupsBelow limit rest
end

theorem allGroupsBelow_iff {limit : Nat} {rules : List Rule} :
    AllGroupsBelow limit rules ↔ ∀ r ∈ rules, r.GroupsBelow limit := by
  induction rules with
  | nil => simp [AllGroupsBelow]
  | cons r rest ih => simp only [AllGroupsBelow, ih, List.forall_mem_cons]

theorem nestingList_le_iff {rules : List Rule} {limit : Nat} :
    nestingList rules ≤ limit ↔ ∀ r ∈ rules, r.nesting ≤ limit := by
  induction rules with
  | nil => simp [nestingList]
  | cons r rest ih => simp only [nestingList, Nat.max_le, ih, List.forall_mem_cons]

theorem nesting_nOutOf_le_iff {n : UInt32} {rules : List Rule} {depth limit : Nat} (hd : depth + 1 ≤ limit) :
    depth + (nOutOf n rules).nesting ≤ limit ↔ ∀ r ∈ rules, depth + 1 + r.nesting ≤ limit := by
  have hle : ∀ m, depth + 1 + m ≤ limit ↔ m ≤ limit - (depth + 1) := by
    intro m
    omega
  simp only [hle, ← nestingList_le_iff, nesting]
  omega

end Rule

namespace Policy

def InOrder (identities : Nat) (w : Rule × Nat) : Prop :=
  w.1.WellFormed identities ∧ w.2 + w.1.nesting ≤ maxDepth

theorem inOrder_nOutOf {identities depth : Nat} {n : UInt32} {rules : List Rule} (hd : depth + 1 ≤ maxDepth) :
    InOrder identities (.nOutOf n rules, depth) ↔
      (1 ≤ n.toNat ∧ n.toNat ≤ rules.length) ∧ ∀ r ∈ rules, InOrder identities (r, depth + 1) := by
  simp only [InOrder, Rule.wellFormed_nOutOf, Rule.nesting_nOutOf_le_iff hd]
  constructor
  · intro h
    obtain ⟨⟨h1, hn, hw⟩, hdeep⟩ := h
    exact ⟨⟨h1, hn⟩, fun r hr => ⟨hw r hr, hdeep r hr⟩⟩
  · intro h
    obtain ⟨⟨h1, hn⟩, h⟩ := h
    exact ⟨⟨h1, hn, fun r hr => (h r hr).1⟩, fun r hr => (h r hr).2⟩

/-- Work at depths within the limit passes exactly if each rule of it is in order. -/
theorem checkRules_eq_ok_iff {identities : Nat} {work : GroupTree.Work Rule}
    (hwork : ∀ w ∈ work, w.2 ≤ maxDepth) :
    checkRules identities work = .ok () ↔ ∀ w ∈ work, InOrder identities w := by
  -- each case is a branch of the loop; a group that is nested too deep is refused before its rules are put
  -- into the work, which keeps the depths there within the limit
  fun_induction checkRules identities work with
  | case1 => simp
  | case2 i depth rest _ hle =>
    have hno : ¬ InOrder identities (.signedBy i, depth) := fun h => Nat.not_lt.2 hle h.1
    simp [hno]
  | case3 i depth rest _ hlt ih =>
    rw [List.forall_mem_cons] at hwork
    have h0 : InOrder identities (.signedBy i, depth) := ⟨Nat.not_le.1 hlt, hwork.1⟩
    simp [ih hwork.2, h0]
  | case4 n rules depth rest _ hdeep =>
    have hno : ¬ InOrder identities (.nOutOf n rules, depth) := by
      intro h
      obtain ⟨-, h⟩ := h
      rw [Rule.nesting] at h
      omega
    simp [hno]
  | case5 n rules depth rest _ hle hemp =>
    rw [List.isEmpty_iff] at hemp
    have hno : ¬ InOrder identities (.nOutOf n rules, depth) := by
      rw [inOrder_nOutOf (by omega), hemp, List.length_nil]
      omega
    simp [hno]
  | case6 n rules depth rest _ hle hne hrange =>
    have hno : ¬ InOrder identities (.nOutOf n rules, depth) := by
      rw [inOrder_nOutOf (by omega)]
      intro h
      obtain ⟨⟨h1, hn⟩, -⟩ := h
      rcases hrange with rfl | hlt
      · exact absurd h1 (by decide)
      · omega
    simp [hno]
  | case7 n rules depth rest _ hle hne hrange ih =>
    rw [List.forall_mem_cons] at hwork
    obtain ⟨h0, hn⟩ := not_or.1 hrange
    have h1 : 1 ≤ n.toNat := Nat.one_le_iff_ne_zero.2 fun h => h0 (UInt32.toNat_inj.1 h)
    have hrules : ∀ w ∈ (rules.map (·, depth + 1)).reverse ++ rest, w.2 ≤ maxDepth := by
      simp only [List.forall_mem_append, List.mem_reverse, List.forall_mem_map]
      exact ⟨fun _ _ => by omega, hwork.2⟩
    have hattach : (rules.attach.map fun ⟨r, _⟩ => (r, depth + 1)) = rules.map (·, depth + 1) := by simp
    rw [hattach] at ih
    rw [ih hrules, List.forall_mem_append, List.forall_mem_cons, inOrder_nOutOf (by omega)]
    simp only [List.mem_reverse, List.forall_mem_map]
    simp [h1, Nat.not_lt.1 hn]

/-- A policy is valid exactly if its tree is well-formed and its groups are not nested too deep. -/
theorem validate_eq_ok_iff {p : Policy} :
    p.validate = .ok () ↔ p.rule.WellFormed p.identities.length ∧ p.rule.nesting ≤ maxDepth := by
  rw [validate, checkRules_eq_ok_iff (by simp)]
  simp [InOrder]

theorem validated_eq_ok_iff {p q : Policy} : p.validated = .ok q ↔ p.validate = .ok () ∧ q = p := by
  rw [validated]
  cases p.validate <;> simp [bind, Except.bind, pure, Except.pure, eq_comm]

end Policy

end Fabric

import Fabric.Proofs.Policy.Validity
import Fabric.Proofs.Traverse

namespace Fabric

section Places

variable {identities : List Principal} {x : Principal}

theorem toNat_idxOf_lt (hx : x ∈ identities) :
    (UInt32.ofNat (identities.idxOf x)).toNat < identities.length := by
  calc
    (UInt32.ofNat (identities.idxOf x)).toNat ≤ identities.idxOf x := Nat.mod_le ..
    _ < identities.length := List.idxOf_lt_length_of_mem hx

/-- In a list that 32 bits can count, the index of a principal refers to it. -/
theorem getElem?_idxOf (hlen : identities.length ≤ UInt32.size) (hx : x ∈ identities) :
    identities[(UInt32.ofNat (identities.idxOf x)).toNat]? = some x := by
  have hlt := List.idxOf_lt_length_of_mem hx
  have hindex : (UInt32.ofNat (identities.idxOf x)).toNat = identities.idxOf x :=
    UInt32.toNat_ofNat_of_lt' (Nat.lt_of_lt_of_le hlt hlen)
  rw [hindex, List.getElem?_eq_getElem hlt, List.getElem_idxOf hlt]

end Places

namespace Rule

mutual
def referenced (identities : List Principal) : Rule → List Principal
  | .signedBy i => identities[i.toNat]?.toList
  | .nOutOf _ rules => referencedIn identities rules
def referencedIn (identities : List Principal) : List Rule → List Principal
  | [] => []
  | r :: rest => referenced identities r ++ referencedIn identities rest
end

mutual
def renumbered (identities places : List Principal) : Rule → Rule
  | .signedBy i =>
    match identities[i.toNat]? with
    | some x => .signedBy (UInt32.ofNat (places.idxOf x))
    | none => .signedBy i
  | .nOutOf n rules => .nOutOf n (allRenumbered identities places rules)
def allRenumbered (identities places : List Principal) : List Rule → List Rule
  | [] => []
  | r :: rest => renumbered identities places r :: allRenumbered identities places rest
end

variable {identities places : List Principal}

theorem length_allRenumbered (rules : List Rule) :
    (allRenumbered identities places rules).length = rules.length := by
  induction rules with
  | nil => rfl
  | cons r rest ih => rw [allRenumbered, List.length_cons, List.length_cons, ih]

mutual
theorem nesting_renumbered : ∀ r : Rule, (r.renumbered identities places).nesting = r.nesting
  | .signedBy i => by
    rw [renumbered]
    split <;> rfl
  | .nOutOf n rules => by rw [renumbered, nesting, nesting, nestingList_allRenumbered rules]
theorem nestingList_allRenumbered :
    ∀ rules, nestingList (allRenumbered identities places rules) = nestingList rules
  | [] => rfl
  | r :: rest => by
    rw [allRenumbered, nestingList, nestingList, nesting_renumbered r, nestingList_allRenumbered rest]
end

mutual
/-- A well-formed rule stays so if every principal it refers to has a place. -/
theorem wellFormed_renumbered : ∀ {r : Rule}, r.WellFormed identities.length →
    (∀ x ∈ r.referenced identities, x ∈ places) → (r.renumbered identities places).WellFormed places.length
  | .signedBy i, hw, hx => by
    have hi := List.getElem?_eq_getElem hw
    rw [referenced, hi] at hx
    rw [renumbered, hi]
    exact toNat_idxOf_lt (hx _ (List.mem_singleton_self _))
  | .nOutOf n rules, hw, hx => by
    rw [renumbered, WellFormed, length_allRenumbered]
    exact ⟨hw.1, hw.2.1, allWellFormed_renumbered hw.2.2 hx⟩
theorem allWellFormed_renumbered : ∀ {rules : List Rule}, AllWellFormed identities.length rules →
    (∀ x ∈ referencedIn identities rules, x ∈ places) →
      AllWellFormed places.length (allRenumbered identities places rules)
  | [], _, _ => trivial
  | r :: rest, hw, hx => by
    simp only [referencedIn, List.forall_mem_append] at hx
    exact ⟨wellFormed_renumbered hw.1 hx.1, allWellFormed_renumbered hw.2 hx.2⟩
end

theorem mem_referencedIn {x : Principal} {rules : List Rule} :
    x ∈ referencedIn identities rules ↔ ∃ r ∈ rules, x ∈ r.referenced identities := by
  induction rules with
  | nil => simp [referencedIn]
  | cons r rest ih => simp [referencedIn, ih]

/-- A rule refers to principals that its indices can count. -/
theorem mem_take_of_mem_referenced {x : Principal} {r : Rule} (hx : x ∈ r.referenced identities) :
    x ∈ identities.take UInt32.size := by
  induction r using Rule.induction with
  | signedBy i =>
    have hi : identities[i.toNat]? = some x := by simpa [referenced] using hx
    rw [← List.getElem?_take_of_lt i.toNat_lt_size] at hi
    exact List.mem_of_getElem? hi
  | nOutOf n rules ih =>
    obtain ⟨r, hr, hx⟩ := mem_referencedIn.1 hx
    exact ih r hr hx

end Rule

namespace Policy

def referenced (p : Policy) : List Principal := p.rule.referenced p.identities

/-- The policy that lists the principals it refers to, and no others, in order of first appearance. -/
def reindexed (p : Policy) : Policy :=
  ⟨0, p.referenced.eraseDups, p.rule.renumbered p.identities p.referenced.eraseDups⟩

theorem validate_reindexed {p : Policy} (hp : p.validate = .ok ()) : p.reindexed.validate = .ok () := by
  rw [validate_eq_ok_iff] at hp ⊢
  refine ⟨Rule.wellFormed_renumbered hp.1 fun x hx => List.mem_eraseDups.2 hx, ?_⟩
  rw [reindexed, Rule.nesting_renumbered]
  exact hp.2

theorem length_eraseDups_referenced (p : Policy) : p.referenced.eraseDups.length ≤ UInt32.size := by
  have hsub : p.referenced.eraseDups ⊆ p.identities.take UInt32.size := by
    intro x hx
    exact Rule.mem_take_of_mem_referenced (List.mem_eraseDups.1 hx)
  calc
    p.referenced.eraseDups.length ≤ (p.identities.take UInt32.size).length :=
      (nodup_eraseDups _).length_le_of_subset hsub
    _ ≤ UInt32.size := List.length_take_le ..

end Policy

end Fabric

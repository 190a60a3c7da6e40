import Fabric.Proofs.Policy.Validity

namespace Fabric

namespace GroupTree

/-- Values that stand for others, group for group, are measured as those are. -/
theorem withinLimit_map {α β : Type} {s : GroupTree α} {t : GroupTree β} {f : α → β}
    (hf : ∀ a, t.children (f a) = (s.children a).map (List.map f)) (limit : Nat) (work : Work α) :
    t.withinLimit limit (work.map fun w => (f w.1, w.2)) = s.withinLimit limit work := by
  fun_induction s.withinLimit limit work with
  | case1 => rw [List.map_nil, withinLimit]
  | case2 a depth rest h hlt ih =>
    rw [List.map_cons, withinLimit]
    split
    · exact ih
    · next bs hbs => simp [hf, h] at hbs
  | case3 a depth rest bs h hlt hdeep =>
    rw [List.map_cons, withinLimit]
    split
    · next hnone => simp [hf, h] at hnone
    · rw [if_pos hdeep]
  | case4 a depth rest bs h hlt hdeep ih =>
    rw [List.map_cons, withinLimit]
    split
    · next hnone => simp [hf, h] at hnone
    · next cs hcs =>
      have hmap : cs = bs.map f := by simpa [hf, h] using hcs.symm
      have hattach : (bs.attach.map fun ⟨b, _⟩ => (b, depth + 1)) = bs.map (·, depth + 1) := by simp
      rw [hattach] at ih
      rw [if_neg hdeep, ← ih, hmap, List.map_append, List.map_map, List.map_map]
      rfl

end GroupTree

namespace Rule

/-- Rules at depths within the limit pass exactly if none is nested beyond it. -/
theorem withinLimit_iff {limit : Nat} {work : GroupTree.Work Rule} (hwork : ∀ w ∈ work, w.2 ≤ limit) :
    groups.withinLimit limit work = true ↔ ∀ w ∈ work, w.2 + w.1.nesting ≤ limit := by
  fun_induction groups.withinLimit limit work with
  | case1 => simp
  | case2 r depth rest h hlt ih =>
    rw [List.forall_mem_cons] at hwork
    cases r with
    | signedBy i => simp [ih hwork.2, nesting, hwork.1]
    | nOutOf n rules => cases h
  | case3 r depth rest rules h hlt hdeep =>
    cases r with
    | signedBy i => cases h
    | nOutOf n rules =>
      simp only [List.forall_mem_cons, nesting]
      constructor
      · intro h
        cases h
      · intro h
        omega
  | case4 r depth rest rules h hlt hdeep ih =>
    rw [List.forall_mem_cons] at hwork
    cases r with
    | signedBy i => cases h
    | nOutOf n rules =>
      cases h
      -- the rules of the group go on the work one level deeper, which the check has found to be within the limit
      have hrules : ∀ w ∈ rules.map (·, depth + 1) ++ rest, w.2 ≤ limit := by
        simp only [List.forall_mem_append, List.forall_mem_map]
        exact ⟨fun _ _ => by omega, hwork.2⟩
      simp only [List.map_subtype, List.unattach_attach] at ih
      rw [ih hrules, List.forall_mem_append, List.forall_mem_cons, List.forall_mem_map,
        nesting_nOutOf_le_iff (by omega)]

/-- Values whose groups are those of the rules that they stand for pass exactly if the rules do. -/
theorem withinLimit_image_iff {β : Type} {t : GroupTree β} {f : Rule → β}
    (hf : ∀ r, t.children (f r) = (groups.children r).map (List.map f)) (limit : Nat) (r : Rule) :
    t.withinLimit limit [(f r, 0)] = true ↔ r.nesting ≤ limit := by
  have hmap := GroupTree.withinLimit_map hf limit [(r, 0)]
  rw [List.map_singleton] at hmap
  rw [hmap, withinLimit_iff (by simp)]
  simp

end Rule

end Fabric

import Mathlib.Data.List.Forall2

namespace Fabric

variable {ε α β : Type} {f g : α → Except ε β}

theorem mapM_cons_eq (f : α → Except ε β) (a : α) (l : List α) :
    (a :: l).mapM f = (f a).bind fun b => (l.mapM f).map (b :: ·) := by
  rw [List.mapM_cons]
  cases f a with
  | error e => rfl
  | ok b =>
    change (l.mapM f).bind (fun bs => Except.ok (b :: bs)) = (l.mapM f).map (b :: ·)
    cases l.mapM f <;> rfl

/-- A function on lists that takes them up item by item is the reading of their items. -/
theorem eq_mapM_of_cons {h : List α → Except ε (List β)} (hnil : h [] = .ok [])
    (hcons : ∀ a l, h (a :: l) = (f a).bind fun b => (h l).map (b :: ·)) (l : List α) : h l = l.mapM f := by
  induction l with
  | nil =>
    rw [hnil]
    rfl
  | cons a l ih => rw [hcons, ih, mapM_cons_eq]

theorem mapM_congr_left {l : List α} (h : ∀ a ∈ l, f a = g a) : l.mapM f = l.mapM g := by
  induction l with
  | nil => rfl
  | cons a l ih =>
    rw [List.forall_mem_cons] at h
    rw [mapM_cons_eq, mapM_cons_eq, h.1, ih h.2]

/-- All items are read exactly if each of them is. -/
theorem mapM_eq_ok_iff {l : List α} {bs : List β} :
    l.mapM f = .ok bs ↔ List.Forall₂ (fun a b => f a = .ok b) l bs := by
  induction l generalizing bs with
  | nil =>
    rw [List.forall₂_nil_left_iff]
    exact ⟨fun h => (Except.ok.inj h).symm, fun h => congrArg Except.ok h.symm⟩
  | cons a l ih =>
    rw [mapM_cons_eq, List.forall₂_cons_left_iff]
    cases ha : f a with
    | error e => simp [Except.bind]
    | ok b =>
      cases hl : l.mapM f with
      | error e =>
        -- what is left cannot be read, so it has no items
        have hnone : ∀ bs, ¬ List.Forall₂ (fun a b => f a = .ok b) l bs := by
          intro bs hbs
          rw [← ih, hl] at hbs
          cases hbs
        simp [Except.bind, Except.map, hnone]
      | ok rest =>
        simp only [Except.bind, Except.map, Except.ok.injEq, ← ih, hl]
        constructor
        · intro h
          exact ⟨b, rest, rfl, rfl, h.symm⟩
        · intro h
          obtain ⟨b', rest', rfl, rfl, h⟩ := h
          exact h.symm

/-- The error is that of the first item that cannot be read. -/
theorem mapM_eq_error_iff {l : List α} {e : ε} :
    l.mapM f = .error e ↔
      ∃ before a after, l = before ++ a :: after ∧ (∀ x ∈ before, ∃ b, f x = .ok b) ∧ f a = .error e := by
  induction l with
  | nil =>
    constructor
    · intro h
      cases h
    · intro h
      obtain ⟨before, a, after, hnil, -⟩ := h
      cases before <;> cases hnil
  | cons x l ih =>
    rw [mapM_cons_eq]
    cases hx : f x with
    | error e' =>
      change Except.error e' = Except.error e ↔ _
      constructor
      · intro h
        exact ⟨[], x, l, rfl, List.forall_mem_nil _, hx.trans (congrArg _ (Except.error.inj h))⟩
      · intro h
        obtain ⟨before, a, after, hl, hbefore, ha⟩ := h
        cases before with
        | nil =>
          obtain ⟨rfl, -⟩ := List.cons.inj hl
          exact congrArg _ (Except.error.inj (hx.symm.trans ha))
        | cons y before =>
          -- nothing that can be read comes before this item
          obtain ⟨rfl, -⟩ := List.cons.inj hl
          obtain ⟨b, hb⟩ := hbefore x (List.mem_cons_self ..)
          rw [hx] at hb
          cases hb
    | ok b =>
      have hrest : ((Except.ok b : Except ε β).bind fun b => (l.mapM f).map (b :: ·)) = .error e ↔
          l.mapM f = .error e := by
        cases hl : l.mapM f <;> simp [Except.bind, Except.map]
      rw [hrest, ih]
      constructor
      · intro h
        obtain ⟨before, a, after, rfl, hbefore, ha⟩ := h
        exact ⟨x :: before, a, after, rfl, List.forall_mem_cons.2 ⟨⟨b, hx⟩, hbefore⟩, ha⟩
      · intro h
        obtain ⟨before, a, after, hl, hbefore, ha⟩ := h
        cases before with
        | nil =>
          obtain ⟨rfl, -⟩ := List.cons.inj hl
          rw [hx] at ha
          cases ha
        | cons y before =>
          obtain ⟨rfl, rfl⟩ := List.cons.inj hl
          exact ⟨before, a, after, rfl, (List.forall_mem_cons.1 hbefore).2, ha⟩

end Fabric

namespace Fabric

variable {α β : Type}

def total (f : α → Nat) : List α → Nat
  | [] => 0
  | a :: rest => f a + total f rest

theorem total_append (f : α → Nat) (xs ys : List α) : total f (xs ++ ys) = total f xs + total f ys := by
  induction xs with
  | nil => simp [total]
  | cons x xs ih => simp only [List.cons_append, total, ih]; omega

theorem total_map (f : β → Nat) (g : α → β) (xs : List α) :
    total f (xs.map g) = total (fun a => f (g a)) xs := by
  induction xs with
  | nil => rfl
  | cons x xs ih => simp only [List.map_cons, total, ih]

/-- The order of the items does not count. -/
theorem total_perm (f : α → Nat) {xs ys : List α} (h : xs.Perm ys) : total f xs = total f ys := by
  induction h with
  | nil => rfl
  | cons x _ ih => simp only [total, ih]
  | swap x y xs => simp only [total]; omega
  | trans _ _ ih ih' => exact ih.trans ih'

theorem total_reverse (f : α → Nat) (xs : List α) : total f xs.reverse = total f xs :=
  total_perm f (List.reverse_perm xs)

/-- An item measures at most as much as its list. -/
theorem le_total_of_mem (f : α → Nat) {a : α} {xs : List α} (h : a ∈ xs) : f a ≤ total f xs := by
  induction xs with
  | nil => cases h
  | cons x xs ih =>
    rw [total]
    rcases List.mem_cons.1 h with rfl | h
    · exact Nat.le_add_right ..
    · exact Nat.le_trans (ih h) (Nat.le_add_left ..)

end Fabric

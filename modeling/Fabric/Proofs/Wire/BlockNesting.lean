import Fabric.Wire.Nesting

namespace Fabric.Wire

def innerBlocks (b : Bytes) : List Bytes := (blocks b).getD []

theorem innerBlocks_length {b body : Bytes} (h : body ∈ innerBlocks b) : body.length < b.length := by
  cases hb : blocks b with
  | none => simp [innerBlocks, hb] at h
  | some bodies =>
    have hsize := blocks_size hb
    have hmem : body ∈ bodies := by simpa [innerBlocks, hb] using h
    have hle : body.length + 1 ≤ total (fun x => x.length + 1) bodies :=
      le_total_of_mem (fun x => x.length + 1) hmem
    omega

def blockNesting (b : Bytes) : Nat :=
  ((innerBlocks b).attach.map fun ⟨body, h⟩ =>
    have := innerBlocks_length h
    blockNesting body + 1).foldr max 0
termination_by b.length

theorem foldr_max_le {xs : List Nat} {n : Nat} : xs.foldr max 0 ≤ n ↔ ∀ x ∈ xs, x ≤ n := by
  induction xs with
  | nil => simp
  | cons x xs ih => rw [List.foldr_cons, Nat.max_le, ih, List.forall_mem_cons]

theorem blockNesting_le_iff {b : Bytes} {n : Nat} :
    blockNesting b ≤ n ↔ ∀ body ∈ innerBlocks b, blockNesting body + 1 ≤ n := by
  rw [blockNesting, foldr_max_le]
  simp

theorem blockNesting_lt {b body : Bytes} (h : body ∈ innerBlocks b) :
    blockNesting body + 1 ≤ blockNesting b := blockNesting_le_iff.1 (Nat.le_refl _) body h

theorem blockNesting_of_innerBlocks {b : Bytes} (h : innerBlocks b = []) : blockNesting b = 0 := by
  have hle : blockNesting b ≤ 0 := by
    rw [blockNesting_le_iff, h]
    intro body hbody
    cases hbody
  exact Nat.le_zero.1 hle

def WithinAt (limit : Nat) (w : Bytes × Nat) : Prop := blockNesting w.1 = 0 ∨ w.2 + blockNesting w.1 ≤ limit

/-- A block that holds others is within the limit if these are, one level deeper. -/
theorem withinAt_iff {limit depth : Nat} {b : Bytes} (hne : innerBlocks b ≠ []) :
    WithinAt limit (b, depth) ↔
      depth < limit ∧ ∀ body ∈ innerBlocks b, WithinAt limit (body, depth + 1) := by
  obtain ⟨x, hx⟩ := List.exists_mem_of_ne_nil _ hne
  -- a block with another in it is nested at least one level, which decides between the two cases
  have hpos : blockNesting x + 1 ≤ blockNesting b := blockNesting_lt hx
  simp only [WithinAt]
  constructor
  · intro h
    rcases h with h | h
    · omega
    · have hd : depth < limit := by omega
      refine ⟨hd, fun body hb => .inr ?_⟩
      have hlt : blockNesting body + 1 ≤ blockNesting b := blockNesting_lt hb
      omega
  · intro h
    obtain ⟨hd, h⟩ := h
    right
    have hle : blockNesting b ≤ limit - depth := by
      rw [blockNesting_le_iff]
      intro body hb
      rcases h body hb with h | h <;> omega
    omega

/-- The list of work is done within the limit exactly if each block of it is. -/
theorem withinLimit_iff {limit : Nat} {work : List (Bytes × Nat)} :
    withinLimit limit work = true ↔ ∀ w ∈ work, WithinAt limit w := by
  -- each case is a branch of the loop: the first of the work is dropped, refused, or replaced by its blocks
  fun_induction withinLimit limit work with
  | case1 => simp
  | case2 b depth rest hb hlt ih =>
    have h0 : WithinAt limit (b, depth) := .inl (blockNesting_of_innerBlocks (by simp [innerBlocks, hb]))
    simp [ih, h0]
  | case3 b depth rest bodies hb hemp hlt ih =>
    have h0 : WithinAt limit (b, depth) :=
      .inl (blockNesting_of_innerBlocks (by simpa [innerBlocks, hb] using hemp))
    simp [ih, h0]
  | case4 b depth rest bodies hb hne hle =>
    have hi : innerBlocks b = bodies := by simp [innerBlocks, hb]
    have hno : ¬ WithinAt limit (b, depth) := by
      rw [withinAt_iff (by simpa [hi] using hne)]
      omega
    simp [hno]
  | case5 b depth rest bodies hb hne hle hlt ih =>
    have hi : innerBlocks b = bodies := by simp [innerBlocks, hb]
    have hat : WithinAt limit (b, depth) ↔
        depth < limit ∧ ∀ body ∈ innerBlocks b, WithinAt limit (body, depth + 1) :=
      withinAt_iff (by simpa [hi] using hne)
    rw [hi] at hat
    rw [ih, List.forall_mem_append, List.forall_mem_cons, hat]
    simp only [List.forall_mem_map]
    have hd : depth < limit := by omega
    simp [hd]

/-- Bytes pass the check exactly if their blocks are nested within the limit. -/
theorem nestedWithin_iff {limit : Nat} {b : Bytes} : nestedWithin limit b = true ↔ blockNesting b ≤ limit := by
  rw [nestedWithin, withinLimit_iff]
  simp only [List.mem_cons, List.not_mem_nil, or_false, forall_eq, WithinAt]
  omega

end Fabric.Wire

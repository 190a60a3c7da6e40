import Fabric.Proofs.Wire.FieldSequence
import Fabric.Proofs.Wire.NestingLimit

/-!
The check of nesting as the rounds of a loop. A round takes some bytes off the work and puts the bodies of their blocks
there, one level deeper, in any order. Main statement: the rounds come to an end with a comparison of the limit and the
nesting of blocks, which is a recursion on fields.
-/
namespace Fabric.Wire

theorem innerBlocks_of_fieldSequence {b : Bytes} {bodies : List Bytes} (h : FieldSequence b bodies) :
    innerBlocks b = bodies := by
  rw [innerBlocks, h.blocks_eq]
  rfl

/-- Bytes that are no fields hold no blocks. -/
theorem innerBlocks_eq_nil_or (b : Bytes) : innerBlocks b = [] ∨ FieldSequence b (innerBlocks b) := by
  cases hb : blocks b with
  | none => exact .inl (by rw [innerBlocks, hb]; rfl)
  | some bodies =>
    have h := blocks_eq_some_iff.1 hb
    rw [innerBlocks_of_fieldSequence h]
    exact .inr h

theorem blockNesting_of_not_fieldSequence {b : Bytes} (h : ∀ bodies, ¬ FieldSequence b bodies) :
    blockNesting b = 0 :=
  blockNesting_of_innerBlocks ((innerBlocks_eq_nil_or b).resolve_right (h _))

/-- One level more than the deepest of the bodies. -/
theorem blockNesting_of_fieldSequence {b : Bytes} {bodies : List Bytes} (h : FieldSequence b bodies)
    (hne : bodies ≠ []) : blockNesting b = (bodies.map blockNesting).foldr max 0 + 1 := by
  have hle (n : Nat) : blockNesting b ≤ n ↔ (bodies.map blockNesting).foldr max 0 + 1 ≤ n := by
    rw [blockNesting_le_iff, innerBlocks_of_fieldSequence h]
    obtain ⟨body, hbody⟩ := List.exists_mem_of_ne_nil _ hne
    cases n with
    | zero =>
      constructor
      · intro hall
        exact absurd (hall body hbody) (Nat.not_succ_le_zero _)
      · intro hfold
        exact absurd hfold (Nat.not_succ_le_zero _)
    | succ n => simp only [Nat.add_le_add_iff_right, foldr_max_le, List.forall_mem_map]
  apply Nat.le_antisymm
  · exact (hle _).2 (Nat.le_refl _)
  · exact (hle _).1 (Nat.le_refl _)

abbrev Work := List (Bytes × Nat)

variable {order : Work → Work} {limit depth rounds : Nat} {b : Bytes} {bodies : List Bytes} {work next rest : Work}
  {out : Except DecodeError Unit}

inductive Round (order : Work → Work) (limit : Nat) : Work → Work → Prop
  | flat {b : Bytes} {depth : Nat} {rest : Work} (h : innerBlocks b = []) : Round order limit ((b, depth) :: rest) rest
  | nested {b : Bytes} {depth : Nat} {bodies : List Bytes} {rest : Work} (h : FieldSequence b bodies)
      (hne : bodies ≠ []) (hdepth : depth < limit) :
      Round order limit ((b, depth) :: rest) (order (bodies.map (·, depth + 1)) ++ rest)

inductive Ends (order : Work → Work) (limit : Nat) : Work → Nat → Except DecodeError Unit → Prop
  | done : Ends order limit [] 0 (.ok ())
  | tooDeep {b : Bytes} {depth : Nat} {bodies : List Bytes} {rest : Work} (h : FieldSequence b bodies)
      (hne : bodies ≠ []) (hdepth : limit ≤ depth) : Ends order limit ((b, depth) :: rest) 1 (.error (.tooDeep limit))
  | round {work next : Work} {rounds : Nat} {out : Except DecodeError Unit} (h : Round order limit work next)
      (hnext : Ends order limit next rounds out) : Ends order limit work (rounds + 1) out

/-- Something is to be done with the first bytes of the work, whatever they are. -/
theorem tooDeep_or_exists_round (order : Work → Work) (limit : Nat) (b : Bytes) (depth : Nat) (rest : Work) :
    Ends order limit ((b, depth) :: rest) 1 (.error (.tooDeep limit)) ∨
      ∃ next, Round order limit ((b, depth) :: rest) next := by
  by_cases hflat : innerBlocks b = []
  · exact .inr ⟨rest, .flat hflat⟩
  · have hfields := (innerBlocks_eq_nil_or b).resolve_left hflat
    rcases Nat.lt_or_ge depth limit with hdepth | hdepth
    · exact .inr ⟨_, .nested hfields hflat hdepth⟩
    · exact .inl (.tooDeep hfields hflat hdepth)

theorem withinAt_nested_iff (h : FieldSequence b bodies) (hne : bodies ≠ []) :
    WithinAt limit (b, depth) ↔ depth < limit ∧ ∀ body ∈ bodies, WithinAt limit (body, depth + 1) := by
  have hinner := innerBlocks_of_fieldSequence h
  have hsome : innerBlocks b ≠ [] := by rwa [hinner]
  rw [withinAt_iff hsome, hinner]

section Order

variable (horder : ∀ work, (order work).Perm work)
include horder

theorem mem_order_append {w : Bytes × Nat} : w ∈ order work ++ rest ↔ w ∈ work ++ rest := by
  rw [List.mem_append, List.mem_append, (horder work).mem_iff]

/-- A round takes away more than it puts in. -/
theorem Round.workSize_lt (h : Round order limit work next) : workSize next < workSize work := by
  cases h with
  | flat _ => exact workSize_rest ..
  | @nested b depth bodies rest h _ _ =>
    have hperm : (order (bodies.map (·, depth + 1)) ++ rest).Perm (bodies.map (·, depth + 1) ++ rest) :=
      (horder _).append_right rest
    have hsize : workSize (order (bodies.map (·, depth + 1)) ++ rest) = workSize (bodies.map (·, depth + 1) ++ rest) :=
      total_perm _ hperm
    rw [hsize]
    exact workSize_blocks h.blocks_eq depth rest

/-- What is within the limit does not change with a round. -/
theorem Round.withinAt_iff (h : Round order limit work next) :
    (∀ w ∈ work, WithinAt limit w) ↔ ∀ w ∈ next, WithinAt limit w := by
  cases h with
  | flat h =>
    rw [List.forall_mem_cons]
    exact and_iff_right (.inl (blockNesting_of_innerBlocks h))
  | @nested b depth bodies rest h hne hdepth =>
    simp only [mem_order_append horder, List.forall_mem_append, List.forall_mem_cons, List.forall_mem_map,
      withinAt_nested_iff h hne, hdepth, true_and]

theorem Round.withinLimit_eq (h : Round order limit work next) : withinLimit limit work = withinLimit limit next := by
  rw [Bool.eq_iff_iff, withinLimit_iff, withinLimit_iff]
  exact h.withinAt_iff horder

theorem Ends.eq_of_withinLimit (h : Ends order limit work rounds out) :
    out = if withinLimit limit work then .ok () else .error (.tooDeep limit) := by
  induction h with
  | done =>
    rw [withinLimit]
    rfl
  | @tooDeep b depth bodies rest h hne hdepth =>
    have hno : ¬ WithinAt limit (b, depth) := by
      rw [withinAt_nested_iff h hne]
      omega
    have hrefused : ¬ withinLimit limit ((b, depth) :: rest) = true := by
      rw [withinLimit_iff, List.forall_mem_cons]
      exact fun h => hno h.1
    rw [if_neg hrefused]
  | round h _ ih => rw [ih, h.withinLimit_eq horder]

/-- There are no more rounds than bytes in the work, with one for each place in it. -/
theorem exists_ends (work : Work) : ∃ rounds ≤ workSize work, ∃ out, Ends order limit work rounds out := by
  -- the induction is on what is left, which a round makes smaller
  induction hsize : workSize work using Nat.strongRecOn generalizing work with
  | _ size ih =>
    subst hsize
    cases work with
    | nil => exact ⟨0, Nat.zero_le _, _, .done⟩
    | cons w rest =>
      obtain ⟨b, depth⟩ := w
      have hpos := workSize_rest b depth rest
      rcases tooDeep_or_exists_round order limit b depth rest with h | ⟨next, h⟩
      · exact ⟨1, Nat.one_le_of_lt hpos, _, h⟩
      · have hlt := h.workSize_lt horder
        obtain ⟨rounds, hle, out, hends⟩ := ih _ hlt next rfl
        exact ⟨rounds + 1, Nat.lt_of_le_of_lt hle hlt, out, .round h hends⟩

theorem exists_ends_iff : (∃ rounds ≤ b.length + 1, Ends order limit [(b, 0)] rounds out) ↔
    checkNesting limit b = out := by
  constructor
  · intro h
    obtain ⟨_, -, hends⟩ := h
    exact (hends.eq_of_withinLimit horder).symm
  · rintro rfl
    have hsize : workSize [(b, 0)] = b.length + 1 := rfl
    obtain ⟨rounds, hle, out, hends⟩ : ∃ rounds ≤ workSize [(b, 0)], ∃ out, Ends order limit [(b, 0)] rounds out :=
      exists_ends horder [(b, 0)]
    have hout : out = checkNesting limit b := hends.eq_of_withinLimit horder
    exact ⟨rounds, hsize ▸ hle, hout ▸ hends⟩

end Order

theorem checkNesting_mono {limit' : Nat} (hle : limit ≤ limit') (h : checkNesting limit b = .ok ()) :
    checkNesting limit' b = .ok () :=
  checkNesting_eq_ok_iff.2 (Nat.le_trans (checkNesting_eq_ok_iff.1 h) hle)

theorem checkNesting_body {body : Bytes} (hfields : FieldSequence b bodies) (h : checkNesting (limit + 1) b = .ok ())
    (hbody : body ∈ bodies) : checkNesting limit body = .ok () := by
  have hbelow : blockNesting body + 1 ≤ blockNesting b :=
    blockNesting_lt (by rw [innerBlocks_of_fieldSequence hfields]; exact hbody)
  have hwithin := checkNesting_eq_ok_iff.1 h
  exact checkNesting_eq_ok_iff.2 (by omega)

/-- The check comes to an end, in whatever order it takes what a block holds, after at most as many rounds as there are
bytes and one more, with one answer: bytes pass exactly if their blocks are nested within the limit. Bytes that are no
fields, and fields without blocks, are not nested; other fields are so one level more than the deepest of their blocks.
So a greater limit lets more bytes pass, and what stands in blocks passes with one level less. -/
theorem checkNesting_decides (horder : ∀ work, (order work).Perm work) :
    (∀ (limit : Nat) (b : Bytes) (out : Except DecodeError Unit),
      (∃ rounds ≤ b.length + 1, Ends order limit [(b, 0)] rounds out) ↔ checkNesting limit b = out) ∧
    (∀ (limit : Nat) (b : Bytes), checkNesting limit b = .ok () ↔ blockNesting b ≤ limit) ∧
    (∀ (b : Bytes) (bodies : List Bytes), blocks b = some bodies ↔ FieldSequence b bodies) ∧
    (∀ b : Bytes, (∀ bodies, ¬ FieldSequence b bodies) → blockNesting b = 0) ∧
    (∀ b : Bytes, FieldSequence b [] → blockNesting b = 0) ∧
    (∀ (b : Bytes) (bodies : List Bytes), FieldSequence b bodies → bodies ≠ [] →
      blockNesting b = (bodies.map blockNesting).foldr max 0 + 1) ∧
    (∀ (limit limit' : Nat) (b : Bytes), limit ≤ limit' → checkNesting limit b = .ok () →
      checkNesting limit' b = .ok ()) ∧
    ∀ (limit : Nat) (b : Bytes) (bodies : List Bytes), FieldSequence b bodies → checkNesting (limit + 1) b = .ok () →
      ∀ body ∈ bodies, checkNesting limit body = .ok () := by
  refine ⟨?_, ?_, ?_, ?_, ?_, ?_, ?_, ?_⟩
  · exact fun limit b out => exists_ends_iff horder
  · exact fun limit b => checkNesting_eq_ok_iff
  · exact fun b bodies => blocks_eq_some_iff
  · exact fun b h => blockNesting_of_not_fieldSequence h
  · exact fun b h => blockNesting_of_innerBlocks (innerBlocks_of_fieldSequence h)
  · exact fun b bodies h hne => blockNesting_of_fieldSequence h hne
  · exact fun limit limit' b hle h => checkNesting_mono hle h
  · exact fun limit b bodies hfields h body hbody => checkNesting_body hfields h hbody

/-- Two blocks, of which the last is looked at first: it holds a block, which is too deep for a limit of one. -/
theorem checkNesting_decides_last :
    let b : Bytes := [0x0a, 0, 0x12, 2, 0x0a, 0]
    (∀ work : Work, work.reverse.Perm work) ∧ checkNesting 1 b = .error (.tooDeep 1) ∧ blockNesting b = 2 ∧
      checkNesting 1 [0x0a, 0] = .ok () := by
  intro b
  obtain ⟨hends, hmeasure, hscan, -, hflat, hdeep, hmono, hbody⟩ := checkNesting_decides List.reverse_perm
  have hempty : FieldSequence [] [] := .nil
  have hinner : FieldSequence [0x0a, 0] [[]] := (hscan _ _).1 (by decide +kernel)
  have hfields : FieldSequence b [[], [0x0a, 0]] := (hscan _ _).1 (by decide +kernel)
  have hrounds : Ends List.reverse 1 [(b, 0)] 2 (.error (.tooDeep 1)) :=
    .round (.nested hfields (by decide) (by decide)) (.tooDeep hinner (by decide) (by decide))
  have hnesting : blockNesting b = 2 := by
    simp [hdeep b _ hfields, hdeep _ _ hinner, hflat _ hempty]
  have hpass : checkNesting 2 b = .ok () := (hmeasure 2 b).2 (Nat.le_of_eq hnesting)
  exact ⟨List.reverse_perm, (hends 1 b _).1 ⟨2, by decide, hrounds⟩, hnesting,
    hbody 1 b _ hfields hpass _ (List.mem_cons_of_mem _ (List.mem_singleton_self _))⟩

end Fabric.Wire

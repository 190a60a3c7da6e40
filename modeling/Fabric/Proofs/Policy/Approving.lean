import Fabric.Proofs.Policy.OwnApproval

namespace Fabric

namespace Approvals

variable {a b : Approvals} {key : String}

def Grants (a : Approvals) (key : String) : Prop := (key, true) ∈ a.entries

theorem grants_ofPairs_iff {pairs : List (String × Bool)} :
    (ofPairs pairs).Grants key ↔ pairs.reverse.find? (fun p => p.1 = key) = some (key, true) :=
  Keyed.mem_ofList_iff_find?

theorem grants_approve_iff {key' : String} : (a.approve key).Grants key' ↔ a.Grants key' ∨ key' = key := by
  constructor
  · intro h
    rcases Keyed.mem_insert h with heq | hmem
    · exact .inr (congrArg Prod.fst heq)
    · exact .inl hmem
  · intro h
    rcases h with hmem | rfl
    · exact Keyed.mem_insert_of_mem hmem fun _ => rfl
    · exact Keyed.mem_insert_self ..

/-- After any number of approvals, what was approved before is approved, and what was approved since. -/
theorem grants_foldl_approve_iff {keys : List String} :
    (keys.foldl approve a).Grants key ↔ a.Grants key ∨ key ∈ keys := by
  induction keys generalizing a with
  | nil => simp
  | cons k rest ih => rw [List.foldl_cons, ih, grants_approve_iff, List.mem_cons, or_assoc]

theorem mem_granted_mono (h : ∀ key, a.Grants key → b.Grants key) {x : Principal} (hx : x ∈ a.granted) :
    x ∈ b.granted := by
  obtain ⟨key, y, hkey, hy, hwidened⟩ := mem_granted.1 hx
  exact mem_granted.2 ⟨key, y, h key hkey, hy, hwidened⟩

def approvedBy (steps : List Step) : List String :=
  steps.filterMap fun
    | .approve key => some key
    | .check => none

theorem foldl_after (steps : List Step) : steps.foldl after a = (approvedBy steps).foldl approve a := by
  induction steps generalizing a with
  | nil => rfl
  | cons step rest ih => cases step <;> exact ih

end Approvals

namespace Policy

open Approvals (Grants approve approvedBy)

variable {p : Policy} {a b : Approvals}

theorem evaluate_eq_ok_true_iff (hg : p.rule.GroupsBelow UInt32.size) :
    p.evaluate a = .ok true ↔ p.validate = .ok () ∧ p.rule.holds (p.signedAmong a.granted) = true := by
  cases hp : p.validate with
  | ok u => simp [evaluate_eq_ok hp hg]
  | error e => simp [evaluate, hp, bind, Except.bind]

/-- More approvals satisfy what fewer do. -/
theorem evaluate_mono (hg : p.rule.GroupsBelow UInt32.size) (h : ∀ key, a.Grants key → b.Grants key)
    (ha : p.evaluate a = .ok true) : p.evaluate b = .ok true := by
  obtain ⟨hvalid, hholds⟩ := (evaluate_eq_ok_true_iff hg).1 ha
  refine (evaluate_eq_ok_true_iff hg).2 ⟨hvalid, Rule.holds_mono ?_ hholds⟩
  intro i hi
  obtain ⟨x, hx, hgranted⟩ := signedAmong_eq_true_iff.1 hi
  exact signedAmong_eq_true_iff.2 ⟨x, hx, Approvals.mem_granted_mono h hgranted⟩

/-- The same texts approved make no difference, whatever else is recorded. -/
theorem evaluate_eq_of_grants (h : ∀ key, a.Grants key ↔ b.Grants key) : p.evaluate a = p.evaluate b := by
  refine evaluate_congr fun x _ => ⟨?_, ?_⟩
  · exact Approvals.mem_granted_mono fun key => (h key).1
  · exact Approvals.mem_granted_mono fun key => (h key).2

/-- A step keeps a policy satisfied. -/
theorem evaluate_after (hg : p.rule.GroupsBelow UInt32.size) (step : Approvals.Step) (ha : p.evaluate a = .ok true) :
    p.evaluate (a.after step) = .ok true := by
  cases step with
  | approve key => exact evaluate_mono hg (fun _ h => Approvals.grants_approve_iff.2 (.inl h)) ha
  | check => exact ha

/-- Once a policy is satisfied, it is found satisfied after every step. -/
theorem evaluate_of_mem_follow (hg : p.rule.GroupsBelow UInt32.size) {steps : List Approvals.Step}
    (ha : p.evaluate a = .ok true) {x : Approvals × Except PolicyError Bool} (hx : x ∈ p.follow a steps) :
    x.2 = .ok true := by
  induction steps generalizing a with
  | nil => cases hx
  | cons step rest ih =>
    have hafter := evaluate_after hg step ha
    rcases List.mem_cons.1 hx with rfl | hx
    · exact hafter
    · exact ih hafter hx

theorem pairwise_follow (hg : p.rule.GroupsBelow UInt32.size) (a : Approvals) (steps : List Approvals.Step) :
    (p.follow a steps).Pairwise fun x y => x.2 = .ok true → y.2 = .ok true := by
  induction steps generalizing a with
  | nil => exact .nil
  | cons step rest ih => exact .cons (fun y hy hsatisfied => evaluate_of_mem_follow hg hsatisfied hy) (ih _)

/-- What is found after a step is what the approvals up to it make of the record: what is looked at stays as it is. -/
theorem follow_eq_map (a : Approvals) (steps : List Approvals.Step) :
    p.follow a steps = (List.range steps.length).map fun i =>
      ((approvedBy (steps.take (i + 1))).foldl approve a,
        p.evaluate ((approvedBy (steps.take (i + 1))).foldl approve a)) := by
  simp only [← Approvals.foldl_after]
  induction steps generalizing a with
  | nil => rfl
  | cons step rest ih =>
    rw [follow, ih, List.length_cons, List.range_succ_eq_map, List.map_cons, List.map_map]
    rfl

/-- Approvals only help where every group has fewer than 2³² rules: more of them satisfy a policy that fewer satisfy,
and while they are recorded the policy stays satisfied from the first time that it is. However large the groups, it
makes no difference in which order approvals come, and the evaluations in between change nothing. What counts is which
texts are approved, by the last pair for each where the record is made of pairs. -/
theorem evaluate_grows (p : Policy) (a : Approvals) :
    (p.rule.GroupsBelow UInt32.size →
      (∀ b : Approvals, (∀ key, a.Grants key → b.Grants key) → p.evaluate a = .ok true → p.evaluate b = .ok true) ∧
      (∀ keys : List String, p.evaluate a = .ok true → p.evaluate (keys.foldl approve a) = .ok true) ∧
      ∀ steps : List Approvals.Step,
        (p.evaluate a = .ok true → ∀ x ∈ p.follow a steps, x.2 = .ok true) ∧
        (p.follow a steps).Pairwise fun x y => x.2 = .ok true → y.2 = .ok true) ∧
    (∀ keys keys' : List String, keys.Perm keys' →
      p.evaluate (keys.foldl approve a) = p.evaluate (keys'.foldl approve a)) ∧
    (∀ steps : List Approvals.Step,
      p.follow a steps = (List.range steps.length).map fun i =>
        ((approvedBy (steps.take (i + 1))).foldl approve a,
          p.evaluate ((approvedBy (steps.take (i + 1))).foldl approve a))) ∧
    ∀ pairs key, (Approvals.ofPairs pairs).Grants key ↔
      pairs.reverse.find? (fun e => e.1 = key) = some (key, true) := by
  refine ⟨fun hg => ⟨fun b h ha => evaluate_mono hg h ha, ?approved, ?followed⟩, ?reordered, follow_eq_map a,
    fun pairs key => Approvals.grants_ofPairs_iff⟩
  case approved =>
    intro keys ha
    exact evaluate_mono hg (fun key h => Approvals.grants_foldl_approve_iff.2 (.inl h)) ha
  case followed =>
    intro steps
    exact ⟨fun ha x hx => evaluate_of_mem_follow hg ha hx, pairwise_follow hg a steps⟩
  case reordered =>
    intro keys keys' hperm
    -- only which texts are approved counts, and these are the same in either order
    refine evaluate_eq_of_grants fun key => ?_
    rw [Approvals.grants_foldl_approve_iff, Approvals.grants_foldl_approve_iff, hperm.mem_iff]

/-- A refusal that is replaced, one that is not, the text of a role in small letters, and a text that names nobody. -/
theorem evaluate_grows_refused :
    let p : Policy := ⟨0, [⟨"A", .member⟩, ⟨"B", .admin⟩], .nOutOf 2 [.signedBy 0, .signedBy 1]⟩
    let a := Approvals.ofPairs [("B.admin", false), ("A.peer", true), ("B.admin", true), ("B.ADMIN", false)]
    let b : Approvals := ⟨[("A.peer", true), ("A.MEMBER", false), ("B.admin", true)]⟩
    p.rule.GroupsBelow UInt32.size ∧ a.Grants "A.peer" ∧ a.Grants "B.admin" ∧ ¬ a.Grants "B.ADMIN" ∧
      p.evaluate a = .ok true ∧
      p.evaluate b = .ok true ∧ p.evaluate (["nobody", "B.ADMIN"].foldl approve a) = .ok true ∧
      p.evaluate (["nobody", "B.ADMIN"].foldl approve a) = p.evaluate (["B.ADMIN", "nobody"].foldl approve a) ∧
      ∀ x ∈ p.follow a [.check, .approve "nobody", .check], x.2 = .ok true := by
  intro p a b
  have hsize : p.rule.GroupsBelow UInt32.size := by
    simp [p, Rule.GroupsBelow, Rule.AllGroupsBelow, UInt32.size]
  obtain ⟨hgrows, horder, -, hpairs⟩ := evaluate_grows p a
  obtain ⟨hmore, hkeys, hsteps⟩ := hgrows hsize
  have hpeer : a.Grants "A.peer" := (hpairs _ _).2 (by decide)
  have hadmin : a.Grants "B.admin" := (hpairs _ _).2 (by decide)
  have hupper : ¬ a.Grants "B.ADMIN" := fun h => absurd ((hpairs _ _).1 h) (by decide)
  have hvalid : p.validate = .ok () := by
    rw [validate_eq_ok_iff]
    simp [p, Rule.WellFormed, Rule.AllWellFormed, Rule.nesting, Rule.nestingList, maxDepth]
  have hfirst : p.Satisfied a (.signedBy 0) :=
    .signedBy (x := ⟨"A", .member⟩) (y := ⟨"A", .peer⟩) rfl hpeer
      ⟨by decide, "peer", by decide, by decide, toUpper_of_toList (by decide)⟩ ⟨rfl, .inr ⟨.inr rfl, rfl⟩⟩
  have hsecond : p.Satisfied a (.signedBy 1) :=
    .signedBy (x := ⟨"B", .admin⟩) (y := ⟨"B", .admin⟩) rfl hadmin
      ⟨by decide, "admin", by decide, by decide, toUpper_of_toList (by decide)⟩ ⟨rfl, .inl rfl⟩
  have hrule : p.Satisfied a p.rule := by
    refine .nOutOf (List.Sublist.refl _) (by decide) ?_
    rw [List.forall_mem_cons, List.forall_mem_singleton]
    exact ⟨hfirst, hsecond⟩
  have ha : p.evaluate a = .ok true :=
    (evaluate_eq_ok_true_iff hsize).2 ⟨hvalid, (holds_iff_satisfied _).2 hrule⟩
  have hb : ∀ key, a.Grants key → b.Grants key := by
    intro key h
    have hlast := List.mem_of_find?_eq_some ((hpairs _ _).1 h)
    have hkey : key = "A.peer" ∨ key = "B.admin" := by
      simp only [List.reverse_cons, List.reverse_nil, List.nil_append, List.cons_append, List.mem_cons, Prod.mk.injEq,
        Bool.true_eq_false, and_false, and_true, List.not_mem_nil, or_false, false_or] at hlast
      exact hlast.symm
    rcases hkey with rfl | rfl <;> simp [Approvals.Grants, b]
  exact ⟨hsize, hpeer, hadmin, hupper, ha, hmore b hb ha, hkeys _ ha, horder _ _ (List.Perm.swap ..),
    (hsteps _).1 ha⟩

end Policy

end Fabric

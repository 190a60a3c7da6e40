import Fabric.Proofs.Request.Checked

namespace Fabric

variable {α β ρ σ : Type}

/-- The violations are those of the rules that are broken: one for each, in the order of the rules, and no others. -/
inductive Lists (Breaks : ρ → Violation → Prop) : List ρ → List Violation → Prop
  | nil : Lists Breaks [] []
  | broken {rule : ρ} {rules : List ρ} {v : Violation} {vs : List Violation} (h : Breaks rule v)
    (rest : Lists Breaks rules vs) : Lists Breaks (rule :: rules) (v :: vs)
  | kept {rule : ρ} {rules : List ρ} {vs : List Violation} (h : ∀ v, ¬ Breaks rule v)
    (rest : Lists Breaks rules vs) : Lists Breaks (rule :: rules) vs

namespace Lists

variable {Breaks : ρ → Violation → Prop} {rule : ρ} {rules : List ρ} {vs : List Violation}

theorem append {more : List ρ} {ws : List Violation} (h : Lists Breaks rules vs) (hmore : Lists Breaks more ws) :
    Lists Breaks (rules ++ more) (vs ++ ws) := by
  induction h with
  | nil => exact hmore
  | broken h _ ih => exact .broken h ih
  | kept h _ ih => exact .kept h ih

theorem map {name : σ → ρ} {names : List σ} (h : Lists (fun n => Breaks (name n)) names vs) :
    Lists Breaks (names.map name) vs := by
  induction h with
  | nil => exact .nil
  | broken h _ ih => exact .broken h ih
  | kept h _ ih => exact .kept h ih

theorem congr {Breaks' : ρ → Violation → Prop} (h : Lists Breaks rules vs)
    (hsame : ∀ rule ∈ rules, ∀ v, Breaks rule v ↔ Breaks' rule v) : Lists Breaks' rules vs := by
  induction h with
  | nil => exact .nil
  | broken h _ ih =>
    rw [List.forall_mem_cons] at hsame
    exact .broken ((hsame.1 _).1 h) (ih hsame.2)
  | kept h _ ih =>
    rw [List.forall_mem_cons] at hsame
    exact .kept (fun v hv => h v ((hsame.1 v).2 hv)) (ih hsame.2)

theorem require {condition : Bool} {field : String} {reason : Reason}
    (h : ∀ v, Breaks rule v ↔ condition = false ∧ v = ⟨field, reason⟩) :
    Lists Breaks [rule] (Checked.require condition field reason).violations := by
  cases condition with
  | true =>
    apply kept _ nil
    intro v hv
    cases ((h v).1 hv).1
  | false => exact broken ((h _).2 ⟨rfl, rfl⟩) nil

theorem present {field value : String}
    (h : ∀ v, Breaks rule v ↔ Text.isBlankText value = true ∧ v = ⟨field, .required⟩) :
    Lists Breaks [rule] (Checked.present field value).violations := by
  apply require
  intro v
  rw [h, Bool.not_eq_false']

/-- A rule that is broken by an error is listed with the error, and is kept where there is none. -/
theorem ofExcept {ε : Type} {x : Except ε α} {field : String} {reason : ε → Reason}
    (h : ∀ v, Breaks rule v ↔ ∃ e, x = .error e ∧ v = ⟨field, reason e⟩) :
    Lists Breaks [rule] (Checked.ofExcept field reason x).violations := by
  cases x with
  | ok a =>
    apply kept _ nil
    intro v hv
    obtain ⟨e, he, -⟩ := (h v).1 hv
    cases he
  | error e => exact broken ((h _).2 ⟨e, rfl, rfl⟩) nil

/-- What is listed is of rules that are broken. -/
theorem exists_breaks {v : Violation} (h : Lists Breaks rules (v :: vs)) : ∃ rule ∈ rules, Breaks rule v := by
  generalize hlist : v :: vs = ws at h
  induction h with
  | nil => cases hlist
  | broken h _ _ =>
    obtain ⟨rfl, -⟩ := List.cons.inj hlist
    exact ⟨_, List.mem_cons_self .., h⟩
  | kept _ _ ih =>
    obtain ⟨rule, hrule, h⟩ := ih hlist
    exact ⟨rule, List.mem_cons_of_mem _ hrule, h⟩

/-- A rule that is broken does not go unnoticed. -/
theorem ne_nil {v : Violation} (h : Lists Breaks rules vs) (hrule : rule ∈ rules) (hv : Breaks rule v) : vs ≠ [] := by
  induction h with
  | nil => cases hrule
  | broken _ _ _ => exact List.cons_ne_nil _ _
  | kept hkept _ ih =>
    obtain rfl | hrest := List.mem_cons.1 hrule
    · exact absurd hv (hkept v)
    · exact ih hrest

end Lists

structure Reports (Breaks : ρ → Violation → Prop) (rules : List ρ) (x : Except RequestError α) : Prop where
  refused_iff : (∃ vs, x = .error (.validation vs)) ↔ ∃ rule ∈ rules, ∃ v, Breaks rule v
  lists : ∀ vs, x = .error (.validation vs) → Lists Breaks rules vs
  nonempty : x ≠ .error (.validation [])

section

variable {Breaks : ρ → Violation → Prop} {rules : List ρ}

/-- What is refused by a check, and is not said not to be valid after it, is reported as the check found it. -/
theorem Lists.reports {x : Checked α} (h : Lists Breaks rules x.violations) {y : Except RequestError β}
    (hrefused : ∀ first more, x = .refused first more → y = .error (.validation (first :: more)))
    (haccepted : ∀ a, x = .accepted a → ∀ vs, y ≠ .error (.validation vs)) : Reports Breaks rules y := by
  cases x with
  | accepted a =>
    have hvalid := haccepted a rfl
    refine ⟨⟨?_, ?_⟩, ?_, hvalid []⟩
    · intro hy
      obtain ⟨vs, hy⟩ := hy
      exact absurd hy (hvalid vs)
    · intro hbroken
      obtain ⟨rule, hrule, v, hv⟩ := hbroken
      exact absurd rfl (h.ne_nil hrule hv)
    · intro vs hy
      exact absurd hy (hvalid vs)
  | refused first more =>
    obtain rfl := hrefused first more rfl
    obtain ⟨rule, hrule, hv⟩ := h.exists_breaks
    refine ⟨iff_of_true ⟨_, rfl⟩ ⟨rule, hrule, first, hv⟩, ?_, ?_⟩
    · intro vs hy
      cases hy
      exact h
    · intro hy
      cases hy

theorem Checked.reports {x : Checked α} (h : Lists Breaks rules x.violations) : Reports Breaks rules x.toExcept := by
  apply h.reports
  · intro first more hx
    rw [hx]
    rfl
  · intro a hx vs hy
    rw [hx] at hy
    cases hy

end

end Fabric

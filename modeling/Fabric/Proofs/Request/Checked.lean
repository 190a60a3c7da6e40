import Fabric.Request.Collecting

/-!
Checks as values: what a check accepts, or everything that stands against it, of which there is something. Computations
that add to a list of violations agree with them, so that what is not accepted does not go unreported.
-/
namespace Fabric

inductive Checked (α : Type)
  | accepted (a : α)
  | refused (first : Violation) (more : List Violation)

namespace Checked

variable {ε α β : Type}

def violations : Checked α → List Violation
  | .accepted _ => []
  | .refused first more => first :: more

def map (f : α → β) : Checked α → Checked β
  | .accepted a => .accepted (f a)
  | .refused first more => .refused first more

def seq (f : Checked (α → β)) (x : Unit → Checked α) : Checked β :=
  match f, x () with
  | .accepted f, .accepted a => .accepted (f a)
  | .accepted _, .refused first more => .refused first more
  | .refused first more, x => .refused first (more ++ x.violations)

instance : Applicative Checked where
  pure := .accepted
  map := Checked.map
  seq := Checked.seq

def toOption : Checked α → Option α
  | .accepted a => some a
  | .refused _ _ => none

def toExcept : Checked α → Except RequestError α
  | .accepted a => .ok a
  | .refused first more => .error (.validation (first :: more))

def violation (field : String) (reason : Reason) : Checked α := .refused ⟨field, reason⟩ []

def ofExcept (field : String) (reason : ε → Reason) : Except ε α → Checked α
  | .ok a => .accepted a
  | .error e => violation field (reason e)

def require (condition : Bool) (field : String) (reason : Reason) : Checked Unit :=
  if condition then .accepted () else violation field reason

def present (field value : String) : Checked Unit := require (!Text.isBlankText value) field .required

@[simp] theorem violations_map (f : α → β) (x : Checked α) : (f <$> x).violations = x.violations := by
  cases x with
  | accepted a => rfl
  | refused first more => rfl

@[simp] theorem violations_seq (f : Checked (α → β)) (x : Checked α) :
    (f <*> x).violations = f.violations ++ x.violations := by
  cases f with
  | accepted g =>
    cases x with
    | accepted a => rfl
    | refused first more => rfl
  | refused first more => rfl

theorem toExcept_eq_ok_iff {x : Checked α} {a : α} : x.toExcept = .ok a ↔ x = .accepted a := by
  cases x with
  | accepted b =>
    constructor
    · intro h
      rw [Except.ok.inj h]
    · intro h
      rw [h, toExcept]
  | refused first more =>
    constructor
    · intro h
      cases h
    · intro h
      cases h

theorem ofExcept_eq_accepted_iff {field : String} {reason : ε → Reason} {x : Except ε α} {a : α} :
    ofExcept field reason x = .accepted a ↔ x = .ok a := by
  cases x with
  | ok b =>
    constructor
    · intro h
      rw [accepted.inj h]
    · intro h
      rw [h, ofExcept]
  | error e =>
    constructor
    · intro h
      cases h
    · intro h
      cases h

/-- Checks have no other way to fail, and do not fail for nothing. -/
theorem exists_validation {x : Checked α} {e : RequestError} (h : x.toExcept = .error e) :
    ∃ first more, e = .validation (first :: more) := by
  cases x with
  | accepted a => cases h
  | refused first more => exact ⟨first, more, (Except.error.inj h).symm⟩

theorem toOption_eq_none_iff {x : Checked α} : x.toOption = none ↔ x.violations ≠ [] := by
  cases x with
  | accepted a => simp [toOption, violations]
  | refused first more => simp [toOption, violations]

theorem map_eq_accepted_iff {f : α → β} {x : Checked α} {b : β} :
    f <$> x = .accepted b ↔ ∃ a, x = .accepted a ∧ f a = b := by
  cases x with
  | accepted a =>
    constructor
    · intro h
      cases h
      exact ⟨a, rfl, rfl⟩
    · intro h
      obtain ⟨a', ha, rfl⟩ := h
      cases ha
      rfl
  | refused first more =>
    constructor
    · intro h
      cases h
    · intro h
      obtain ⟨a, ha, -⟩ := h
      cases ha

/-- Where anything stands against the function or the value, the application is refused. -/
theorem seq_eq_accepted_iff {f : Checked (α → β)} {x : Checked α} {b : β} :
    f <*> x = .accepted b ↔ ∃ g a, f = .accepted g ∧ x = .accepted a ∧ g a = b := by
  cases f with
  | accepted g =>
    cases x with
    | accepted a =>
      constructor
      · intro h
        cases h
        exact ⟨g, a, rfl, rfl, rfl⟩
      · intro h
        obtain ⟨g', a', hg, ha, rfl⟩ := h
        cases hg
        cases ha
        rfl
    | refused first more =>
      constructor
      · intro h
        cases h
      · intro h
        obtain ⟨g', a', -, ha, -⟩ := h
        cases ha
  | refused first more =>
    constructor
    · intro h
      cases h
    · intro h
      obtain ⟨g', a', hg, -, -⟩ := h
      cases hg

theorem require_of {condition : Bool} (h : condition = true) (field : String) (reason : Reason) :
    require condition field reason = .accepted () :=
  if_pos h

theorem present_of_not_blank {value : String} (h : Text.isBlankText value = false) (field : String) :
    present field value = .accepted () :=
  require_of (by rw [h, Bool.not_false]) field .required

theorem not_blank_of_present {field value : String} {u : Unit} (h : present field value = .accepted u) :
    Text.isBlankText value = false := by
  cases hvalue : Text.isBlankText value with
  | false => rfl
  | true =>
    rw [present, hvalue] at h
    cases h

end Checked

namespace Collecting

variable {ε α β : Type}

theorem require_of_not_blank {value : String} (h : Text.isBlankText value = false) (field : String) :
    require field value = pure () := by
  rw [require, h]
  rfl

def Gives (x : Collecting α) (a : α) (found : List Violation) : Prop :=
  ∀ before, x.run before = (a, before ++ found)

namespace Gives

theorem pure (a : α) : Gives (pure a) a [] := by
  intro before
  rw [List.append_nil]
  rfl

theorem bind {x : Collecting α} {f : α → Collecting β} {a : α} {b : β} {vs ws : List Violation} (hx : x.Gives a vs)
    (hf : (f a).Gives b ws) : (x >>= f).Gives b (vs ++ ws) := by
  intro before
  rw [StateT.run_bind, hx before, ← List.append_assoc]
  exact hf _

theorem congr {x : Collecting α} {a b : α} {vs ws : List Violation} (h : x.Gives a vs) (ha : a = b) (hvs : vs = ws) :
    x.Gives b ws := by
  rwa [← ha, ← hvs]

theorem last {x : Collecting α} {a : α} {vs : List Violation} (hx : x.Gives a vs) (f : α → β) :
    (x >>= fun a => Pure.pure (f a)).Gives (f a) vs := by
  have hgives := hx.bind (f := fun a => Pure.pure (f a)) (pure (f a))
  rwa [List.append_nil] at hgives

theorem report (field : String) (reason : Reason) : (report field reason).Gives () [⟨field, reason⟩] :=
  fun _ => rfl

theorem refuse (field : String) (reason : Reason) :
    (refuse field reason : Collecting (Option α)).Gives none [⟨field, reason⟩] :=
  (report field reason).bind (pure none)

theorem accept (field : String) (reason : ε → Reason) (x : Except ε α) :
    (accept field reason x).Gives (Checked.ofExcept field reason x).toOption
      (Checked.ofExcept field reason x).violations := by
  cases x with
  | ok a => exact pure (some a)
  | error e => exact refuse field (reason e)

theorem check (condition : Bool) (field : String) (reason : Reason) :
    (check condition field reason).Gives () (Checked.require condition field reason).violations := by
  cases condition with
  | true => exact pure ()
  | false => exact report field reason

theorem require (field value : String) : (require field value).Gives () (Checked.present field value).violations :=
  check _ field .required

end Gives

/-- A computation finds what a check finds, and what the check accepts it comes to, in the form that `f` gives it. -/
def Agrees (x : Collecting β) (f : α → β) (c : Checked α) : Prop :=
  ∃ b, x.Gives b c.violations ∧ ∀ a, c = .accepted a → b = f a

namespace Agrees

variable {x : Collecting β} {f : α → β} {c : Checked α}

theorem of_gives {b : β} {found : List Violation} (hx : x.Gives b found) (hfound : found = c.violations)
    (hb : ∀ a, c = .accepted a → b = f a) : x.Agrees f c := by
  subst hfound
  exact ⟨b, hx, hb⟩

theorem of_gives_toOption {x : Collecting (Option α)} (h : x.Gives c.toOption c.violations) : x.Agrees some c := by
  refine ⟨_, h, ?_⟩
  intro a ha
  rw [ha]
  rfl

theorem accepted (f : α → β) (a : α) : Agrees (pure (f a)) f (.accepted a) := by
  refine ⟨f a, .pure _, ?_⟩
  intro a' ha
  rw [Checked.accepted.inj ha]

theorem refuse (field : String) (reason : Reason) :
    Agrees (refuse field reason) some (.violation field reason : Checked α) := by
  refine ⟨none, .refuse field reason, ?_⟩
  intro a ha
  cases ha

theorem accept (field : String) (reason : ε → Reason) (x : Except ε α) :
    Agrees (accept field reason x) some (Checked.ofExcept field reason x) :=
  of_gives_toOption (.accept field reason x)

theorem require (field value : String) : Agrees (require field value) id (Checked.present field value) :=
  ⟨(), .require field value, fun _ _ => rfl⟩

theorem finish (h : x.Agrees f c) : x.finish = f <$> c.toExcept := by
  obtain ⟨b, hx, hb⟩ := h
  rw [Collecting.finish, hx []]
  cases c with
  | accepted a => rw [hb a rfl]; rfl
  | refused first more => rfl

theorem finish_id {x : Collecting α} (h : x.Agrees id c) : x.finish = c.toExcept := by
  rw [h.finish, id_map]

theorem expect {x : Collecting (Option α)} (h : x.Agrees some c) :
    (x.finish >>= Collecting.expect) = c.toExcept := by
  rw [h.finish]
  cases c with
  | accepted a => rfl
  | refused first more => rfl

end Agrees

end Collecting

end Fabric

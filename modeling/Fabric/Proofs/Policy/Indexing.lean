import Fabric.Policy.Compact.Parser
import Fabric.Proofs.Policy.Grammar
import Mathlib.Data.List.Induction

namespace Fabric.Compact.Parser

def noted (identities xs : List Principal) : List Principal :=
  xs.foldl (fun identities x => if x ∈ identities then identities else identities ++ [x]) identities

theorem noted_append (identities xs ys : List Principal) :
    noted identities (xs ++ ys) = noted (noted identities xs) ys := List.foldl_append ..

theorem noted_singleton (identities : List Principal) (x : Principal) :
    noted identities [x] = if x ∈ identities then identities else identities ++ [x] := rfl

def place (identities : List Principal) (x : Principal) : UInt32 :=
  UInt32.ofNat ((noted identities [x]).idxOf x)

theorem place_of_mem {identities : List Principal} {x : Principal} (h : x ∈ identities) :
    place identities x = UInt32.ofNat (identities.idxOf x) := by
  rw [place, noted_singleton, if_pos h]

theorem place_of_notMem {identities : List Principal} {x : Principal} (h : x ∉ identities) :
    place identities x = UInt32.ofNat identities.length := by
  rw [place, noted_singleton, if_neg h, List.idxOf_append, if_neg h, List.idxOf_cons_self, Nat.zero_add]

def indices (identities : List Principal) : List (Principal × UInt32) :=
  identities.mapIdx fun i x => (x, UInt32.ofNat i)

theorem indices_concat (identities : List Principal) (x : Principal) :
    indices (identities ++ [x]) = indices identities ++ [(x, UInt32.ofNat identities.length)] :=
  List.mapIdx_concat

/-- What is looked up is the place of a principal in the list, and it is found exactly if the list holds it. -/
theorem lookup_indices (identities : List Principal) (x : Principal) :
    (indices identities).lookup x =
      if x ∈ identities then some (UInt32.ofNat (identities.idxOf x)) else none := by
  induction identities using List.reverseRecOn with
  | nil => rfl
  | append_singleton before y ih =>
    rw [indices_concat, List.lookup_append, ih, List.idxOf_append]
    by_cases hx : x ∈ before
    · simp [hx]
    · obtain rfl | hne := eq_or_ne x y
      · simp [hx]
      · simp [hx, hne, List.lookup_cons, beq_false_of_ne hne]

def Tracks (p : Parser) : Prop := p.seen = indices p.identities

def note (p : Parser) (x : Principal) : Parser :=
  { p with identities := noted p.identities [x], seen := indices (noted p.identities [x]) }

/-- A reader that tracks its principals gives each its place among them, and tracks them again. -/
theorem Tracks.leaf_eq {p : Parser} (hp : p.Tracks) (s : String) :
    p.leaf s = (Principal.parse s).map fun x => (p.note x).supply (.signedBy (place p.identities x)) := by
  obtain ⟨stage, groups, identities, seen⟩ := p
  obtain rfl : seen = indices identities := hp
  rw [leaf]
  cases Principal.parse s with
  | error e => rfl
  | ok x =>
    simp only [bind, Except.bind, Except.map, lookup_indices, note, noted_singleton]
    by_cases hx : x ∈ identities
    · simp only [if_pos hx, place_of_mem hx]
      rfl
    · simp only [if_neg hx, place_of_notMem hx, indices_concat]
      rfl

/-- The list only grows at its end. -/
theorem exists_noted_eq_append (identities xs : List Principal) :
    ∃ new, noted identities xs = identities ++ new := by
  induction xs generalizing identities with
  | nil => exact ⟨[], by simp [noted]⟩
  | cons x xs ih =>
    rw [← List.singleton_append, noted_append]
    obtain ⟨new, hnew⟩ := ih (noted identities [x])
    rw [hnew, noted_singleton]
    split
    · exact ⟨new, rfl⟩
    · exact ⟨x :: new, by simp⟩

theorem mem_noted {identities xs : List Principal} {x : Principal} :
    x ∈ noted identities xs ↔ x ∈ identities ∨ x ∈ xs := by
  induction xs generalizing identities with
  | nil => simp [noted]
  | cons y xs ih =>
    rw [← List.singleton_append, noted_append, ih, noted_singleton]
    split
    · next hy =>
      simp only [List.singleton_append, List.mem_cons]
      constructor
      · exact Or.imp_right .inr
      · intro h
        rcases h with h | rfl | h
        · exact .inl h
        · exact .inl hy
        · exact .inr h
    · simp [or_assoc]

/-- The list of a whole text holds every principal once, in order of first appearance. -/
theorem noted_nil_eq_eraseDups (xs : List Principal) : noted [] xs = xs.eraseDups := by
  -- what is noted on a list without repetitions is such a list again
  suffices h : ∀ xs ys : List Principal, noted xs.eraseDups ys = (xs ++ ys).eraseDups by
    simpa using h [] xs
  intro xs ys
  induction ys generalizing xs with
  | nil => simp [noted]
  | cons y ys ih =>
    have hone : noted xs.eraseDups [y] = (xs ++ [y]).eraseDups := by
      rw [noted_singleton, List.eraseDups_append]
      by_cases hy : y ∈ xs <;> simp [hy, List.mem_eraseDups, List.removeAll, List.eraseDups_cons]
    rw [← List.singleton_append, noted_append, hone, ih, List.append_assoc]

mutual
/-- The rule of an expression stays as it is while the list grows. -/
theorem rule_noted {identities xs : List Principal} :
    ∀ e : Expr, (∀ x ∈ e.principals, x ∈ identities) → e.rule (noted identities xs) = e.rule identities
  | .principal x, h => by
    obtain ⟨new, hnew⟩ := exists_noted_eq_append identities xs
    rw [Expr.rule, Expr.rule, hnew, List.idxOf_append, if_pos (h x (List.mem_singleton_self x))]
  | .group d args, h => by rw [Expr.rule, Expr.rule, rules_noted args h]
theorem rules_noted {identities xs : List Principal} :
    ∀ es : List Expr, (∀ x ∈ Expr.principalsOf es, x ∈ identities) →
      Expr.rules (noted identities xs) es = Expr.rules identities es
  | [], _ => rfl
  | e :: rest, h => by
    simp only [Expr.principalsOf, List.forall_mem_append] at h
    rw [Expr.rules, Expr.rules, rule_noted e h.1, rules_noted rest h.2]
end

/-- The arguments of a group stand for the same rules whether they are numbered one after another or all
at the end. -/
theorem rules_cons_noted (identities : List Principal) (e : Expr) (rest : List Expr) :
    Expr.rules (noted identities (Expr.principalsOf (e :: rest))) (e :: rest) =
      e.rule (noted identities e.principals) ::
        Expr.rules (noted (noted identities e.principals) (Expr.principalsOf rest)) rest := by
  rw [Expr.principalsOf, noted_append, Expr.rules, rule_noted e fun x hx => mem_noted.2 (.inr hx)]

end Fabric.Compact.Parser

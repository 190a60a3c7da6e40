import Fabric.Total

/-!
Trees of groups, and whether they are nested too deep. A notation says which of its values are groups
and what they hold; the measure keeps a list of the values still to be looked at, so that it needs no
stack.
-/
namespace Fabric

/-- How a type of values forms trees: what a group holds, none for a value that is no group. -/
structure GroupTree (α : Type) where
  children : α → Option (List α)
  size : α → Nat
  size_pos : ∀ a, 0 < size a
  size_children : ∀ a bs, children a = some bs → total size bs < size a

namespace GroupTree

variable {α : Type} (t : GroupTree α)

/-- The values still to be looked at, each with the number of groups around it. -/
abbrev Work (α : Type) := List (α × Nat)

def workSize (work : Work α) : Nat := total (fun w => t.size w.1) work

/-- The work gets smaller when a value is done with. -/
theorem workSize_rest (a : α) (depth : Nat) (rest : Work α) :
    t.workSize rest < t.workSize ((a, depth) :: rest) := by
  have := t.size_pos a
  simp only [workSize, total]
  omega

/-- The work gets smaller when what a group holds takes its place. -/
theorem workSize_children {a : α} {bs : List α} (h : t.children a = some bs) (depth : Nat) (rest : Work α) :
    t.workSize (bs.map (·, depth + 1) ++ rest) < t.workSize ((a, depth) :: rest) := by
  have : total (fun b => t.size b) bs < t.size a := t.size_children a bs h
  simp only [workSize, total_append, total_map, total]
  omega

theorem workSize_children_reverse {a : α} {bs : List α} (h : t.children a = some bs) (depth : Nat)
    (rest : Work α) :
    t.workSize ((bs.map (·, depth + 1)).reverse ++ rest) < t.workSize ((a, depth) :: rest) := by
  have := t.workSize_children h depth rest
  simp only [workSize, total_append, total_reverse] at this ⊢
  exact this

/-- No value still to be looked at makes more than `limit` groups stand around one another. -/
def withinLimit (limit : Nat) (work : Work α) : Bool :=
  match work with
  | [] => true
  | (a, depth) :: rest =>
    match h : t.children a with
    | none =>
      have := t.workSize_rest a depth rest
      withinLimit limit rest
    | some bs =>
      have := t.workSize_children h depth rest
      if limit < depth + 1 then false else withinLimit limit (bs.map (·, depth + 1) ++ rest)
termination_by t.workSize work

end GroupTree

end Fabric

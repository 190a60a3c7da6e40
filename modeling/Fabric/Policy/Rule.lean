import Fabric.Policy.GroupTree
import Fabric.Policy.Principal

/-!
Policies: a list of principals and a tree of rules that refer to them by index. A policy is valid if
every index has its principal, every group holds a rule and asks for at least one and at most all of
them, and groups are not nested too deep.
-/
namespace Fabric

inductive Rule
  /-- The principal with this index has signed. -/
  | signedBy (index : UInt32)
  /-- At least `n` of the rules are satisfied. -/
  | nOutOf (n : UInt32) (rules : List Rule)
deriving Repr, Inhabited

namespace Rule

mutual
def decEq (a b : Rule) : Decidable (a = b) :=
  match a, b with
  | .signedBy i, .signedBy j =>
    if h : i = j then isTrue (by rw [h]) else isFalse (by intro e; exact h (signedBy.inj e))
  | .nOutOf n rs, .nOutOf m ss =>
    if h : n = m then
      match decEqList rs ss with
      | isTrue e => isTrue (by rw [h, e])
      | isFalse e => isFalse (by intro x; exact e (nOutOf.inj x).2)
    else isFalse (by intro e; exact h (nOutOf.inj e).1)
  | .signedBy _, .nOutOf _ _ => isFalse (by intro e; cases e)
  | .nOutOf _ _, .signedBy _ => isFalse (by intro e; cases e)
def decEqList (rs ss : List Rule) : Decidable (rs = ss) :=
  match rs, ss with
  | [], [] => isTrue rfl
  | r :: rs, s :: ss =>
    match decEq r s, decEqList rs ss with
    | isTrue e, isTrue f => isTrue (by rw [e, f])
    | isFalse e, _ => isFalse (by intro x; exact e (List.cons.inj x).1)
    | _, isFalse f => isFalse (by intro x; exact f (List.cons.inj x).2)
  | [], _ :: _ => isFalse (by intro e; cases e)
  | _ :: _, [] => isFalse (by intro e; cases e)
end

instance : DecidableEq Rule := decEq

mutual
/-- The number of rules in a tree. -/
def size : Rule → Nat
  | .signedBy _ => 1
  | .nOutOf _ rules => sizeList rules + 1
def sizeList : List Rule → Nat
  | [] => 0
  | r :: rest => size r + sizeList rest
end

theorem sizeList_eq (rules : List Rule) : sizeList rules = total size rules := by
  induction rules with
  | nil => rfl
  | cons r rest ih => simp only [sizeList, total, ih]

def children : Rule → Option (List Rule)
  | .signedBy _ => none
  | .nOutOf _ rules => some rules

def groups : GroupTree Rule where
  children := children
  size := size
  size_pos r := by cases r <;> simp [size]
  size_children r rules h := by
    cases r with
    | signedBy => simp [children] at h
    | nOutOf n rs =>
      simp only [children, Option.some.injEq] at h
      subst h
      simp [size, sizeList_eq]

mutual
/-- How many groups stand around one another at most. -/
def nesting : Rule → Nat
  | .signedBy _ => 0
  | .nOutOf _ rules => nestingList rules + 1
def nestingList : List Rule → Nat
  | [] => 0
  | r :: rest => max (nesting r) (nestingList rest)
end

/-- The most groups around one another among the rules still to be looked at and the deepest so far. -/
def deepest (found : Nat) (work : GroupTree.Work Rule) : Nat :=
  match work with
  | [] => found
  | (.signedBy i, depth) :: rest =>
    have := groups.workSize_rest (.signedBy i) depth rest
    deepest found rest
  | (.nOutOf n rules, depth) :: rest =>
    have := groups.workSize_children (a := .nOutOf n rules) rfl depth rest
    deepest (max found (depth + 1)) (rules.map (·, depth + 1) ++ rest)
termination_by groups.workSize work

def depth (r : Rule) : Nat := deepest 0 [(r, 0)]

end Rule

structure Policy where
  version : Int32
  identities : List Principal
  rule : Rule
deriving DecidableEq, Repr

namespace Policy

/-- Groups may not be nested deeper than this, in any notation. -/
def maxDepth : Nat := 1000

/-- Looks at rules until one breaks the policy. Of the rules of a group the last is looked at first. -/
def checkRules (identities : Nat) (work : GroupTree.Work Rule) : Except PolicyError Unit :=
  match work with
  | [] => .ok ()
  | (.signedBy i, depth) :: rest =>
    have := Rule.groups.workSize_rest (.signedBy i) depth rest
    if identities ≤ i.toNat then .error (.signedByOutOfRange i identities) else checkRules identities rest
  | (.nOutOf n rules, depth) :: rest =>
    have := Rule.groups.workSize_children_reverse (a := .nOutOf n rules) rfl depth rest
    if maxDepth < depth + 1 then .error (.tooDeep maxDepth)
    else if rules.isEmpty then .error .emptyRuleSet
    else if n = 0 ∨ rules.length < n.toNat then .error (.outOfRange n rules.length)
    -- later rules go in front, as they are looked at first
    else checkRules identities ((rules.map (·, depth + 1)).reverse ++ rest)
termination_by Rule.groups.workSize work

def validate (p : Policy) : Except PolicyError Unit := checkRules p.identities.length [(p.rule, 0)]

/-- The policy itself, if it is valid. -/
def validated (p : Policy) : Except PolicyError Policy := do
  p.validate
  return p

/-- The principal that an index refers to. -/
def principal (p : Policy) (index : UInt32) : Except PolicyError Principal :=
  match p.identities[index.toNat]? with
  | some x => .ok x
  | none => .error (.signedByOutOfRange index p.identities.length)

end Policy

end Fabric

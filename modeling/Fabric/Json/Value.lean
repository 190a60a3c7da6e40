import Fabric.Json.Number
import Fabric.Keyed
import Fabric.Total

namespace Fabric

inductive Json
  | null
  | bool (b : Bool)
  | number (n : Json.Number)
  | string (s : String)
  | array (items : List Json)
  | object (members : List (String × Json))
deriving Repr, Inhabited

namespace Json

def ofInt (n : Int) : Json := .number (.int n)

def ofNat (n : Nat) : Json := .number (.int n)

def ofMembers (members : List (String × Json)) : Json := .object (Keyed.ofList members)

mutual
/-- The value with the members of every object in order of their keys. -/
def sorted : Json → Json
  | .array items => .array (sortedItems items)
  | .object members => ofMembers (sortedMembers members)
  | v => v
def sortedItems : List Json → List Json
  | [] => []
  | v :: rest => sorted v :: sortedItems rest
def sortedMembers : List (String × Json) → List (String × Json)
  | [] => []
  | (k, v) :: rest => (k, sorted v) :: sortedMembers rest
end

mutual
/-- How many arrays and objects stand around one another at most. -/
def nesting : Json → Nat
  | .array items => nestingOfItems items + 1
  | .object members => nestingOfMembers members + 1
  | _ => 0
def nestingOfItems : List Json → Nat
  | [] => 0
  | v :: rest => max (nesting v) (nestingOfItems rest)
def nestingOfMembers : List (String × Json) → Nat
  | [] => 0
  | (_, v) :: rest => max (nesting v) (nestingOfMembers rest)
end

mutual
/-- The number of values in a value, itself included. -/
def size : Json → Nat
  | .array items => sizeOfItems items + 1
  | .object members => sizeOfMembers members + 1
  | _ => 1
def sizeOfItems : List Json → Nat
  | [] => 0
  | v :: rest => size v + sizeOfItems rest
def sizeOfMembers : List (String × Json) → Nat
  | [] => 0
  | (_, v) :: rest => size v + sizeOfMembers rest
end

theorem size_pos (v : Json) : 0 < v.size := by cases v <;> simp [size]

theorem sizeOfItems_eq (items : List Json) : sizeOfItems items = total size items := by
  induction items with
  | nil => rfl
  | cons v rest ih => simp only [sizeOfItems, total, ih]

/-- The value of the first member with this key. -/
def lookup (key : String) : List (String × Json) → Option Json
  | [] => none
  | (k, v) :: rest => if k = key then some v else lookup key rest

theorem size_lookup {key : String} {members : List (String × Json)} {v : Json}
    (h : lookup key members = some v) : v.size ≤ sizeOfMembers members := by
  induction members with
  | nil => simp [lookup] at h
  | cons m rest ih =>
    simp only [lookup] at h
    simp only [sizeOfMembers]
    split at h
    · simp_all
    · have := ih h
      omega

/-- The value under the first of the keys that has one. -/
def lookupAny (keys : List String) (members : List (String × Json)) : Option Json :=
  keys.findSome? fun key => lookup key members

theorem size_lookupAny {keys : List String} {members : List (String × Json)} {v : Json}
    (h : lookupAny keys members = some v) : v.size ≤ sizeOfMembers members := by
  obtain ⟨key, _, hk⟩ := List.exists_of_findSome?_eq_some h
  exact size_lookup hk

def members? : Json → Option (List (String × Json))
  | .object members => some members
  | _ => none

def items? : Json → Option (List Json)
  | .array items => some items
  | _ => none

def string? : Json → Option String
  | .string s => some s
  | _ => none

def int? : Json → Option Int
  | .number (.int n) => some n
  | _ => none

end Json

end Fabric

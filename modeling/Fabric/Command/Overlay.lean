import Fabric.Json.Value
import Fabric.Text.Digits
import Fabric.Word

/-!
The values of a configuration file laid over others. A key of the file is a path into the sections:
names with dots between them, and the indices of items in brackets. What a path meets on its way is
replaced by an object or an array if it is none, so laying a value over another always succeeds.
-/
namespace Fabric.Overlay

/-- A step from a value to a part of it. -/
inductive Step
  | key (name : String)
  | index (i : Int)
deriving DecidableEq, Repr

/-- Keys are compared in lower case. The Kelvin sign is a capital k. -/
def lowerKey (key : String) : String := key.map fun c => if c = '\u212a' then 'k' else c.toLower

def isPathChar (c : Char) : Bool := c.isAlphanum || c = '_' || c = '-' || c = ' '

def isSpace (c : Char) : Bool := c = ' ' || c = '\t'

/-- The number in brackets, which may have spaces around it and a minus sign. -/
def index? (cs : List Char) : Option Int :=
  let number : Option Int :=
    match ((cs.dropWhile isSpace).reverse.dropWhile isSpace).reverse with
    | '-' :: digits => (Text.nat? digits).map fun n => -(n : Int)
    | digits => (Text.nat? digits).map Int.ofNat
  (number.bind Word.int64?).map Int64.toInt

def isInside (c : Char) : Bool := c != ']'

theorem length_dropWhile_le (p : Char → Bool) (cs : List Char) : (cs.dropWhile p).length ≤ cs.length :=
  (List.dropWhile_sublist p).length_le

/-- The steps of a path whose names stand after dots, as its first one does. -/
def steps? : List Char → Option (List Step)
  | [] => some []
  | '.' :: rest =>
    let name := rest.takeWhile isPathChar
    if name.isEmpty then none
    else (steps? (rest.dropWhile isPathChar)).map (.key (lowerKey (String.ofList name)) :: ·)
  | '[' :: rest =>
    if rest.all isInside then none
    else
      -- the bracket that closes is passed over
      match index? (rest.takeWhile isInside), steps? ((rest.dropWhile isInside).drop 1) with
      | some i, some steps => some (.index i :: steps)
      | _, _ => none
  | _ => none
termination_by cs => cs.length
decreasing_by
  · have := length_dropWhile_le isPathChar rest
    simp only [List.length_cons]
    omega
  · have := length_dropWhile_le isInside rest
    simp only [List.length_cons, List.length_drop]
    omega

/-- The path that a key stands for; a key that has not the form of one is a name. -/
def path (key : String) : List Step := (steps? ('.' :: key.toList)).getD [.key (lowerKey key)]

/-- Puts a member into an object, in place of one with the same key. -/
def setMember (key : String) (v : Json) : List (String × Json) → List (String × Json)
  | [] => [(key, v)]
  | (k, old) :: rest => if k = key then (key, v) :: rest else (k, old) :: setMember key v rest

def membersOf : Option Json → List (String × Json)
  | some (.object members) => members
  | _ => []

def itemsOf : Option Json → List Json
  | some (.array items) => items
  | _ => []

mutual
/-- A value laid over another: objects are merged, and an object without members changes nothing. -/
def overlay (base : Option Json) : Json → Json
  | .object [] => base.getD (.object [])
  | .object (m :: members) => .object (overlayMembers (membersOf base) (m :: members))
  | v => v
def overlayMembers (base : List (String × Json)) : List (String × Json) → List (String × Json)
  | [] => base
  | (key, v) :: rest =>
    let key := lowerKey key
    overlayMembers (setMember key (overlay (Json.lookup key base) v) base) rest
end

/-- Changes the item at an index, which counts from the end if it is negative. Nulls make up for the
items that are missing, at the end or at the beginning. -/
def changeItem (i : Int) (f : Option Json → Json) (items : List Json) : List Json :=
  if -(items.length : Int) ≤ i then
    let n := (if i < 0 then i + items.length else i).toNat
    let items := items ++ List.replicate (n + 1 - items.length) .null
    items.set n (f items[n]?)
  else
    f (some .null) :: List.replicate ((-i).toNat - items.length - 1) .null ++ items

/-- Lays a value over what stands at the end of a path. An item is replaced as a whole. -/
def lay (v : Json) : List Step → Option Json → Json
  | [], _ => v
  | [.key name], base =>
    .object (setMember name (overlay (Json.lookup name (membersOf base)) v) (membersOf base))
  | .key name :: step :: rest, base =>
    .object (setMember name (lay v (step :: rest) (Json.lookup name (membersOf base))) (membersOf base))
  | .index i :: rest, base => .array (changeItem i (lay v rest) (itemsOf base))

/-- The members of a file laid over a value, one after the other. -/
def layMembers (members : List (String × Json)) (base : Json) : Json :=
  members.foldl (fun base m => lay m.2 (path m.1) (some base)) base

end Fabric.Overlay

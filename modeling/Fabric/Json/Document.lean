import Fabric.Json.Token
import Fabric.Json.Value

/-!
JSON documents as written: numbers as literals, members in their order, repeated keys kept. A document
is read from tokens by a machine whose open arrays and objects are a list of frames, so that the
number of them is its length. What a document denotes is a JSON value, unless a number in it is too
large or a string holds half of a surrogate pair.
-/
namespace Fabric.Json

inductive Document
  | null
  | bool (b : Bool)
  | number (l : Literal)
  | string (s : Option String)
  | array (items : List Document)
  | object (members : List (Option String × Document))
deriving Repr, Inhabited

/-- An open array or object with what has been read of it, the last item first. An object also holds
the key whose value comes next. -/
inductive Frame
  | array (items : List Document)
  | object (members : List (Option String × Document)) (key : Option String)

/-- What may come next. -/
inductive Stage
  | value
  | firstItem
  | afterItem
  | firstKey
  | laterKey
  | colon
  | afterMember
  | finished (d : Document)

structure Reader where
  stage : Stage
  frames : List Frame

namespace Reader

def start : Reader := ⟨.value, []⟩

/-- A value is complete: it goes into the innermost open array or object. -/
def supply (d : Document) : List Frame → Reader
  | [] => ⟨.finished d, []⟩
  | .array items :: frames => ⟨.afterItem, .array (d :: items) :: frames⟩
  | .object members key :: frames => ⟨.afterMember, .object ((key, d) :: members) none :: frames⟩

def readValue (frames : List Frame) : Token → Option Reader
  | .openArray => some ⟨.firstItem, .array [] :: frames⟩
  | .openObject => some ⟨.firstKey, .object [] none :: frames⟩
  | .null => some (supply .null frames)
  | .bool b => some (supply (.bool b) frames)
  | .number l => some (supply (.number l) frames)
  | .string s => some (supply (.string s) frames)
  | _ => none

def closeArray : List Frame → Option Reader
  | .array items :: frames => some (supply (.array items.reverse) frames)
  | _ => none

def closeObject : List Frame → Option Reader
  | .object members _ :: frames => some (supply (.object members.reverse) frames)
  | _ => none

def readKey (s : Option String) : List Frame → Option Reader
  | .object members _ :: frames => some ⟨.colon, .object members s :: frames⟩
  | _ => none

def step (r : Reader) (t : Token) : Option Reader :=
  match r.stage, t with
  | .value, t => readValue r.frames t
  -- a comma has to be followed by an item, so an array closes at once or after an item
  | .firstItem, .closeArray => closeArray r.frames
  | .firstItem, t => readValue r.frames t
  | .afterItem, .comma => some ⟨.value, r.frames⟩
  | .afterItem, .closeArray => closeArray r.frames
  | .firstKey, .string s => readKey s r.frames
  | .firstKey, .closeObject => closeObject r.frames
  | .laterKey, .string s => readKey s r.frames
  | .colon, .colon => some ⟨.value, r.frames⟩
  | .afterMember, .comma => some ⟨.laterKey, r.frames⟩
  | .afterMember, .closeObject => closeObject r.frames
  | _, _ => none

def run (r : Reader) (ts : List Token) : Option Reader := ts.foldlM step r

end Reader

namespace Document

def ofTokens? (ts : List Token) : Option Document :=
  match Reader.start.run ts with
  | some ⟨.finished d, _⟩ => some d
  | _ => none

/-- Reads a text that holds one document and nothing else. -/
def read? (s : String) : Option Document := ofTokens? (Token.split s)

mutual
def toJson? : Document → Option Json
  | .null => some .null
  | .bool b => some (.bool b)
  | .number l => l.toNumber?.map .number
  | .string s => s.map .string
  | .array items => (toItems? items).map .array
  | .object members => (toMembers? members).map Json.ofMembers
def toItems? : List Document → Option (List Json)
  | [] => some []
  | d :: rest =>
    match toJson? d, toItems? rest with
    | some v, some vs => some (v :: vs)
    | _, _ => none
def toMembers? : List (Option String × Document) → Option (List (String × Json))
  | [] => some []
  | (key, d) :: rest =>
    match key, toJson? d, toMembers? rest with
    | some k, some v, some vs => some ((k, v) :: vs)
    | _, _, _ => none
end

mutual
/-- No more than `limit` arrays and objects stand around one another. -/
def within (limit : Nat) : Document → Bool
  | .array items => 0 < limit && itemsWithin (limit - 1) items
  | .object members => 0 < limit && membersWithin (limit - 1) members
  | _ => true
def itemsWithin (limit : Nat) : List Document → Bool
  | [] => true
  | d :: rest => within limit d && itemsWithin limit rest
def membersWithin (limit : Nat) : List (Option String × Document) → Bool
  | [] => true
  | (_, d) :: rest => within limit d && membersWithin limit rest
end

end Document

mutual
/-- The document that writes a value out. -/
def toDocument : Json → Document
  | .null => .null
  | .bool b => .bool b
  | .number n => .number n.literal
  | .string s => .string (some s)
  | .array items => .array (toDocuments items)
  | .object members => .object (toDocumentMembers members)
def toDocuments : List Json → List Document
  | [] => []
  | v :: rest => toDocument v :: toDocuments rest
def toDocumentMembers : List (String × Json) → List (Option String × Document)
  | [] => []
  | (k, v) :: rest => (some k, toDocument v) :: toDocumentMembers rest
end

/-- The value that a text denotes, if it is a JSON text. -/
def parse? (s : String) : Option Json := do (← Document.read? s).toJson?

end Fabric.Json

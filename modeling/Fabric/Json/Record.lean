import Fabric.Json.Document

/-!
Records in JSON: an object with named fields, some of them under more than one name, or an array of the
fields in their order. Members that are no fields are passed over; a field may not be given twice.
-/
namespace Fabric.Json

/-- The value of a field among some members; none if it is given more than once. -/
def fieldValue? {α : Type} (names : List String) (members : List (String × α)) : Option (Option α) :=
  match members.filter fun m => names.contains m.1 with
  | [] => some none
  | [m] => some (some m.2)
  | _ => none

/-- The values of all fields, each with its names. -/
def fieldValues? {α : Type} (fields : List (List String)) (members : List (String × α)) :
    Option (List (Option α)) := fields.mapM fun names => fieldValue? names members

/-- The items of an array taken for the fields, as many as there are. -/
def positional? {α : Type} (fields : List (List String)) (items : List α) : Option (List (Option α)) :=
  if items.length ≤ fields.length then
    some (items.map some ++ List.replicate (fields.length - items.length) none)
  else none

def record? (fields : List (List String)) : Json → Option (List (Option Json))
  | .object members => fieldValues? fields members
  | .array items => positional? fields items
  | _ => none

/-- The members of a document whose keys are all texts. -/
def Document.keyed? (members : List (Option String × Document)) : Option (List (String × Document)) :=
  members.mapM fun (key, d) => key.map (·, d)

def Document.record? (fields : List (List String)) : Document → Option (List (Option Document))
  | .object members => do fieldValues? fields (← Document.keyed? members)
  | .array items => positional? fields items
  | _ => none

end Fabric.Json

import Fabric.Json.Value
import Fabric.Text.Quoted

namespace Fabric.Json

mutual
def inspect : Json → String
  | .null => "Null"
  | .bool b => s!"Bool({b})"
  | .number n => s!"Number({n.text})"
  | .string s => s!"String({Text.quoted s})"
  | .array items => "Array [" ++ inspectItems items ++ "]"
  | .object members => "Object \x7b" ++ inspectMembers members ++ "\x7d"
def inspectItems : List Json → String
  | [] => ""
  | [v] => inspect v
  | v :: rest => inspect v ++ ", " ++ inspectItems rest
def inspectMembers : List (String × Json) → String
  | [] => ""
  | [(k, v)] => Text.quoted k ++ ": " ++ inspect v
  | (k, v) :: rest => Text.quoted k ++ ": " ++ inspect v ++ ", " ++ inspectMembers rest
end

def inspect? : Option Json → String
  | none => "None"
  | some v => s!"Some({v.inspect})"

end Fabric.Json

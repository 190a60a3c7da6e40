import Fabric.Json.Value

namespace Fabric.Json

def hexDigit (n : Nat) : Char :=
  if n < 10 then Char.ofNat ('0'.toNat + n) else Char.ofNat ('a'.toNat + (n - 10))

def escaped (c : Char) : List Char :=
  if c = '"' then ['\\', '"']
  else if c = '\\' then ['\\', '\\']
  else if c = '\x08' then ['\\', 'b']
  else if c = '\x0c' then ['\\', 'f']
  else if c = '\n' then ['\\', 'n']
  else if c = '\r' then ['\\', 'r']
  else if c = '\t' then ['\\', 't']
  else if c.toNat < 0x20 then ['\\', 'u', '0', '0', hexDigit (c.toNat / 16), hexDigit (c.toNat % 16)]
  else [c]

def stringOnto (s : String) (rest : List Char) : List Char := '"' :: s.toList.flatMap escaped ++ '"' :: rest

mutual
def compactOnto : Json → List Char → List Char
  | .null, rest => "null".toList ++ rest
  | .bool true, rest => "true".toList ++ rest
  | .bool false, rest => "false".toList ++ rest
  | .number n, rest => n.literal.text ++ rest
  | .string s, rest => stringOnto s rest
  | .array items, rest => '[' :: itemsOnto true items (']' :: rest)
  | .object members, rest => '\x7b' :: membersOnto true members ('\x7d' :: rest)
def itemsOnto (first : Bool) : List Json → List Char → List Char
  | [], rest => rest
  | v :: vs, rest =>
    let rest := compactOnto v (itemsOnto false vs rest)
    if first then rest else ',' :: rest
def membersOnto (first : Bool) : List (String × Json) → List Char → List Char
  | [], rest => rest
  | (k, v) :: ms, rest =>
    let rest := stringOnto k (':' :: compactOnto v (membersOnto false ms rest))
    if first then rest else ',' :: rest
end

def compact (v : Json) : String := String.ofList (compactOnto v [])

/-- A new line with its indentation, two blanks for each level. -/
def newLineOnto (level : Nat) (rest : List Char) : List Char := '\n' :: List.replicate (2 * level) ' ' ++ rest

mutual
def prettyOnto (level : Nat) : Json → List Char → List Char
  | .null, rest => "null".toList ++ rest
  | .bool true, rest => "true".toList ++ rest
  | .bool false, rest => "false".toList ++ rest
  | .number n, rest => n.literal.text ++ rest
  | .string s, rest => stringOnto s rest
  | .array [], rest => '[' :: ']' :: rest
  | .array items, rest => '[' :: prettyItemsOnto (level + 1) true items (newLineOnto level (']' :: rest))
  | .object [], rest => '\x7b' :: '\x7d' :: rest
  | .object members, rest =>
    '\x7b' :: prettyMembersOnto (level + 1) true members (newLineOnto level ('\x7d' :: rest))
def prettyItemsOnto (level : Nat) (first : Bool) : List Json → List Char → List Char
  | [], rest => rest
  | v :: vs, rest =>
    let rest := newLineOnto level (prettyOnto level v (prettyItemsOnto level false vs rest))
    if first then rest else ',' :: rest
def prettyMembersOnto (level : Nat) (first : Bool) : List (String × Json) → List Char → List Char
  | [], rest => rest
  | (k, v) :: ms, rest =>
    let rest := newLineOnto level
      (stringOnto k (':' :: ' ' :: prettyOnto level v (prettyMembersOnto level false ms rest)))
    if first then rest else ',' :: rest
end

def pretty (v : Json) : String := String.ofList (prettyOnto 0 v [])

end Fabric.Json

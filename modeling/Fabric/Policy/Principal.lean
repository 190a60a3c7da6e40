import Fabric.Policy.Error

namespace Fabric

inductive Role
  | member
  | admin
  | client
  | peer
  | orderer
deriving DecidableEq, Repr

namespace Role

def name : Role → String
  | .member => "MEMBER"
  | .admin => "ADMIN"
  | .client => "CLIENT"
  | .peer => "PEER"
  | .orderer => "ORDERER"

/-- The number of the role in messages. -/
def code : Role → Int32
  | .member => 0
  | .admin => 1
  | .client => 2
  | .peer => 3
  | .orderer => 4

def ofCode? (n : Int) : Option Role :=
  if n = 0 then some .member
  else if n = 1 then some .admin
  else if n = 2 then some .client
  else if n = 3 then some .peer
  else if n = 4 then some .orderer
  else none

/-- Reads the name of a role, in any letter case. -/
def parse (s : String) : Except PolicyError Role :=
  match s.toUpper with
  | "MEMBER" => .ok .member
  | "ADMIN" => .ok .admin
  | "CLIENT" => .ok .client
  | "PEER" => .ok .peer
  | "ORDERER" => .ok .orderer
  | _ => .error (.unknownRole s)

end Role

structure Principal where
  mspId : String
  role : Role
deriving DecidableEq, Repr

namespace Principal

/-- The text before the last dot and the text after it, if there is a dot. -/
def splitLastDot? (cs : List Char) : Option (List Char × List Char) :=
  let after := cs.reverse.takeWhile (· != '.')
  match cs.reverse.dropWhile (· != '.') with
  | [] => none
  | _ :: before => some (before.reverse, after.reverse)

def parse (token : String) : Except PolicyError Principal :=
  match splitLastDot? token.toList with
  | none => .error (.invalidPrincipal token)
  | some (mspId, role) =>
    if mspId.isEmpty ∨ role.isEmpty then .error (.invalidPrincipal token)
    else (Role.parse (String.ofList role)).map fun r => ⟨String.ofList mspId, r⟩

def key (p : Principal) : String := p.mspId ++ "." ++ p.role.name

end Principal

end Fabric

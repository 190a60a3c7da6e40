import Fabric.Message.Policy
import Fabric.Text.Blank

namespace Fabric

inductive ImplicitRule
  | any
  | all
  | majority
deriving DecidableEq, Repr

namespace ImplicitRule

def name : ImplicitRule → String
  | .any => "ANY"
  | .all => "ALL"
  | .majority => "MAJORITY"

/-- Reads the name of a rule, in any letter case. -/
def ofName? (s : String) : Option ImplicitRule :=
  match s.toUpper with
  | "ANY" => some .any
  | "ALL" => some .all
  | "MAJORITY" => some .majority
  | _ => none

/-- The number of the rule in messages. -/
def code : ImplicitRule → Int32
  | .any => 0
  | .all => 1
  | .majority => 2

/-- A number that no rule has stands for a majority. -/
def ofCode (n : Int32) : ImplicitRule :=
  if n = 0 then .any else if n = 1 then .all else .majority

end ImplicitRule

structure ImplicitPolicy where
  rule : ImplicitRule
  subPolicy : String
deriving DecidableEq, Repr

namespace ImplicitPolicy

def defaultSubPolicy : String := "Admins"

/-- Reads a rule and a name from the first two words. -/
def parse (s : String) : ImplicitPolicy :=
  match Text.words s with
  | [] => ⟨.majority, defaultSubPolicy⟩
  | [rule] => ⟨(ImplicitRule.ofName? rule).getD .majority, defaultSubPolicy⟩
  | rule :: subPolicy :: _ => ⟨(ImplicitRule.ofName? rule).getD .majority, subPolicy⟩

def text (p : ImplicitPolicy) : String := p.rule.name ++ " " ++ p.subPolicy

def toMessage (p : ImplicitPolicy) : Message.ImplicitMetaPolicy := ⟨p.subPolicy, p.rule.code⟩

def ofMessage (m : Message.ImplicitMetaPolicy) : ImplicitPolicy := ⟨.ofCode m.rule, m.subPolicy⟩

end ImplicitPolicy

end Fabric

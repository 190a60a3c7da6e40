import Fabric.Policy.Compact.Parser
import Fabric.Policy.Envelope
import Fabric.Policy.ImplicitMeta
import Fabric.Policy.Legacy

namespace Fabric

inductive PolicyInput
  | compact (text : String)
  | json (v : Json)
  | canonical (p : Policy)
  | legacy (p : LegacyPolicy)

inductive PolicyKind
  | signature
  | implicitMeta
  | unknown
deriving DecidableEq, Repr

def PolicyKind.name : PolicyKind → String
  | .signature => "Signature"
  | .implicitMeta => "ImplicitMeta"
  | .unknown => "Unknown"

namespace PolicyInput

/-- A JSON string holds the compact notation. -/
def ofJson : Json → PolicyInput
  | .string s => .compact s
  | v => .json v

def parseJson (s : String) : Except PolicyError PolicyInput := (Policy.parseJson s).map ofJson

def toJson : PolicyInput → Json
  | .compact s => .string s
  | .json v => v
  | .canonical p => p.toJson
  | .legacy p => p.toJson

def excerptLength : Nat := 64

/-- The beginning of a text that may be long. -/
def excerpt (s : String) : String :=
  if s.length ≤ excerptLength then s
  else String.ofList (s.toList.take excerptLength ++ "...".toList)

/-- The policy that the input stands for. -/
def normalize : PolicyInput → Except PolicyError Policy
  | .compact s => Compact.parse s
  | .canonical p => p.validated
  | .legacy p => p.toPolicy
  | .json (.string s) => Compact.parse s
  | .json v =>
    -- a value of both shapes counts as canonical
    if Policy.hasShape v then Policy.ofJson v
    else if LegacyPolicy.hasShape v then do (← LegacyPolicy.ofJson v).toPolicy
    else .error (.unknownSyntax (excerpt v.compact))

/-- The letters that the text begins with, after blanks, and what follows them. -/
def leadingWord (s : String) : String × List Char :=
  let cs := Text.trimStart s.toList
  ((String.ofList (cs.takeWhile Char.isAlpha)).toUpper, cs.dropWhile Char.isAlpha)

def opensGroup (cs : List Char) : Bool :=
  match Text.trimStart cs with
  | '(' :: _ => true
  | _ => false

/-- A text is a signature policy if it begins like a group, and an implicit one if it begins with the
name of a rule. -/
def kindOfText (s : String) : PolicyKind :=
  let (word, rest) := leadingWord s
  if ["AND", "OR", "OUTOF"].contains word && opensGroup rest then .signature
  else if ["ANY", "ALL", "MAJORITY"].contains word then .implicitMeta
  else .unknown

def kind : PolicyInput → PolicyKind
  | .compact s => kindOfText s
  | .json v => if Policy.hasShape v || LegacyPolicy.hasShape v then .signature else .unknown
  | .canonical _ => .signature
  | .legacy _ => .signature

/-- The beginning of an input that is refused. -/
def summary : PolicyInput → String
  | .compact s => s
  | .json v => v.compact
  | .canonical _ => "canonical policy"
  | .legacy _ => "legacy policy"

end PolicyInput

/-- A policy of a channel's configuration. -/
inductive PolicySpec
  | signature (p : Policy)
  | implicitMeta (p : ImplicitPolicy)

namespace PolicySpec

def ofInput (input : PolicyInput) : Except PolicyError PolicySpec :=
  match input.kind, input with
  | .implicitMeta, .compact s => .ok (.implicitMeta (.parse s))
  | .signature, input => input.normalize.map .signature
  | _, input => .error (.unknownSyntax (PolicyInput.excerpt input.summary))

/-- The number of the policy's kind in messages. -/
def code : PolicySpec → Int32
  | .signature _ => 1
  | .implicitMeta _ => 3

def toMessage (s : PolicySpec) : Message.ConfigPolicy :=
  match s with
  | .signature p => ⟨s.code, p.encode⟩
  | .implicitMeta p => ⟨s.code, Wire.encode p.toMessage⟩

end PolicySpec

end Fabric

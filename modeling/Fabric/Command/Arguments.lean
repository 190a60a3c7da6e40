namespace Fabric

inductive UsageError
  | noCommand
  | unknownCommand (name : String)
  | unknownOption (word : String)
  | missingValue (name : String)
  | unexpectedValue (name : String)
  | repeated (name : String)
  | missingOption (name : String)
  | missingWord (name : String)
  | extraWord (word : String)
  | conflict (name other : String)
  | notNumber (name value : String)
deriving DecidableEq, Repr

def UsageError.message : UsageError → String
  | .noCommand => "a command is required"
  | .unknownCommand name => s!"unknown command '{name}'"
  | .unknownOption word => s!"unknown option '{word}'"
  | .missingValue name => s!"the option --{name} requires a value"
  | .unexpectedValue name => s!"the option --{name} takes no value"
  | .repeated name => s!"the option --{name} is given more than once"
  | .missingOption name => s!"the option --{name} is required"
  | .missingWord name => s!"the argument <{name}> is required"
  | .extraWord word => s!"unexpected argument '{word}'"
  | .conflict name other => s!"the options --{name} and --{other} exclude each other"
  | .notNumber name value => s!"the value '{value}' of --{name} is not a number"

/-- An option that a command takes. -/
structure OptionSpec where
  name : String
  letter : Option Char := none
  hasValue : Bool := true
deriving DecidableEq, Repr

/-- An option as it stands in a word: its name or letter, and the value behind it. -/
structure Mention where
  name : String ⊕ Char
  value : Option String
deriving DecidableEq, Repr

namespace Mention

def splitValue (cs : List Char) : String × Option String :=
  match cs.dropWhile (· != '=') with
  | [] => (String.ofList cs, none)
  | _ :: value => (String.ofList (cs.takeWhile (· != '=')), some (String.ofList value))

def letterValue : List Char → Option String
  | [] => none
  | '=' :: value => some (String.ofList value)
  | value => some (String.ofList value)

/-- The option in a word that begins with a hyphen and does not end there. -/
def ofWord? (word : String) : Option Mention :=
  match word.toList with
  | '-' :: '-' :: cs =>
    let (name, value) := splitValue cs
    some ⟨.inl name, value⟩
  | '-' :: c :: cs => some ⟨.inr c, letterValue cs⟩
  | _ => none

def isOf (m : Mention) (s : OptionSpec) : Bool :=
  match m.name with
  | .inl name => s.name = name
  | .inr c => s.letter = some c

end Mention

/-- What stands on a command line; an option without a value has an empty one. -/
structure Arguments where
  words : List String := []
  options : List (String × String) := []
deriving DecidableEq, Repr

namespace Arguments

def addWord (word : String) (a : Arguments) : Arguments := { a with words := word :: a.words }

def addOption (name value : String) (a : Arguments) : Arguments := { a with options := (name, value) :: a.options }

/-- Reads words and options, or the options before the first word and all words from there on. -/
def read (specs : List OptionSpec) (leading : Bool) : List String → Except UsageError Arguments
  | [] => .ok {}
  | word :: rest =>
    if word = "--" then .ok { words := rest }
    else
      match Mention.ofWord? word with
      | none => if leading then .ok { words := word :: rest } else (read specs leading rest).map (addWord word)
      | some m =>
        match specs.find? m.isOf with
        | none => .error (.unknownOption word)
        | some s =>
          match s.hasValue, m.value, rest with
          | true, some value, rest => (read specs leading rest).map (addOption s.name value)
          | true, none, value :: rest => (read specs leading rest).map (addOption s.name value)
          | true, none, [] => .error (.missingValue s.name)
          | false, none, rest => (read specs leading rest).map (addOption s.name "")
          | false, some _, _ => .error (.unexpectedValue s.name)
termination_by words => words.length

/-- The values of an option that may be given more than once. -/
def values (a : Arguments) (name : String) : List String := (a.options.filter fun o => o.1 = name).map (·.2)

def flag (a : Arguments) (name : String) : Bool := !(a.values name).isEmpty

def optional (a : Arguments) (name : String) : Except UsageError (Option String) :=
  match a.values name with
  | [] => .ok none
  | [value] => .ok (some value)
  | _ => .error (.repeated name)

def required (a : Arguments) (name : String) : Except UsageError String := do
  match ← a.optional name with
  | some value => return value
  | none => throw (.missingOption name)

/-- The only word. -/
def onlyWord (a : Arguments) (name : String) : Except UsageError String :=
  match a.words with
  | [] => .error (.missingWord name)
  | [word] => .ok word
  | _ :: word :: _ => .error (.extraWord word)

def noWords (a : Arguments) : Except UsageError Unit :=
  match a.words with
  | [] => .ok ()
  | word :: _ => .error (.extraWord word)

end Arguments

end Fabric

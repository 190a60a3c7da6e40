import Fabric.Request.Error

/-!
Checks that go on after the first thing that is wrong. What they find is added to a list; whether anything was found is
asked once, at the end.
-/
namespace Fabric

abbrev Collecting := StateM (List Violation)

namespace Collecting

variable {ε α : Type}

def report (field : String) (reason : Reason) : Collecting Unit := modify (· ++ [⟨field, reason⟩])

/-- What is refused comes to nothing. -/
def refuse (field : String) (reason : Reason) : Collecting (Option α) := do
  report field reason
  return none

/-- What fails is refused for its error. -/
def accept (field : String) (reason : ε → Reason) : Except ε α → Collecting (Option α)
  | .ok a => return some a
  | .error e => refuse field (reason e)

def check (condition : Bool) (field : String) (reason : Reason) : Collecting Unit :=
  if condition then pure () else report field reason

/-- The text is more than blanks. -/
def require (field value : String) : Collecting Unit := check (!Text.isBlankText value) field .required

/-- Whether nothing was found. -/
def conclude : List Violation → Except RequestError Unit
  | [] => .ok ()
  | found => .error (.validation found)

/-- What a computation comes to, if it finds nothing. -/
def finish (x : Collecting α) : Except RequestError α := do
  let (a, found) := x.run []
  conclude found
  return a

/-- What a computation came to, after nothing was found. -/
def expect : Option α → Except RequestError α
  | some a => .ok a
  | none => .error (.validation [])

end Collecting

end Fabric

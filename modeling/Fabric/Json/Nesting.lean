/-!
How deeply the brackets of a text are nested, counted without reading the text as JSON: brackets inside
strings do not count, and a closing bracket too many is passed over.
-/
namespace Fabric.Json

/-- The state of the scan: how many brackets are open, the most that were, and where in a string it is. -/
structure BracketScan where
  depth : Nat
  deepest : Nat
  inString : Bool
  escaped : Bool
deriving DecidableEq, Repr

namespace BracketScan

def start : BracketScan := ⟨0, 0, false, false⟩

def step (s : BracketScan) (c : Char) : BracketScan :=
  if s.inString then
    if s.escaped then { s with escaped := false }
    else if c = '\\' then { s with escaped := true }
    else if c = '"' then { s with inString := false }
    else s
  else if c = '"' then { s with inString := true }
  else if c = '[' ∨ c = '\x7b' then { s with depth := s.depth + 1, deepest := max s.deepest (s.depth + 1) }
  else if c = ']' ∨ c = '\x7d' then { s with depth := s.depth - 1 }
  else s

end BracketScan

def bracketNesting (s : String) : Nat := (s.toList.foldl BracketScan.step .start).deepest

end Fabric.Json

import Fabric.Policy.Error
import Fabric.Text.Blank

/-!
Tokens of the compact notation: words, quoted texts, numbers, parentheses and commas. A word is the
longest run of word characters, and a number is a word of digits only. Either quote opens a text, which
ends at the next quote of that sort; there are no escapes.
-/
namespace Fabric.Compact

inductive Token
  | word (s : String)
  | quoted (s : String)
  | number (s : String)
  | openParen
  | closeParen
  | comma
deriving DecidableEq, Repr

namespace Token

/-- How a token is shown in an error. -/
def describe : Token → String
  | .word s => s
  | .quoted s => s!"'{s}'"
  | .number s => s
  | .openParen => "("
  | .closeParen => ")"
  | .comma => ","

def isWordChar (c : Char) : Bool :=
  c.isAlphanum || c = '_' || c = '-' || c = '.' || c = ':' || c = '/'

def isQuote (c : Char) : Bool := c = '\'' || c = '"'

def ofRun (cs : List Char) : Token :=
  if cs.all Char.isDigit then .number (String.ofList cs) else .word (String.ofList cs)

def ofSymbol? (c : Char) : Option Token :=
  if c = '(' then some .openParen
  else if c = ')' then some .closeParen
  else if c = ',' then some .comma
  else none

/-- Reads the token that starts with `c`, which is not blank, of a text that goes on with `rest`. -/
def read (c : Char) (rest : List Char) : Except PolicyError (Token × List Char) :=
  if isQuote c then
    let text := rest.takeWhile (· != c)
    match rest.dropWhile (· != c) with
    | [] => .error (.unexpectedToken (String.ofList (c :: text)))
    | _ :: rest => .ok (.quoted (String.ofList text), rest)
  else if isWordChar c then .ok (ofRun (c :: rest.takeWhile isWordChar), rest.dropWhile isWordChar)
  else
    match ofSymbol? c with
    | some t => .ok (t, rest)
    | none => .error (.unexpectedToken c.toString)

theorem read_length {c : Char} {rest rest' : List Char} {t : Token} (h : read c rest = .ok (t, rest')) :
    rest'.length ≤ rest.length := by
  unfold read at h
  split at h
  · next =>
    have hle := (List.dropWhile_sublist (· != c) (l := rest)).length_le
    split at h
    · simp at h
    · next hd =>
      simp only [Except.ok.injEq, Prod.mk.injEq] at h
      rw [hd, List.length_cons] at hle
      rw [← h.2]
      omega
  · split at h
    · simp only [Except.ok.injEq, Prod.mk.injEq] at h
      rw [← h.2]
      exact (List.dropWhile_sublist isWordChar).length_le
    · split at h
      · simp only [Except.ok.injEq, Prod.mk.injEq] at h
        exact Nat.le_of_eq (by rw [h.2])
      · simp at h

/-- Splits a text into tokens, in reverse onto `acc`. -/
def splitOnto (acc : List Token) (cs : List Char) : Except PolicyError (List Token) :=
  match h : cs.dropWhile Text.isBlank with
  | [] => .ok acc.reverse
  | c :: rest =>
    match hr : read c rest with
    | .error e => .error e
    | .ok (t, rest') =>
      have : rest'.length < cs.length := by
        have h₁ := read_length hr
        have h₂ := (List.dropWhile_sublist Text.isBlank (l := cs)).length_le
        rw [h, List.length_cons] at h₂
        omega
      splitOnto (t :: acc) rest'
termination_by cs.length

def split (s : String) : Except PolicyError (List Token) := splitOnto [] s.toList

end Token

end Fabric.Compact

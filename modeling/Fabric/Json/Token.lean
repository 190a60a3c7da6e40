import Fabric.Json.Number

/-!
The tokens of a JSON text. Splitting a text never fails: where no token starts, the token `invalid`
ends the list, so that what stands before it is still seen.
-/
namespace Fabric.Json

/-- A string token holds its text, or none if an escape in it is half of a surrogate pair. -/
inductive Token
  | openArray
  | closeArray
  | openObject
  | closeObject
  | comma
  | colon
  | null
  | bool (b : Bool)
  | number (l : Literal)
  | string (s : Option String)
  | invalid
deriving DecidableEq, Repr

namespace Token

def isSpace (c : Char) : Bool := c = ' ' || c = '\n' || c = '\t' || c = '\r'

def hexValue? (c : Char) : Option Nat :=
  if '0' ≤ c ∧ c ≤ '9' then some (c.toNat - '0'.toNat)
  else if 'a' ≤ c ∧ c ≤ 'f' then some (c.toNat - 'a'.toNat + 10)
  else if 'A' ≤ c ∧ c ≤ 'F' then some (c.toNat - 'A'.toNat + 10)
  else none

/-- The number that four hexadecimal digits stand for. -/
def unit? (a b c d : Char) : Option Nat :=
  match hexValue? a, hexValue? b, hexValue? c, hexValue? d with
  | some a, some b, some c, some d => some (a * 4096 + b * 256 + c * 16 + d)
  | _, _, _, _ => none

def isHighSurrogate (n : Nat) : Bool := 0xD800 ≤ n && n ≤ 0xDBFF

def isLowSurrogate (n : Nat) : Bool := 0xDC00 ≤ n && n ≤ 0xDFFF

/-- The character after a backslash, other than `u`. -/
def simpleEscape? (c : Char) : Option Char :=
  match c with
  | '"' => some '"'
  | '\\' => some '\\'
  | '/' => some '/'
  | 'b' => some '\x08'
  | 'f' => some '\x0c'
  | 'n' => some '\n'
  | 'r' => some '\r'
  | 't' => some '\t'
  | _ => none

/-- The character that a pair of surrogates stands for. -/
def ofSurrogates (high low : Nat) : Char := Char.ofNat ((high - 0xD800) * 0x400 + (low - 0xDC00) + 0x10000)

/-- Reads a string from behind its opening quote: its characters in reverse onto `acc`, and the text
behind its closing quote. `high` is the surrogate just read that waits for its other half, and
`paired` says whether no other one stands alone so far. -/
def readString (acc : List Char) (paired : Bool) (high : Option Nat) :
    List Char → Option (Option String × List Char)
  | [] => none
  | '"' :: rest => some (if paired && high.isNone then some (String.ofList acc.reverse) else none, rest)
  | '\\' :: 'u' :: a :: b :: c :: d :: rest =>
    match unit? a b c d with
    | none => none
    | some n =>
      if isHighSurrogate n then readString acc (paired && high.isNone) (some n) rest
      else if isLowSurrogate n then
        match high with
        | some m => readString (ofSurrogates m n :: acc) paired none rest
        | none => readString acc false none rest
      else readString (Char.ofNat n :: acc) (paired && high.isNone) none rest
  | '\\' :: c :: rest =>
    match simpleEscape? c with
    | some e => readString (e :: acc) (paired && high.isNone) none rest
    | none => none
  | c :: rest => if c.toNat < 0x20 then none else readString (c :: acc) (paired && high.isNone) none rest

/-- The digits at the start of a text, at least one. -/
def readDigits (cs : List Char) : Option (List Char × List Char) :=
  let digits := cs.takeWhile Char.isDigit
  if digits.isEmpty then none else some (digits, cs.dropWhile Char.isDigit)

/-- The digits before the point: only zero itself starts with a zero. -/
def readWhole (cs : List Char) : Option (List Char × List Char) :=
  match readDigits cs with
  | some (digits, rest) => if digits.head? = some '0' ∧ digits.length ≠ 1 then none else some (digits, rest)
  | none => none

def readFraction : List Char → Option (Option (List Char) × List Char)
  | '.' :: rest => (readDigits rest).map fun (digits, rest) => (some digits, rest)
  | cs => some (none, cs)

def readExponentDigits (negative : Bool) (cs : List Char) : Option (Option (Bool × List Char) × List Char) :=
  (readDigits cs).map fun (digits, rest) => (some (negative, digits), rest)

def readExponent : List Char → Option (Option (Bool × List Char) × List Char)
  | c :: rest =>
    if c = 'e' ∨ c = 'E' then
      match rest with
      | '+' :: rest => readExponentDigits false rest
      | '-' :: rest => readExponentDigits true rest
      | _ => readExponentDigits false rest
    else some (none, c :: rest)
  | [] => some (none, [])

/-- Reads a number from behind its sign. -/
def readNumber (negative : Bool) (cs : List Char) : Option (Token × List Char) :=
  match readWhole cs with
  | none => none
  | some (whole, rest) =>
    match readFraction rest with
    | none => none
    | some (fraction, rest) =>
      match readExponent rest with
      | none => none
      | some (exponent, rest) => some (.number ⟨negative, whole, fraction, exponent⟩, rest)

/-- Reads the token that starts with the character `c`, of a text that goes on with `rest`. -/
def read (c : Char) (rest : List Char) : Option (Token × List Char) :=
  match c with
  | '[' => some (.openArray, rest)
  | ']' => some (.closeArray, rest)
  | '{' => some (.openObject, rest)
  | '}' => some (.closeObject, rest)
  | ',' => some (.comma, rest)
  | ':' => some (.colon, rest)
  | '"' => (readString [] true none rest).map fun (s, rest) => (.string s, rest)
  | '-' => readNumber true rest
  | 'n' => if "ull".toList.isPrefixOf rest then some (.null, rest.drop 3) else none
  | 't' => if "rue".toList.isPrefixOf rest then some (.bool true, rest.drop 3) else none
  | 'f' => if "alse".toList.isPrefixOf rest then some (.bool false, rest.drop 4) else none
  | _ => readNumber false (c :: rest)

theorem readString_length {acc : List Char} {paired : Bool} {high : Option Nat} {cs : List Char}
    {s : Option String} {rest : List Char} (h : readString acc paired high cs = some (s, rest)) :
    rest.length ≤ cs.length := by
  fun_induction readString acc paired high cs <;> simp_all <;> omega

theorem readDigits_length {cs digits rest : List Char} (h : readDigits cs = some (digits, rest)) :
    rest.length < cs.length := by
  simp only [readDigits] at h
  split at h
  · simp at h
  · next hne =>
    have hlen := congrArg List.length (List.takeWhile_append_dropWhile (p := Char.isDigit) (l := cs))
    simp only [Option.some.injEq, Prod.mk.injEq] at h
    have hpos : 0 < (cs.takeWhile Char.isDigit).length := by
      rw [List.length_pos_iff]
      simpa using hne
    rw [List.length_append] at hlen
    rw [← h.2]
    omega

theorem readWhole_length {cs digits rest : List Char} (h : readWhole cs = some (digits, rest)) :
    rest.length < cs.length := by
  simp only [readWhole] at h
  split at h
  · next hd =>
    split at h
    · simp at h
    · simp only [Option.some.injEq, Prod.mk.injEq] at h
      rw [← h.2]
      exact readDigits_length hd
  · simp at h

theorem readFraction_length {cs rest : List Char} {f : Option (List Char)}
    (h : readFraction cs = some (f, rest)) : rest.length ≤ cs.length := by
  unfold readFraction at h
  split at h
  · simp only [Option.map_eq_some_iff, Prod.mk.injEq, Prod.exists] at h
    obtain ⟨_, _, hd, _, rfl⟩ := h
    have := readDigits_length hd
    simp only [List.length_cons]
    omega
  · simp_all

theorem readExponentDigits_length {negative : Bool} {cs rest : List Char}
    {e : Option (Bool × List Char)} (h : readExponentDigits negative cs = some (e, rest)) :
    rest.length < cs.length := by
  simp only [readExponentDigits, Option.map_eq_some_iff, Prod.mk.injEq, Prod.exists] at h
  obtain ⟨_, _, hd, _, rfl⟩ := h
  exact readDigits_length hd

theorem readExponent_length {cs rest : List Char} {e : Option (Bool × List Char)}
    (h : readExponent cs = some (e, rest)) : rest.length ≤ cs.length := by
  unfold readExponent at h
  split at h
  · split at h
    · split at h <;> have := readExponentDigits_length h <;> simp only [List.length_cons] at * <;> omega
    · simp_all
  · simp_all

theorem readNumber_length {negative : Bool} {cs rest : List Char} {t : Token}
    (h : readNumber negative cs = some (t, rest)) : rest.length < cs.length := by
  unfold readNumber at h
  split at h
  · simp at h
  · next hw =>
    split at h
    · simp at h
    · next hf =>
      split at h
      · simp at h
      · next he =>
        have := readWhole_length hw
        have := readFraction_length hf
        have := readExponent_length he
        simp only [Option.some.injEq, Prod.mk.injEq] at h
        rw [← h.2]
        omega

/-- A token takes at least its first character. -/
theorem read_length {c : Char} {rest rest' : List Char} {t : Token}
    (h : read c rest = some (t, rest')) : rest'.length ≤ rest.length := by
  unfold read at h
  split at h
  case h_7 =>
    simp only [Option.map_eq_some_iff, Prod.mk.injEq, Prod.exists] at h
    obtain ⟨_, _, hs, _, rfl⟩ := h
    exact readString_length hs
  case h_8 => exact Nat.le_of_lt (readNumber_length h)
  case h_12 =>
    have := readNumber_length h
    simp only [List.length_cons] at this
    omega
  all_goals first
    | (split at h <;> simp_all <;> rw [← h.2] <;> simp)
    | simp_all

/-- Splits a text into tokens, in reverse onto `acc`. -/
def splitOnto (acc : List Token) (cs : List Char) : List Token :=
  match h : cs.dropWhile isSpace with
  | [] => acc.reverse
  | c :: rest =>
    match hr : read c rest with
    | none => (invalid :: acc).reverse
    | some (t, rest') =>
      have : rest'.length < cs.length := by
        have h₁ := read_length hr
        have h₂ := (List.dropWhile_sublist isSpace (l := cs)).length_le
        rw [h, List.length_cons] at h₂
        omega
      splitOnto (t :: acc) rest'
termination_by cs.length

def split (s : String) : List Token := splitOnto [] s.toList

end Token

end Fabric.Json

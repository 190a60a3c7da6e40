import Fabric.Json.Nesting
import Fabric.Proofs.Json.Lexing
import Fabric.Proofs.Traverse

namespace Fabric.Json

def scanOutside (depth deepest : Nat) (cs : List Char) : BracketScan :=
  cs.foldl BracketScan.step ⟨depth, deepest, false, false⟩

def scanInside (depth deepest : Nat) (cs : List Char) : BracketScan :=
  cs.foldl BracketScan.step ⟨depth, deepest, true, false⟩

section Characters

variable {depth deepest : Nat} {cs rest : List Char}

/-- Characters that are no brackets and no quotes leave the scan as it was. -/
theorem scanOutside_plain {cs : List Char} (h : ∀ c ∈ cs, c ∉ ['"', '[', ']', '\x7b', '\x7d']) :
    scanOutside depth deepest (cs ++ rest) = scanOutside depth deepest rest := by
  induction cs with
  | nil => rfl
  | cons c cs ih =>
    rw [List.forall_mem_cons] at h
    have hstep : BracketScan.step ⟨depth, deepest, false, false⟩ c = ⟨depth, deepest, false, false⟩ := by
      have hc := h.1
      simp only [List.mem_cons, List.not_mem_nil, or_false, not_or] at hc
      simp [BracketScan.step, hc]
    rw [List.cons_append, scanOutside, List.foldl_cons, hstep]
    exact ih h.2

theorem plain_of_isDigit {c : Char} (h : c.isDigit = true) : c ∉ ['"', '[', ']', '\x7b', '\x7d'] := by
  intro hmem
  simp only [List.mem_cons, List.not_mem_nil, or_false] at hmem
  rcases hmem with rfl | rfl | rfl | rfl | rfl <;> cases h

theorem ne_of_hexValue? {c : Char} {n : Nat} (h : Token.hexValue? c = some n) : c ≠ '"' ∧ c ≠ '\\' := by
  constructor
  · rintro rfl
    cases h
  · rintro rfl
    cases h

/-- The four digits of an escape are no quotes and no backslashes. -/
theorem scanInside_unit {a b c d : Char} {n : Nat} (h : Token.unit? a b c d = some n) :
    scanInside depth deepest ('\\' :: 'u' :: a :: b :: c :: d :: rest) = scanInside depth deepest rest := by
  unfold Token.unit? at h
  split at h
  · next ha hb hc hd =>
    simp [scanInside, BracketScan.step, ne_of_hexValue? ha, ne_of_hexValue? hb, ne_of_hexValue? hc,
      ne_of_hexValue? hd]
  · cases h

/-- The scan leaves a string where the reader does. -/
theorem scanInside_readString {acc : List Char} {paired : Bool} {high : Option Nat} {s : Option String}
    (h : Token.readString acc paired high cs = some (s, rest)) :
    scanInside depth deepest cs = scanOutside depth deepest rest := by
  fun_induction Token.readString acc paired high cs with
  | case2 =>
    cases h
    rfl
  | case4 _ _ _ _ _ _ _ _ _ hunit _ ih | case5 _ _ _ _ _ _ _ _ hunit _ _ _ ih
  | case6 _ _ _ _ _ _ _ _ hunit _ _ ih | case7 _ _ _ _ _ _ _ _ _ hunit _ _ ih =>
    rw [scanInside_unit hunit]
    exact ih h
  | case8 _ _ _ c tail _ _ _ ih => exact ih h
  | case11 acc paired high c tail hquote _ hslash _ ih =>
    have hc : c ≠ '\\' := by
      rintro rfl
      cases tail with
      | nil => cases h
      | cons d tail => exact hslash d tail rfl rfl
    have hstep : scanInside depth deepest (c :: tail) = scanInside depth deepest tail := by
      simp [scanInside, BracketScan.step, hc, show c ≠ '"' from hquote]
    rw [hstep]
    exact ih h
  | _ => cases h

theorem scanOutside_digits (cs : List Char) :
    scanOutside depth deepest cs = scanOutside depth deepest (cs.dropWhile Char.isDigit) := by
  have hplain : ∀ c ∈ cs.takeWhile Char.isDigit, c ∉ ['"', '[', ']', '\x7b', '\x7d'] := by
    intro c hc
    exact plain_of_isDigit ((span_ends Char.isDigit cs).1 c hc)
  calc
    scanOutside depth deepest cs =
        scanOutside depth deepest (cs.takeWhile Char.isDigit ++ cs.dropWhile Char.isDigit) := by
      rw [List.takeWhile_append_dropWhile]
    _ = scanOutside depth deepest (cs.dropWhile Char.isDigit) := scanOutside_plain hplain

theorem scanOutside_readDigits {digits : List Char} (h : Token.readDigits cs = some (digits, rest)) :
    scanOutside depth deepest cs = scanOutside depth deepest rest := by
  rw [Token.readDigits] at h
  split at h
  · cases h
  · cases h
    exact scanOutside_digits cs

theorem scanOutside_readWhole {digits : List Char} (h : Token.readWhole cs = some (digits, rest)) :
    scanOutside depth deepest cs = scanOutside depth deepest rest := by
  rw [Token.readWhole] at h
  split at h
  · next hdigits =>
    split at h
    · cases h
    · cases h
      exact scanOutside_readDigits hdigits
  · cases h

theorem scanOutside_readFraction {f : Option (List Char)} (h : Token.readFraction cs = some (f, rest)) :
    scanOutside depth deepest cs = scanOutside depth deepest rest := by
  unfold Token.readFraction at h
  split at h
  · next tail =>
    obtain ⟨r, hdigits, hr⟩ := Option.map_eq_some_iff.1 h
    cases hr
    -- the point leaves the scan as it was
    exact (scanOutside_readDigits hdigits : scanOutside depth deepest tail = _)
  · cases h
    rfl

theorem scanOutside_readExponentDigits {negative : Bool} {e : Option (Bool × List Char)}
    (h : Token.readExponentDigits negative cs = some (e, rest)) :
    scanOutside depth deepest cs = scanOutside depth deepest rest := by
  obtain ⟨r, hdigits, hr⟩ := Option.map_eq_some_iff.1 h
  cases hr
  exact scanOutside_readDigits hdigits

/-- An exponent leaves the count of the brackets as it was. -/
theorem scanOutside_readExponent {e : Option (Bool × List Char)} (h : Token.readExponent cs = some (e, rest)) :
    scanOutside depth deepest cs = scanOutside depth deepest rest := by
  unfold Token.readExponent at h
  split at h
  · next c tail =>
    split at h
    · next hc =>
      have hmark : scanOutside depth deepest (c :: tail) = scanOutside depth deepest tail := by
        rcases hc with rfl | rfl <;> rfl
      rw [hmark]
      -- a sign leaves the scan as it was, too
      split at h
      · next tail =>
        exact (scanOutside_readExponentDigits h : scanOutside depth deepest tail = _)
      · next tail =>
        exact (scanOutside_readExponentDigits h : scanOutside depth deepest tail = _)
      · exact scanOutside_readExponentDigits h
    · cases h
      rfl
  · cases h
    rfl

theorem scanOutside_readNumber {negative : Bool} {t : Token} (h : Token.readNumber negative cs = some (t, rest)) :
    (∃ l, t = .number l) ∧ scanOutside depth deepest cs = scanOutside depth deepest rest := by
  rw [Token.readNumber] at h
  split at h
  · cases h
  · next hwhole =>
    split at h
    · cases h
    · next hfraction =>
      split at h
      · cases h
      · next hexponent =>
        cases h
        refine ⟨⟨_, rfl⟩, ?_⟩
        rw [scanOutside_readWhole hwhole, scanOutside_readFraction hfraction, scanOutside_readExponent hexponent]

theorem scanOutside_literal {word : List Char} {k : Nat} (hword : word.isPrefixOf rest = true)
    (hlen : word.length = k) (hplain : ∀ c ∈ word, c ∉ ['"', '[', ']', '\x7b', '\x7d']) :
    scanOutside depth deepest rest = scanOutside depth deepest (rest.drop k) := by
  obtain ⟨tail, rfl⟩ := List.isPrefixOf_iff_prefix.1 hword
  rw [scanOutside_plain hplain, ← hlen, List.drop_left]

end Characters

def BracketScan.token (s : BracketScan) : Token → BracketScan
  | .openArray | .openObject => { s with depth := s.depth + 1, deepest := max s.deepest (s.depth + 1) }
  | .closeArray | .closeObject => { s with depth := s.depth - 1 }
  | _ => s

abbrev outside (depth deepest : Nat) : BracketScan := ⟨depth, deepest, false, false⟩

theorem exists_token_outside (depth deepest : Nat) (t : Token) :
    ∃ depth' deepest', (outside depth deepest).token t = outside depth' deepest' := by
  cases t <;> exact ⟨_, _, rfl⟩

section Tokens

variable {depth deepest : Nat}

/-- The characters of a token do to the scan what the token does. -/
theorem scanOutside_read {c : Char} {cs rest : List Char} {t : Token} (h : Token.read c cs = some (t, rest)) :
    scanOutside depth deepest (c :: cs) = rest.foldl BracketScan.step ((outside depth deepest).token t) := by
  unfold Token.read at h
  split at h
  case h_7 =>
    obtain ⟨r, hstring, hr⟩ := Option.map_eq_some_iff.1 h
    cases hr
    exact scanInside_readString hstring
  case h_8 =>
    obtain ⟨⟨l, rfl⟩, hscan⟩ := scanOutside_readNumber h
    exact hscan
  case h_9 | h_10 | h_11 =>
    split at h
    · next hword =>
      cases h
      exact scanOutside_literal hword rfl (by simp)
    · cases h
  case h_12 =>
    obtain ⟨⟨l, rfl⟩, hscan⟩ := scanOutside_readNumber h
    exact hscan
  all_goals
    cases h
    rfl

theorem scanOutside_spaces (cs : List Char) :
    scanOutside depth deepest cs = scanOutside depth deepest (cs.dropWhile Token.isSpace) := by
  have hplain : ∀ c ∈ cs.takeWhile Token.isSpace, c ∉ ['"', '[', ']', '\x7b', '\x7d'] := by
    intro c hc hmem
    have hspace := (span_ends Token.isSpace cs).1 c hc
    simp only [List.mem_cons, List.not_mem_nil, or_false] at hmem
    rcases hmem with rfl | rfl | rfl | rfl | rfl <;> cases hspace
  calc
    scanOutside depth deepest cs =
        scanOutside depth deepest (cs.takeWhile Token.isSpace ++ cs.dropWhile Token.isSpace) := by
      rw [List.takeWhile_append_dropWhile]
    _ = scanOutside depth deepest (cs.dropWhile Token.isSpace) := scanOutside_plain hplain

/-- The scan of a text is that of its tokens, up to where no token starts. -/
theorem exists_scanOutside_eq (depth deepest : Nat) (cs : List Char) :
    ∃ rest, (rest = [] ∨ .invalid ∈ Token.splitOnto [] cs) ∧ scanOutside depth deepest cs =
      rest.foldl BracketScan.step ((Token.splitOnto [] cs).foldl BracketScan.token (outside depth deepest)) := by
  induction hn : cs.length using Nat.strongRecOn generalizing cs depth deepest with
  | ind n ih =>
    -- a token takes at least one character away, and the text ends or goes wrong behind the last
    have hlen := (List.dropWhile_sublist Token.isSpace (l := cs)).length_le
    rw [scanOutside_spaces, splitOnto_eq]
    cases hcs : cs.dropWhile Token.isSpace with
    | nil => exact ⟨[], .inl rfl, rfl⟩
    | cons c tail =>
      rw [hcs, List.length_cons] at hlen
      cases hread : Token.read c tail with
      | none =>
        simp only [hread]
        exact ⟨c :: tail, .inr (by simp), rfl⟩
      | some r =>
        obtain ⟨t, rest⟩ := r
        have hle := Token.read_length hread
        have hsplit : Token.splitOnto [t] rest = t :: Token.splitOnto [] rest := splitOnto_eq_append [t] rest
        obtain ⟨depth', deepest', ht⟩ := exists_token_outside depth deepest t
        obtain ⟨rest', hrest, hscan⟩ := ih rest.length (by omega) depth' deepest' rest rfl
        simp only [hread]
        rw [hsplit, List.foldl_cons, scanOutside_read hread, ht]
        exact ⟨rest', hrest.imp id (List.mem_cons_of_mem _), hscan⟩

end Tokens

end Fabric.Json

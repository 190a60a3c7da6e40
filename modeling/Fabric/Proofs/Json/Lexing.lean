import Fabric.Json.Printer
import Fabric.Json.Token
import Fabric.Proofs.Traverse

namespace Fabric.Json

open Token

theorem hexValue?_hexDigit {n : Nat} (h : n < 16) : hexValue? (hexDigit n) = some n := by
  have hall : ∀ n < 16, hexValue? (hexDigit n) = some n := by decide
  exact hall n h

/-- A control character is read from the escape of its number. -/
theorem unit?_control {n : Nat} (h : n < 0x20) : unit? '0' '0' (hexDigit (n / 16)) (hexDigit (n % 16)) = some n := by
  have hzero : hexValue? '0' = some 0 := rfl
  rw [unit?, hzero, hexValue?_hexDigit (by omega), hexValue?_hexDigit (by omega)]
  simp only [Option.some.injEq]
  omega

/-- An escaped character is read as the character. -/
theorem readString_escaped (acc : List Char) (c : Char) (rest : List Char) :
    readString acc true none (escaped c ++ rest) = readString (c :: acc) true none rest := by
  rw [escaped]
  -- the quote, the backslash and the five control characters with letters of their own
  iterate 7
    split
    · next h =>
      subst h
      rfl
  split
  · next h =>
    have hhigh : isHighSurrogate c.toNat = false := by
      simp only [isHighSurrogate, Bool.and_eq_false_iff, decide_eq_false_iff_not]
      omega
    have hlow : isLowSurrogate c.toNat = false := by
      simp only [isLowSurrogate, Bool.and_eq_false_iff, decide_eq_false_iff_not]
      omega
    simp only [List.cons_append, List.nil_append]
    rw [readString, unit?_control h]
    simp [hhigh, hlow]
  · next hquote hslash _ _ _ _ _ hplain =>
    rw [List.cons_append, List.nil_append, readString]
    · simp [hplain]
    · exact hquote
    · exact fun _ _ _ _ _ h => absurd h hslash
    · exact fun _ _ h => absurd h hslash

theorem readString_flatMap_escaped (acc cs rest : List Char) :
    readString acc true none (cs.flatMap escaped ++ '"' :: rest) =
      some (some (String.ofList (acc.reverse ++ cs)), rest) := by
  induction cs generalizing acc with
  | nil => simp [readString]
  | cons c cs ih => rw [List.flatMap_cons, List.append_assoc, readString_escaped, ih]; simp

def NumberEnds (cs : List Char) : Prop :=
  ∀ c, cs.head? = some c → c.isDigit = false ∧ c ≠ '.' ∧ c ≠ 'e' ∧ c ≠ 'E'

theorem numberEnds_nil : NumberEnds [] := nofun

/-- Only zero is written with a zero in front. -/
theorem head?_toDigits_ne {n : Nat} (h : n ≠ 0) : (Nat.toDigits 10 n).head? ≠ some '0' := by
  induction n using Nat.strongRecOn with
  | ind n ih =>
    by_cases hlt : n < 10
    · have hall : ∀ n < 10, n ≠ 0 → ([Nat.digitChar n].head? ≠ some '0') := by decide
      rw [Nat.toDigits_of_lt_base hlt]
      exact hall n hlt h
    · have hlower := ih (n / 10) (by omega) (by omega)
      obtain ⟨c, cs, hcs⟩ := List.exists_cons_of_ne_nil (Nat.toDigits_ne_nil (b := 10) (n := n / 10))
      rw [Nat.toDigits_of_base_le (by decide) (by omega), hcs]
      rwa [hcs] at hlower

theorem readWhole_toDigits (n : Nat) {rest : List Char} (hrest : NumberEnds rest) :
    readWhole (Nat.toDigits 10 n ++ rest) = some (Nat.toDigits 10 n, rest) := by
  have hdigits : ∀ c ∈ Nat.toDigits 10 n, c.isDigit = true :=
    fun c hc => Nat.isDigit_of_mem_toDigits (by decide) (by decide) hc
  obtain ⟨htake, hdrop⟩ := span_append hdigits fun c hc => (hrest c hc).1
  have hread : readDigits (Nat.toDigits 10 n ++ rest) = some (Nat.toDigits 10 n, rest) := by
    rw [readDigits, htake, hdrop]
    simp [Nat.toDigits_ne_nil]
  have hzero : ¬ ((Nat.toDigits 10 n).head? = some '0' ∧ (Nat.toDigits 10 n).length ≠ 1) := by
    intro h
    obtain ⟨hhead, hlen⟩ := h
    by_cases hn : n = 0
    · subst hn
      exact hlen rfl
    · exact head?_toDigits_ne hn hhead
  rw [readWhole, hread]
  exact if_neg hzero

theorem readNumber_toDigits (negative : Bool) (n : Nat) {rest : List Char} (hrest : NumberEnds rest) :
    readNumber negative (Nat.toDigits 10 n ++ rest) =
      some (.number ⟨negative, Nat.toDigits 10 n, none, none⟩, rest) := by
  have hfraction : readFraction rest = some (none, rest) := by
    rw [readFraction]
    intro rest' h
    exact absurd rfl (hrest '.' (by rw [h]; rfl)).2.1
  have hexponent : readExponent rest = some (none, rest) := by
    cases rest with
    | nil => rfl
    | cons c rest =>
      obtain ⟨-, -, he, hE⟩ := hrest c rfl
      simp [readExponent, he, hE]
  simp [readNumber, readWhole_toDigits n hrest, hfraction, hexponent]

theorem read_of_isDigit {c : Char} (hc : c.isDigit = true) (cs : List Char) :
    read c cs = readNumber false (c :: cs) := by
  rw [Token.read]
  all_goals
    intro h
    subst h
    cases hc

theorem isSpace_of_isDigit {c : Char} (hc : c.isDigit = true) : isSpace c = false := by
  simp only [isSpace, Bool.or_eq_false_iff, decide_eq_false_iff_not]
  refine ⟨⟨⟨?_, ?_⟩, ?_⟩, ?_⟩
  all_goals
    intro h
    subst h
    cases hc

/-- The text of an integer is one token. -/
theorem read_int (n : Int) {rest : List Char} (hrest : NumberEnds rest) :
    ∃ c cs, (Number.int n).literal.text ++ rest = c :: cs ∧ isSpace c = false ∧
      read c cs = some (.number (Number.int n).literal, rest) := by
  by_cases hn : n < 0
  · refine ⟨'-', Nat.toDigits 10 n.natAbs ++ rest, ?_, rfl, ?_⟩
    · simp [Number.literal, Literal.text, hn]
    · simp [Token.read, readNumber_toDigits true n.natAbs hrest, Number.literal, hn]
  · obtain ⟨c, cs, hcs⟩ := List.exists_cons_of_ne_nil (Nat.toDigits_ne_nil (b := 10) (n := n.natAbs))
    have hc : c.isDigit = true :=
      Nat.isDigit_of_mem_toDigits (by decide) (by decide) (hcs ▸ List.mem_cons_self ..)
    refine ⟨c, cs ++ rest, ?_, isSpace_of_isDigit hc, ?_⟩
    · simp [Number.literal, Literal.text, hn, hcs]
    · rw [read_of_isDigit hc, ← List.cons_append, ← hcs, readNumber_toDigits false n.natAbs hrest]
      simp [Number.literal, hn]

section Splitting

variable {c : Char} {cs rest : List Char} {t : Token}

/-- One token is split off behind the blanks, and the rest of the text is split as if it stood alone. -/
theorem splitOnto_eq (acc : List Token) (cs : List Char) :
    splitOnto acc cs =
      match cs.dropWhile isSpace with
      | [] => acc.reverse
      | c :: rest =>
        match Token.read c rest with
        | none => (.invalid :: acc).reverse
        | some (t, rest') => splitOnto (t :: acc) rest' := by
  rw [splitOnto]
  split
  · next h => rw [h]
  · next c rest h =>
    simp only [h]
    split
    · next hr => rw [hr]
    · next t rest' hr => rw [hr]

/-- What was read before stands in front of the tokens of the text. -/
theorem splitOnto_eq_append (acc : List Token) (cs : List Char) :
    splitOnto acc cs = acc.reverse ++ splitOnto [] cs := by
  induction hn : cs.length using Nat.strongRecOn generalizing acc cs with
  | ind n ih =>
    rw [splitOnto_eq acc, splitOnto_eq []]
    cases hcs : cs.dropWhile isSpace with
    | nil => simp
    | cons c rest =>
      have hlen := (List.dropWhile_sublist isSpace (l := cs)).length_le
      rw [hcs, List.length_cons] at hlen
      cases hr : Token.read c rest with
      | none => simp [hr]
      | some r =>
        obtain ⟨t, rest'⟩ := r
        have hle := read_length hr
        simp only [hr]
        rw [ih rest'.length (by omega) (t :: acc) rest' rfl, ih rest'.length (by omega) [t] rest' rfl]
        simp

theorem splitOnto_nil : splitOnto [] [] = [] := by
  rw [splitOnto_eq]
  rfl

theorem splitOnto_blank (hc : isSpace c = true) : splitOnto [] (c :: cs) = splitOnto [] cs := by
  rw [splitOnto_eq, List.dropWhile_cons_of_pos hc, ← splitOnto_eq]

theorem splitOnto_read (hc : isSpace c = false) (h : Token.read c cs = some (t, rest)) :
    splitOnto [] (c :: cs) = t :: splitOnto [] rest := by
  rw [splitOnto_eq, List.dropWhile_cons_of_neg (by simp [hc])]
  simp only [h]
  rw [splitOnto_eq_append]
  rfl

@[simp] theorem splitOnto_openArray : splitOnto [] ('[' :: cs) = .openArray :: splitOnto [] cs :=
  splitOnto_read rfl rfl

@[simp] theorem splitOnto_closeArray : splitOnto [] (']' :: cs) = .closeArray :: splitOnto [] cs :=
  splitOnto_read rfl rfl

@[simp] theorem splitOnto_openObject : splitOnto [] ('\x7b' :: cs) = .openObject :: splitOnto [] cs :=
  splitOnto_read rfl rfl

@[simp] theorem splitOnto_closeObject : splitOnto [] ('\x7d' :: cs) = .closeObject :: splitOnto [] cs :=
  splitOnto_read rfl rfl

@[simp] theorem splitOnto_comma : splitOnto [] (',' :: cs) = .comma :: splitOnto [] cs :=
  splitOnto_read rfl rfl

@[simp] theorem splitOnto_colon : splitOnto [] (':' :: cs) = .colon :: splitOnto [] cs :=
  splitOnto_read rfl rfl

@[simp] theorem splitOnto_stringOnto (s : String) (rest : List Char) :
    splitOnto [] (stringOnto s rest) = .string (some s) :: splitOnto [] rest := by
  have hread : Token.read '"' (s.toList.flatMap escaped ++ '"' :: rest) = some (.string (some s), rest) := by
    rw [Token.read, readString_flatMap_escaped]
    simp
  exact splitOnto_read rfl hread

theorem splitOnto_int (n : Int) (hrest : NumberEnds rest) :
    splitOnto [] ((Number.int n).literal.text ++ rest) = .number (Number.int n).literal :: splitOnto [] rest := by
  obtain ⟨c, cs, hcs, hc, hread⟩ := read_int n hrest
  rw [hcs, splitOnto_read hc hread]

end Splitting

end Fabric.Json

import Fabric.Policy.Compact.Token
import Fabric.Proofs.Traverse

namespace Fabric.Compact

open Token (isWordChar isQuote ofRun ofSymbol?)

def WordEnds (cs : List Char) : Prop := ∀ c, cs.head? = some c → isWordChar c = false

theorem wordEnds_cons {c : Char} {cs : List Char} (hc : isWordChar c = false) : WordEnds (c :: cs) := by
  intro d hd
  cases hd
  exact hc

/-- The text splits into the tokens: blanks between them are ignored, either quote opens a text that ends
at the next quote of its sort, and every run of word characters is taken as long as it is. -/
inductive Lexes : List Char → List Token → Prop
  | done : Lexes [] []
  | blank {c : Char} {cs : List Char} {ts : List Token} (hc : Text.isBlank c = true) (h : Lexes cs ts) :
      Lexes (c :: cs) ts
  | quoted {q : Char} {body rest : List Char} {ts : List Token} (hq : isQuote q = true) (hb : q ∉ body)
      (h : Lexes rest ts) : Lexes (q :: (body ++ q :: rest)) (.quoted (String.ofList body) :: ts)
  | word {run rest : List Char} {ts : List Token} (hne : run ≠ []) (hrun : ∀ c ∈ run, isWordChar c = true)
      (hword : ∃ c ∈ run, c.isDigit = false) (hend : WordEnds rest) (h : Lexes rest ts) :
      Lexes (run ++ rest) (.word (String.ofList run) :: ts)
  | number {run rest : List Char} {ts : List Token} (hne : run ≠ []) (hdigits : ∀ c ∈ run, c.isDigit = true)
      (hend : WordEnds rest) (h : Lexes rest ts) : Lexes (run ++ rest) (.number (String.ofList run) :: ts)
  | openParen {rest : List Char} {ts : List Token} (h : Lexes rest ts) : Lexes ('(' :: rest) (.openParen :: ts)
  | closeParen {rest : List Char} {ts : List Token} (h : Lexes rest ts) : Lexes (')' :: rest) (.closeParen :: ts)
  | comma {rest : List Char} {ts : List Token} (h : Lexes rest ts) : Lexes (',' :: rest) (.comma :: ts)

section Characters

variable {c : Char}

/-- Word characters stand between the comma and the end of the small letters. -/
theorem toNat_of_isWordChar (h : isWordChar c = true) : 0x2D ≤ c.toNat ∧ c.toNat ≤ 0x7A := by
  have hupper : c.isUpper = true → 0x41 ≤ c.toNat ∧ c.toNat ≤ 0x5A := fun h => of_decide_eq_true h
  have hlower : c.isLower = true → 0x61 ≤ c.toNat ∧ c.toNat ≤ 0x7A := by
    intro h
    obtain ⟨h1, h2⟩ := Bool.and_eq_true_iff.1 h
    exact ⟨of_decide_eq_true h1, of_decide_eq_true h2⟩
  have hdigit : c.isDigit = true → 0x30 ≤ c.toNat ∧ c.toNat ≤ 0x39 := Char.isDigit_iff_toNat.1
  have halnum : c.isAlphanum = ((c.isUpper || c.isLower) || c.isDigit) := rfl
  simp only [isWordChar, halnum, Bool.or_eq_true, decide_eq_true_eq] at h
  rcases h with (((((((h | h) | h) | h) | h) | h) | h) | h)
  · have hrange := hupper h
    omega
  · have hrange := hlower h
    omega
  · have hrange := hdigit h
    omega
  all_goals
    subst h
    decide

theorem not_isBlank_of_isWordChar (h : isWordChar c = true) : Text.isBlank c = false := by
  have hrange : 0x2D ≤ c.toNat ∧ c.toNat ≤ 0x7A := toNat_of_isWordChar h
  simp only [Text.isBlank, Bool.or_eq_false_iff, Bool.and_eq_false_iff, decide_eq_false_iff_not,
    beq_eq_false_iff_ne]
  omega

theorem not_isQuote_of_isWordChar (h : isWordChar c = true) : isQuote c = false := by
  cases hq : isQuote c with
  | false => rfl
  | true =>
    have hlow : 0x2D ≤ c.toNat := (toNat_of_isWordChar h).1
    simp only [isQuote, Bool.or_eq_true, decide_eq_true_eq] at hq
    rcases hq with rfl | rfl <;> revert hlow <;> decide

theorem not_isBlank_of_isQuote (h : isQuote c = true) : Text.isBlank c = false := by
  simp only [isQuote, Bool.or_eq_true, decide_eq_true_eq] at h
  rcases h with rfl | rfl <;> rfl

theorem isWordChar_of_isDigit (h : c.isDigit = true) : isWordChar c = true := by
  simp [isWordChar, Char.isAlphanum, h]

end Characters

namespace Token

theorem ofRun_of_digits {run : List Char} (h : ∀ c ∈ run, c.isDigit = true) :
    ofRun run = .number (String.ofList run) := by
  rw [ofRun, if_pos (List.all_eq_true.2 h)]

theorem ofRun_of_word {run : List Char} (h : ∃ c ∈ run, c.isDigit = false) :
    ofRun run = .word (String.ofList run) := by
  rw [ofRun, if_neg]
  simpa using h

theorem read_quoted {q : Char} {body rest : List Char} (hq : isQuote q = true) (hb : q ∉ body) :
    read q (body ++ q :: rest) = .ok (.quoted (String.ofList body), rest) := by
  have hrun : ∀ c ∈ body, (c != q) = true := by
    intro c hc
    rw [bne_iff_ne]
    intro heq
    exact hb (heq ▸ hc)
  have hstop : ∀ c, (q :: rest).head? = some c → (c != q) = false := by simp
  have hspan := span_append hrun hstop
  rw [read, if_pos hq, hspan.1, hspan.2]

theorem read_run {c : Char} {run rest : List Char} (hrun : ∀ d ∈ c :: run, isWordChar d = true)
    (hend : WordEnds rest) : read c (run ++ rest) = .ok (ofRun (c :: run), rest) := by
  rw [List.forall_mem_cons] at hrun
  have hspan := span_append hrun.2 hend
  rw [read, if_neg (by simp [not_isQuote_of_isWordChar hrun.1]), if_pos hrun.1, hspan.1, hspan.2]

theorem ofSymbol?_eq_some {c : Char} {t : Token} (h : ofSymbol? c = some t) :
    c = '(' ∧ t = .openParen ∨ c = ')' ∧ t = .closeParen ∨ c = ',' ∧ t = .comma := by
  simp only [ofSymbol?] at h
  split at h
  · next hc => exact .inl ⟨hc, (Option.some.inj h).symm⟩
  · split at h
    · next hc => exact .inr (.inl ⟨hc, (Option.some.inj h).symm⟩)
    · split at h
      · next hc => exact .inr (.inr ⟨hc, (Option.some.inj h).symm⟩)
      · cases h

theorem read_symbol {c : Char} {rest : List Char} {t : Token} (h : ofSymbol? c = some t) :
    read c rest = .ok (t, rest) := by
  obtain ⟨rfl, rfl⟩ | ⟨rfl, rfl⟩ | ⟨rfl, rfl⟩ := ofSymbol?_eq_some h <;> rfl

/-- The tokenizer passes over blanks, reads a token and goes on behind it. -/
theorem splitOnto_eq (acc : List Token) (cs : List Char) :
    splitOnto acc cs =
      match cs.dropWhile Text.isBlank with
      | [] => .ok acc.reverse
      | c :: rest => (read c rest).bind fun r => splitOnto (r.1 :: acc) r.2 := by
  rw [splitOnto]
  split
  · next h => rw [h]
  · next c rest h =>
    simp only [h]
    split
    · next e he => rw [he]; rfl
    · next t rest' hr => rw [hr]; rfl

theorem splitOnto_blank {acc : List Token} {c : Char} {cs : List Char} (hc : Text.isBlank c = true) :
    splitOnto acc (c :: cs) = splitOnto acc cs := by
  rw [splitOnto_eq, List.dropWhile_cons_of_pos hc, ← splitOnto_eq]

theorem splitOnto_cons {acc : List Token} {c : Char} {rest : List Char} (hc : Text.isBlank c = false) :
    splitOnto acc (c :: rest) = (read c rest).bind fun r => splitOnto (r.1 :: acc) r.2 := by
  rw [splitOnto_eq, List.dropWhile_cons_of_neg (by simp [hc])]

theorem splitOnto_run {acc : List Token} {run rest : List Char} (hne : run ≠ [])
    (hrun : ∀ c ∈ run, isWordChar c = true) (hend : WordEnds rest) :
    splitOnto acc (run ++ rest) = splitOnto (ofRun run :: acc) rest := by
  obtain ⟨c, run, rfl⟩ := List.exists_cons_of_ne_nil hne
  have hc := hrun c (List.mem_cons_self ..)
  rw [List.cons_append, splitOnto_cons (not_isBlank_of_isWordChar hc), read_run hrun hend]
  rfl

end Token

namespace Lexes

/-- Whatever was read before, the tokenizer adds the tokens of the text to it. -/
theorem splitOnto {cs : List Char} {ts : List Token} (h : Lexes cs ts) (acc : List Token) :
    Token.splitOnto acc cs = .ok (acc.reverse ++ ts) := by
  induction h generalizing acc with
  | done => rw [Token.splitOnto_eq]; simp
  | blank hc _ ih => rw [Token.splitOnto_blank hc, ih]
  | quoted hq hb _ ih =>
    rw [Token.splitOnto_cons (not_isBlank_of_isQuote hq), Token.read_quoted hq hb, Except.bind, ih]
    simp
  | word hne hrun hword hend _ ih =>
    rw [Token.splitOnto_run hne hrun hend, Token.ofRun_of_word hword, ih]
    simp
  | number hne hdigits hend _ ih =>
    have hrun : ∀ c ∈ _, isWordChar c = true := fun c hc => isWordChar_of_isDigit (hdigits c hc)
    rw [Token.splitOnto_run hne hrun hend, Token.ofRun_of_digits hdigits, ih]
    simp
  | openParen _ ih | closeParen _ ih | comma _ ih =>
    rw [Token.splitOnto_cons rfl, Token.read_symbol rfl, Except.bind, ih]
    simp

theorem of_run {run rest : List Char} {ts : List Token} (hne : run ≠ []) (hrun : ∀ c ∈ run, isWordChar c = true)
    (hend : WordEnds rest) (h : Lexes rest ts) : Lexes (run ++ rest) (ofRun run :: ts) := by
  by_cases hd : ∀ c ∈ run, c.isDigit = true
  · rw [Token.ofRun_of_digits hd]
    exact number hne hd hend h
  · have hword : ∃ c ∈ run, c.isDigit = false := by simpa using hd
    rw [Token.ofRun_of_word hword]
    exact word hne hrun hword hend h

/-- A token that is read stands at the beginning of the text. -/
theorem of_read {c : Char} {rest rest' : List Char} {t : Token} {ts : List Token}
    (hr : Token.read c rest = .ok (t, rest')) (h : Lexes rest' ts) : Lexes (c :: rest) (t :: ts) := by
  rw [Token.read] at hr
  split at hr
  · next hq =>
    obtain ⟨hbody, hstop⟩ := span_ends (· != c) rest
    split at hr
    · cases hr
    · next d tail hd =>
      cases hr
      -- what stops the text is the quote that it began with
      have hdc : d = c := by simpa using hstop d (by rw [hd]; rfl)
      have hsplit := List.takeWhile_append_dropWhile (p := (· != c)) (l := rest)
      have hno : c ∉ rest.takeWhile (· != c) := by
        intro hmem
        simpa using hbody c hmem
      have hl := quoted hq hno h
      rwa [← hdc, ← hd, hdc, hsplit] at hl
  · split at hr
    · next hw =>
      cases hr
      obtain ⟨hrun, hend⟩ := span_ends isWordChar rest
      have hsplit : c :: rest = (c :: rest.takeWhile isWordChar) ++ rest.dropWhile isWordChar := by
        rw [List.cons_append, List.takeWhile_append_dropWhile]
      rw [hsplit]
      have hall : ∀ d ∈ c :: rest.takeWhile isWordChar, isWordChar d = true := List.forall_mem_cons.2 ⟨hw, hrun⟩
      exact of_run (List.cons_ne_nil _ _) hall hend h
    · split at hr
      · next hs =>
        cases hr
        obtain ⟨rfl, rfl⟩ | ⟨rfl, rfl⟩ | ⟨rfl, rfl⟩ := Token.ofSymbol?_eq_some hs
        · exact openParen h
        · exact closeParen h
        · exact comma h
      · cases hr

theorem of_dropWhile {cs : List Char} {ts : List Token} (h : Lexes (cs.dropWhile Text.isBlank) ts) :
    Lexes cs ts := by
  induction cs with
  | nil => exact h
  | cons c cs ih =>
    cases hc : Text.isBlank c with
    | true => exact blank hc (ih (List.dropWhile_cons_of_pos hc ▸ h))
    | false => simpa [List.dropWhile_cons, hc] using h

/-- What the tokenizer adds to the tokens before are tokens that the text splits into. -/
theorem of_splitOnto {acc : List Token} {cs : List Char} {ts : List Token}
    (h : Token.splitOnto acc cs = .ok ts) : ∃ ts', Lexes cs ts' ∧ ts = acc.reverse ++ ts' := by
  fun_induction Token.splitOnto acc cs with
  | case1 acc cs hd =>
    cases h
    exact ⟨[], of_dropWhile (hd ▸ done), by simp⟩
  | case2 => cases h
  | case3 acc cs c rest hd t rest' hr _ ih =>
    obtain ⟨ts', hts, rfl⟩ := ih h
    exact ⟨t :: ts', of_dropWhile (hd ▸ of_read hr hts), by simp⟩

end Lexes

/-- The tokenizer accepts exactly the texts that split into tokens, and splits them so. -/
theorem split_eq_ok_iff {s : String} {ts : List Token} : Token.split s = .ok ts ↔ Lexes s.toList ts := by
  constructor
  · intro h
    obtain ⟨ts', hts, rfl⟩ := Lexes.of_splitOnto h
    simpa using hts
  · exact fun h => h.splitOnto []

theorem lexes_cons_iff {c : Char} {rest rest' : List Char} {t : Token} {ts : List Token}
    (hc : Text.isBlank c = false) (hr : Token.read c rest = .ok (t, rest')) :
    Lexes (c :: rest) ts ↔ ∃ ts', ts = t :: ts' ∧ Lexes rest' ts' := by
  constructor
  · intro h
    have hsplit := h.splitOnto []
    rw [Token.splitOnto_cons hc, hr] at hsplit
    obtain ⟨ts', hts, heq⟩ := Lexes.of_splitOnto hsplit
    exact ⟨ts', by simpa using heq, hts⟩
  · intro h
    obtain ⟨ts', rfl, h⟩ := h
    exact Lexes.of_read hr h

/-- A run of word characters that ends is the first token, whatever stands behind it. -/
theorem lexes_run_iff {run rest : List Char} {ts : List Token} (hne : run ≠ [])
    (hrun : ∀ c ∈ run, isWordChar c = true) (hend : WordEnds rest) :
    Lexes (run ++ rest) ts ↔ ∃ ts', ts = ofRun run :: ts' ∧ Lexes rest ts' := by
  obtain ⟨c, run, rfl⟩ := List.exists_cons_of_ne_nil hne
  exact lexes_cons_iff (not_isBlank_of_isWordChar (hrun c (List.mem_cons_self ..))) (Token.read_run hrun hend)

def SplitsOff (text : List Char) (us : List Token) : Prop :=
  ∀ cs ts, Lexes (text ++ cs) ts ↔ ∃ ts', ts = us ++ ts' ∧ Lexes cs ts'

theorem SplitsOff.append {text text' : List Char} {us us' : List Token} (h : SplitsOff text us)
    (h' : SplitsOff text' us') : SplitsOff (text ++ text') (us ++ us') := by
  intro cs ts
  rw [List.append_assoc, h]
  constructor
  · intro h
    obtain ⟨vs, rfl, hl⟩ := h
    obtain ⟨ts', rfl, hcs⟩ := (h' cs vs).1 hl
    exact ⟨ts', (List.append_assoc ..).symm, hcs⟩
  · intro h
    obtain ⟨ts', rfl, hl⟩ := h
    exact ⟨us' ++ ts', List.append_assoc .., (h' cs _).2 ⟨ts', rfl, hl⟩⟩

theorem splitsOff_blank {c : Char} (hc : Text.isBlank c = true) : SplitsOff [c] [] := by
  intro cs ts
  simp only [List.singleton_append, List.nil_append, exists_eq_left']
  refine ⟨?_, .blank hc⟩
  intro h
  have hsplit := h.splitOnto []
  rw [Token.splitOnto_blank hc] at hsplit
  obtain ⟨ts', hts, heq⟩ := Lexes.of_splitOnto hsplit
  exact List.append_cancel_left heq ▸ hts

theorem splitsOff_symbol {c : Char} {t : Token} (ht : ofSymbol? c = some t) : SplitsOff [c] [t] := by
  have hc : Text.isBlank c = false := by
    obtain ⟨rfl, -⟩ | ⟨rfl, -⟩ | ⟨rfl, -⟩ := Token.ofSymbol?_eq_some ht <;> rfl
  exact fun cs ts => lexes_cons_iff hc (Token.read_symbol ht)

theorem splitsOff_quoted {q : Char} {body : List Char} (hq : isQuote q = true) (hb : q ∉ body) :
    SplitsOff (q :: (body ++ [q])) [.quoted (String.ofList body)] := by
  intro cs ts
  rw [List.cons_append, List.append_assoc, List.singleton_append]
  exact lexes_cons_iff (not_isBlank_of_isQuote hq) (Token.read_quoted hq hb)

/-- A symbol ends the word in front of it. -/
theorem splitsOff_run {run : List Char} {c : Char} {t : Token} (hne : run ≠ [])
    (hrun : ∀ d ∈ run, isWordChar d = true) (ht : ofSymbol? c = some t) :
    SplitsOff (run ++ [c]) [ofRun run, t] := by
  intro cs ts
  have hend : WordEnds (c :: cs) := by
    apply wordEnds_cons
    obtain ⟨rfl, -⟩ | ⟨rfl, -⟩ | ⟨rfl, -⟩ := Token.ofSymbol?_eq_some ht <;> rfl
  rw [List.append_assoc, List.singleton_append, lexes_run_iff hne hrun hend]
  constructor
  · intro h
    obtain ⟨vs, rfl, hl⟩ := h
    obtain ⟨ts', rfl, hcs⟩ := (splitsOff_symbol ht cs vs).1 hl
    exact ⟨ts', rfl, hcs⟩
  · intro h
    obtain ⟨ts', rfl, hl⟩ := h
    exact ⟨t :: ts', rfl, (splitsOff_symbol ht cs _).2 ⟨ts', rfl, hl⟩⟩

end Fabric.Compact

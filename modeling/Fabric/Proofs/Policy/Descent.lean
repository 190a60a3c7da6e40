import Fabric.Proofs.Policy.Acceptance

namespace Fabric.Compact

def Group.push (g : Group) (r : Rule) : Group := { g with rules := r :: g.rules }

namespace Descent

def readCount : List Token → Except PolicyError (UInt32 × List Token)
  | .number s :: rest =>
    match Word.uint32? (Nat.ofDigitChars 10 s.toList 0) with
    | some n => .ok (n, rest)
    | none => .error (.invalidOutOfCount s)
  | t :: _ => .error (.invalidOutOfCount t.describe)
  | [] => .error (.invalidOutOfCount "")

def readComma : List Token → Except PolicyError (List Token)
  | .comma :: rest => .ok rest
  | t :: _ => .error (.unexpectedToken t.describe)
  | [] => .error (.unexpectedToken "end of input, expected ','")

def readOpening : Keyword → List Token → Except PolicyError (Group × List Token)
  | .outOf, ts => do
    let (n, ts) ← readCount ts
    let ts ← readComma ts
    return (⟨.outOf, n, []⟩, ts)
  | keyword, ts => .ok (⟨keyword, 0, []⟩, ts)

inductive Lead
  | principal (x : Principal)
  | group (g : Group)

def beginArgs (opened : Group × List Token) : Except PolicyError (Lead × List Token) :=
  if opened.2.head? = some .closeParen then .error .emptyRuleSet else .ok (.group opened.1, opened.2)

def readLead : List Token → Except PolicyError (Lead × List Token)
  | .word s :: .openParen :: rest =>
    match Keyword.ofWord? s with
    | none => .error (.unknownKeyword s)
    | some keyword => do beginArgs (← readOpening keyword rest)
  | .word s :: rest | .quoted s :: rest => do return (.principal (← Principal.parse s), rest)
  | t :: _ => .error (.unexpectedToken t.describe)
  | [] => .error .empty

abbrev Outcome := Except PolicyError (Rule × List Principal × List Token)

-- The calls and the order they are made in, where the text ends after `total` tokens.
mutual
inductive ReadsExpr (total : Nat) : List Principal → List Token → Outcome → Prop
  | refused {identities : List Principal} {left : List Token} {e : PolicyError} (h : readLead left = .error e) :
    ReadsExpr total identities left (.error e)
  | principal {identities : List Principal} {left rest : List Token} {x : Principal}
    (h : readLead left = .ok (.principal x, rest)) :
    ReadsExpr total identities left (.ok (.signedBy (Parser.place identities x),
      Parser.noted identities [x], rest))
  | group {identities : List Principal} {left rest : List Token} {g : Group} {out : Outcome}
    (h : readLead left = .ok (.group g, rest)) (hargs : ReadsArgs total g identities rest out) :
    ReadsExpr total identities left out
inductive ReadsArgs (total : Nat) : Group → List Principal → List Token → Outcome → Prop
  | failed {g : Group} {identities : List Principal} {left : List Token} {e : PolicyError}
    (h : ReadsExpr total identities left (.error e)) : ReadsArgs total g identities left (.error e)
  | unclosed {g : Group} {identities identities' : List Principal} {left : List Token} {r : Rule}
    (h : ReadsExpr total identities left (.ok (r, identities', []))) :
    ReadsArgs total g identities left (.error (.unbalancedParentheses total))
  | comma {g : Group} {identities identities' : List Principal} {left rest : List Token} {r : Rule} {out : Outcome}
    (h : ReadsExpr total identities left (.ok (r, identities', .comma :: rest)))
    (hnext : ReadsArgs total (g.push r) identities' rest out) : ReadsArgs total g identities left out
  | closed {g : Group} {identities identities' : List Principal} {left rest : List Token} {r : Rule}
    (h : ReadsExpr total identities left (.ok (r, identities', .closeParen :: rest))) :
    ReadsArgs total g identities left ((g.push r).close.map (·, identities', rest))
  | unexpected {g : Group} {identities identities' : List Principal} {left rest : List Token} {r : Rule} {t : Token}
    (h : ReadsExpr total identities left (.ok (r, identities', t :: rest))) (hcomma : t ≠ .comma)
    (hclose : t ≠ .closeParen) : ReadsArgs total g identities left (.error (.unexpectedToken t.describe))
end

section Lead

/-- The number of a group is a token of digits that fits 32 bits. -/
theorem readCount_eq_ok_iff {ts rest : List Token} {n : UInt32} :
    readCount ts = .ok (n, rest) ↔
      ∃ digits, ts = .number digits :: rest ∧ Nat.ofDigitChars 10 digits.toList 0 = n.toNat := by
  constructor
  · intro h
    unfold readCount at h
    split at h
    · next s rest' =>
      split at h
      · next hn =>
        cases h
        exact ⟨s, rfl, Word.uint32?_natCast_eq_some_iff.1 hn⟩
      · cases h
    · cases h
    · cases h
  · intro h
    obtain ⟨digits, rfl, hn⟩ := h
    rw [readCount, Word.uint32?_natCast_eq_some_iff.2 hn]

theorem readComma_eq_ok_iff {ts rest : List Token} : readComma ts = .ok rest ↔ ts = .comma :: rest := by
  constructor
  · intro h
    unfold readComma at h
    split at h <;> cases h
    rfl
  · intro h
    rw [h, readComma]

theorem readOpening_outOf (ts : List Token) :
    readOpening .outOf ts = (readCount ts).bind fun counted =>
      (readComma counted.2).bind fun rest => .ok (⟨.outOf, counted.1, []⟩, rest) := rfl

/-- Behind its keyword and parenthesis a group has what its notation asks for in front of the arguments. -/
theorem exists_opens_of_readOpening {keyword : Keyword} {ts rest : List Token} {g : Group} {s : String}
    (hs : Keyword.ofWord? s = some keyword) (h : readOpening keyword ts = .ok (g, rest)) :
    ∃ d opening, Opens d opening ∧ .word s :: .openParen :: ts = opening ++ rest ∧ g = d.opened := by
  have hname := Keyword.ofWord?_eq_some_iff.1 hs
  cases keyword with
  | all =>
    cases h
    exact ⟨.all, _, .all hname, rfl, rfl⟩
  | any =>
    cases h
    exact ⟨.any, _, .any hname, rfl, rfl⟩
  | outOf =>
    obtain ⟨⟨n, rest'⟩, hcount, h⟩ := bind_eq_ok_iff.1 h
    obtain ⟨rest'', hcomma, h⟩ := bind_eq_ok_iff.1 h
    cases h
    obtain ⟨digits, rfl, hn⟩ := readCount_eq_ok_iff.1 hcount
    cases readComma_eq_ok_iff.1 hcomma
    exact ⟨.outOf n, _, .outOf hname hn, rfl, rfl⟩

theorem exists_readOpening_of_opens {d : Demand} {opening : List Token} (ho : Opens d opening) (rest : List Token) :
    ∃ s keyword ts, Keyword.ofWord? s = some keyword ∧ opening ++ rest = .word s :: .openParen :: ts ∧
      readOpening keyword ts = .ok (d.opened, rest) := by
  cases ho with
  | all h => exact ⟨_, .all, rest, Keyword.ofWord?_eq_some_iff.2 h, rfl, rfl⟩
  | any h => exact ⟨_, .any, rest, Keyword.ofWord?_eq_some_iff.2 h, rfl, rfl⟩
  | @outOf s digits n h hn =>
    have hcount : readCount (.number digits :: .comma :: rest) = .ok (n, .comma :: rest) :=
      readCount_eq_ok_iff.2 ⟨digits, rfl, hn⟩
    refine ⟨s, .outOf, .number digits :: .comma :: rest, Keyword.ofWord?_eq_some_iff.2 h, rfl, ?_⟩
    simp only [readOpening, hcount]
    rfl

theorem beginArgs_eq_ok_iff {g : Group} {ts rest : List Token} {lead : Lead} :
    beginArgs (g, ts) = .ok (lead, rest) ↔ ts.head? ≠ some .closeParen ∧ lead = .group g ∧ rest = ts := by
  unfold beginArgs
  split
  · next hclose => simp [hclose]
  · next hne => simp [hne, eq_comm]

theorem readLead_word_openParen (s : String) (rest : List Token) :
    readLead (.word s :: .openParen :: rest) =
      match Keyword.ofWord? s with
      | none => .error (.unknownKeyword s)
      | some keyword => (readOpening keyword rest).bind beginArgs := by
  rw [readLead]
  cases Keyword.ofWord? s <;> rfl

theorem readLead_word {s : String} {rest : List Token} (hrest : NoOpening rest) :
    readLead (.word s :: rest) = (Principal.parse s).map fun x => (.principal x, rest) := by
  cases rest with
  | nil => rfl
  | cons t rest =>
    cases t with
    | openParen => exact absurd rfl (hrest _ rfl)
    | _ => rfl

theorem readLead_quoted (s : String) (rest : List Token) :
    readLead (.quoted s :: rest) = (Principal.parse s).map fun x => (.principal x, rest) := rfl

/-- An expression begins with its principal, or with the opening of a group that holds something. -/
theorem readLead_eq_ok_iff {left rest : List Token} {lead : Lead} :
    readLead left = .ok (lead, rest) ↔
      (∃ x s, x.NamedBy s ∧ lead = .principal x ∧
        (left = .quoted s :: rest ∨ left = .word s :: rest ∧ NoOpening rest)) ∨
      ∃ d opening, Opens d opening ∧ lead = .group d.opened ∧ left = opening ++ rest ∧
        rest.head? ≠ some .closeParen := by
  constructor
  · intro h
    cases left with
    | nil => cases h
    | cons t tail =>
      cases t with
      | word s =>
        by_cases hopen : NoOpening tail
        · rw [readLead_word hopen] at h
          obtain ⟨x, hx, heq⟩ := map_eq_ok_iff.1 h
          cases heq
          exact .inl ⟨x, s, Principal.parse_eq_ok_iff.1 hx, rfl, .inr ⟨rfl, hopen⟩⟩
        · obtain ⟨us, rfl⟩ := exists_of_not_noOpening hopen
          rw [readLead_word_openParen] at h
          split at h
          · cases h
          · next keyword hkeyword =>
            obtain ⟨⟨g, rest'⟩, hopening, h⟩ := bind_eq_ok_iff.1 h
            obtain ⟨hne, rfl, rfl⟩ := beginArgs_eq_ok_iff.1 h
            obtain ⟨d, opening, ho, hsplit, rfl⟩ := exists_opens_of_readOpening hkeyword hopening
            exact .inr ⟨d, opening, ho, rfl, hsplit, hne⟩
      | quoted s =>
        rw [readLead_quoted] at h
        obtain ⟨x, hx, heq⟩ := map_eq_ok_iff.1 h
        cases heq
        exact .inl ⟨x, s, Principal.parse_eq_ok_iff.1 hx, rfl, .inl rfl⟩
      | _ => cases h
  · rintro (⟨x, s, hx, rfl, rfl | ⟨rfl, hopen⟩⟩ | ⟨d, opening, ho, rfl, rfl, hne⟩)
    · rw [readLead_quoted, Principal.parse_eq_ok_iff.2 hx]
      rfl
    · rw [readLead_word hopen, Principal.parse_eq_ok_iff.2 hx]
      rfl
    · obtain ⟨s, keyword, ts, hkeyword, hsplit, hopening⟩ := exists_readOpening_of_opens ho rest
      rw [hsplit, readLead_word_openParen, hkeyword]
      exact bind_eq_ok_iff.2 ⟨_, hopening, beginArgs_eq_ok_iff.2 ⟨hne, rfl, rfl⟩⟩

theorem exists_namedBy_of_readLead {left rest : List Token} {x : Principal}
    (h : readLead left = .ok (.principal x, rest)) :
    ∃ s, x.NamedBy s ∧ (left = .quoted s :: rest ∨ left = .word s :: rest ∧ NoOpening rest) := by
  obtain ⟨y, s, hx, hlead, hleft⟩ | ⟨d, opening, -, hlead, -⟩ := readLead_eq_ok_iff.1 h
  · cases hlead
    exact ⟨s, hx, hleft⟩
  · cases hlead

theorem exists_opens_of_readLead {left rest : List Token} {g : Group} (h : readLead left = .ok (.group g, rest)) :
    ∃ d opening, Opens d opening ∧ g = d.opened ∧ left = opening ++ rest ∧ rest.head? ≠ some .closeParen := by
  obtain ⟨x, s, -, hlead, -⟩ | ⟨d, opening, ho, hlead, hleft⟩ := readLead_eq_ok_iff.1 h
  · cases hlead
  · cases hlead
    exact ⟨d, opening, ho, rfl, hleft⟩

theorem length_lt_of_readLead {left rest : List Token} {lead : Lead} (h : readLead left = .ok (lead, rest)) :
    rest.length < left.length := by
  obtain ⟨x, s, -, -, rfl | ⟨rfl, -⟩⟩ | ⟨d, opening, ho, -, rfl, -⟩ := readLead_eq_ok_iff.1 h
  · exact Nat.lt_succ_self _
  · exact Nat.lt_succ_self _
  · have hpos := ho.length_pos
    rw [List.length_append]
    omega

end Lead

section Calls

variable {total : Nat}

/-- A group that is closed fits its rules and asks for as many of them as it says. -/
theorem close_push_eq_ok_iff {d : Demand} {before : List Rule} {r group : Rule} :
    (Group.push { d.opened with rules := before.reverse } r).close = .ok group ↔
      d.Fits (before ++ [r]).length ∧ group = .nOutOf (d.count (before ++ [r]).length) (before ++ [r]) := by
  rw [← Demand.close_eq_ok_iff, List.reverse_append]
  rfl

-- The induction is on the call. It is said for a group that has rules already, as the call goes on with a group that has
-- one rule more behind every comma.
mutual
/-- The tokens that an expression was read from derive it, and its rule nests groups as the expression does. -/
theorem ReadsExpr.exists_derives {identities identities' : List Principal} {left rest : List Token} {out : Outcome}
    {r : Rule} : ReadsExpr total identities left out → out = .ok (r, identities', rest) →
      ∃ e used, left = used ++ rest ∧ Derives e used ∧ r.nesting = e.nesting
  | .refused _, hout => nomatch hout
  | .principal hlead, hout => by
    cases hout
    obtain ⟨s, hx, rfl | ⟨rfl, -⟩⟩ := exists_namedBy_of_readLead hlead
    · exact ⟨_, [.quoted s], rfl, .quoted hx, rfl⟩
    · exact ⟨_, [.word s], rfl, .word hx, rfl⟩
  | .group hlead hargs, hout => by
    obtain ⟨d, opening, ho, hg, hleft, -⟩ := exists_opens_of_readLead hlead
    have hopened : d.opened = { d.opened with rules := [].reverse } := by cases d <;> rfl
    obtain ⟨es, used, rules, hargs, hes, hfits, hr, hlen, hnesting⟩ :=
      hargs.exists_derivesArgs (hg.trans hopened) hout
    -- a group that has just been opened has no rules but those of its arguments
    rw [List.nil_append, hlen] at hfits
    refine ⟨.group d es, opening ++ (used ++ [.closeParen]), by simp [hleft, hargs], .group ho hes hfits, ?_⟩
    rw [hr, List.nil_append, Rule.nesting, hnesting, Expr.nesting]
/-- The tokens that arguments were read from derive them, and a parenthesis follows, which closes the group with their
rules behind those it has. -/
theorem ReadsArgs.exists_derivesArgs {d : Demand} {before : List Rule} {g : Group}
    {identities identities' : List Principal} {left rest : List Token} {out : Outcome} {r : Rule} :
    ReadsArgs total g identities left out → g = { d.opened with rules := before.reverse } →
      out = .ok (r, identities', rest) →
      ∃ es used rules, left = used ++ .closeParen :: rest ∧ DerivesArgs es used ∧ d.Fits (before ++ rules).length ∧
        r = .nOutOf (d.count (before ++ rules).length) (before ++ rules) ∧ rules.length = es.length ∧
        Rule.nestingList rules = Expr.nestingOf es
  | .failed _, _, hout | .unclosed _, _, hout | .unexpected _ _ _, _, hout => nomatch hout
  | .comma (r := r₁) h hnext, hg, hout => by
    obtain ⟨e, used, hleft, he, hnesting⟩ := h.exists_derives rfl
    have hpush : g.push r₁ = { d.opened with rules := (before ++ [r₁]).reverse } := by
      rw [hg, List.reverse_append]
      rfl
    obtain ⟨es, used', rules, hrest, hes, hfits, hr, hlen, hnestings⟩ := hnext.exists_derivesArgs hpush hout
    rw [List.append_assoc] at hfits hr
    refine ⟨e :: es, used ++ .comma :: used', r₁ :: rules, by simp [hleft, hrest], .more he hes, hfits, hr, ?_, ?_⟩
    · rw [List.length_cons, List.length_cons, hlen]
    · rw [Rule.nestingList, Expr.nestingOf, hnesting, hnestings]
  | .closed (r := r₁) h, hg, hout => by
    obtain ⟨e, used, hleft, he, hnesting⟩ := h.exists_derives rfl
    obtain ⟨group, hclose, heq⟩ := map_eq_ok_iff.1 hout
    cases heq
    rw [hg, close_push_eq_ok_iff] at hclose
    obtain ⟨hfits, hr⟩ := hclose
    refine ⟨[e], used, [r₁], hleft, .one he, hfits, hr, rfl, ?_⟩
    rw [Rule.nestingList, Rule.nestingList, Expr.nestingOf, Expr.nestingOf, hnesting]
end

theorem ReadsExpr.exists_used {identities identities' : List Principal} {left rest : List Token} {r : Rule}
    (h : ReadsExpr total identities left (.ok (r, identities', rest))) : ∃ used, used ≠ [] ∧ left = used ++ rest := by
  obtain ⟨e, used, hleft, he, -⟩ := h.exists_derives rfl
  exact ⟨used, he.ne_nil, hleft⟩

theorem ReadsExpr.length_lt {identities identities' : List Principal} {left rest : List Token} {r : Rule}
    (h : ReadsExpr total identities left (.ok (r, identities', rest))) : rest.length < left.length := by
  obtain ⟨used, hne, rfl⟩ := h.exists_used
  have hpos := List.length_pos_iff.2 hne
  rw [List.length_append]
  omega

-- The induction is on the number of tokens left. A group passes fewer on to its arguments, which begin with an
-- expression of the same tokens and go on behind it.
mutual
/-- Every call comes to an end. -/
theorem exists_readsExpr (total : Nat) (identities : List Principal) (left : List Token) :
    ∃ out, ReadsExpr total identities left out := by
  cases hlead : readLead left with
  | error e => exact ⟨_, .refused hlead⟩
  | ok begun =>
    obtain ⟨lead, rest⟩ := begun
    cases lead with
    | principal x => exact ⟨_, .principal hlead⟩
    | group g =>
      -- the opening of the group is taken away before the call goes on
      have hlt : rest.length < left.length := length_lt_of_readLead hlead
      obtain ⟨out, hargs⟩ := exists_readsArgs total g identities rest
      exact ⟨out, .group hlead hargs⟩
termination_by (left.length, 0)
/-- Whatever tokens are left, the call that reads arguments comes to an end. -/
theorem exists_readsArgs (total : Nat) (g : Group) (identities : List Principal) (left : List Token) :
    ∃ out, ReadsArgs total g identities left out := by
  obtain ⟨out, h⟩ := exists_readsExpr total identities left
  match out, h with
  | .error e, h => exact ⟨_, .failed h⟩
  | .ok (r, identities', []), h => exact ⟨_, .unclosed h⟩
  | .ok (r, identities', t :: rest), h =>
    by_cases hcomma : t = .comma
    · subst hcomma
      -- an expression takes at least one token, and the comma one more
      have hlt : rest.length < left.length := Nat.lt_of_succ_lt h.length_lt
      obtain ⟨out, hnext⟩ := exists_readsArgs total (g.push r) identities' rest
      exact ⟨out, .comma h hnext⟩
    · by_cases hclose : t = .closeParen
      · subst hclose
        exact ⟨_, .closed h⟩
      · exact ⟨_, .unexpected h hcomma hclose⟩
termination_by (left.length, 1)
end

-- The induction is on the first of the two ends. The expression in front of what happens next was read in one way only,
-- which leaves one rule for the second.
mutual
/-- A call ends in one way only. -/
theorem ReadsExpr.eq_of {identities : List Principal} {left : List Token} {out out' : Outcome} :
    ReadsExpr total identities left out → ReadsExpr total identities left out' → out = out'
  | .refused h, h' => by
    cases h' with
    | refused h' => exact congrArg Except.error (Except.error.inj (h.symm.trans h'))
    | principal h' | group h' _ => cases h.symm.trans h'
  | .principal h, h' => by
    cases h' with
    | refused h' | group h' _ => cases h.symm.trans h'
    | principal h' =>
      cases h.symm.trans h'
      rfl
  | .group h hargs, h' => by
    cases h' with
    | refused h' | principal h' => cases h.symm.trans h'
    | group h' hargs' =>
      cases h.symm.trans h'
      exact hargs.eq_of hargs'
/-- A call that reads arguments ends in one way only. -/
theorem ReadsArgs.eq_of {g : Group} {identities : List Principal} {left : List Token} {out out' : Outcome} :
    ReadsArgs total g identities left out → ReadsArgs total g identities left out' → out = out'
  | .failed h, h' => by
    cases h' with
    | failed h' =>
      cases h.eq_of h'
      rfl
    | unclosed h' | comma h' _ | closed h' | unexpected h' _ _ => cases h.eq_of h'
  | .unclosed h, h' => by
    cases h' with
    | unclosed h' => rfl
    | failed h' | comma h' _ | closed h' | unexpected h' _ _ => cases h.eq_of h'
  | .comma h hnext, h' => by
    cases h' with
    | comma h' hnext' =>
      cases h.eq_of h'
      exact hnext.eq_of hnext'
    | failed h' | unclosed h' | closed h' => cases h.eq_of h'
    | unexpected h' hcomma _ =>
      cases h.eq_of h'
      exact absurd rfl hcomma
  | .closed h, h' => by
    cases h' with
    | closed h' =>
      cases h.eq_of h'
      rfl
    | failed h' | unclosed h' | comma h' _ => cases h.eq_of h'
    | unexpected h' _ hclose =>
      cases h.eq_of h'
      exact absurd rfl hclose
  | .unexpected h hcomma hclose, h' => by
    cases h' with
    | unexpected h' _ _ =>
      cases h.eq_of h'
      rfl
    | failed h' | unclosed h' => cases h.eq_of h'
    | comma h' _ =>
      cases h.eq_of h'
      exact absurd rfl hcomma
    | closed h' =>
      cases h.eq_of h'
      exact absurd rfl hclose
end

end Calls

end Descent

end Fabric.Compact

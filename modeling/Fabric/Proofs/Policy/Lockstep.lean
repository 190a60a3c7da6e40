import Fabric.Proofs.Policy.Descent

/-!
The descent through a compact text and the reader that keeps its open groups in a list go in step: a call ends with what
the reader makes of the tokens, and the descent reads an expression exactly where the reader expects one, with the same
groups open.
-/
namespace Fabric.Compact.Descent

section Reader

open Compact.Parser

variable {total : Nat}

/-- The reader stands where the descent reads an expression: a group that has no rules yet is not closed there. -/
def ReadyFor (p : Parser) (left : List Token) : Prop :=
  p.Ready ∧ (p.stage = .firstArg → left.head? ≠ some .closeParen)

theorem readyFor_expr (groups : List Group) (identities : List Principal) (left : List Token) :
    ReadyFor (tracking .expr groups identities) left := ⟨ready_expr _ _, nofun⟩

theorem readyFor_firstArg (groups : List Group) (identities : List Principal) {left : List Token}
    (h : left.head? ≠ some .closeParen) : ReadyFor (tracking .firstArg groups identities) left :=
  ⟨ready_firstArg _ _, fun _ => h⟩

def supplied (groups : List Group) (identities : List Principal) (r : Rule) : Parser :=
  Parser.supply (tracking .expr groups identities) r

theorem supply_eq_supplied (stage : Stage) (groups : List Group) (identities : List Principal) (r : Rule) :
    Parser.supply (tracking stage groups identities) r = supplied groups identities r := by
  cases groups <;> rfl

theorem step_supplied_comma (g : Group) (outer : List Group) (identities : List Principal) (r : Rule) :
    (supplied (g :: outer) identities r).step .comma = .ok (tracking .expr (g.push r :: outer) identities) := rfl

theorem step_supplied_closeParen (g : Group) (outer : List Group) (identities : List Principal) (r : Rule) :
    (supplied (g :: outer) identities r).step .closeParen =
      (g.push r).close.map fun group => supplied outer identities group := by
  have hstep : (supplied (g :: outer) identities r).step .closeParen =
      (g.push r).close.bind fun group => .ok (Parser.supply (tracking .nextArg outer identities) group) := rfl
  rw [hstep]
  cases (g.push r).close with
  | error e => rfl
  | ok group => exact congrArg Except.ok (supply_eq_supplied ..)

theorem step_supplied (groups : List Group) (identities : List Principal) (r : Rule) (t : Token) :
    (supplied groups identities r).step t = (supplied groups identities r).readNext t := by
  cases groups with
  | nil => cases t <;> rfl
  | cons g outer => rfl

theorem leaf_eq (stage : Stage) (groups : List Group) (identities : List Principal) (s : String) :
    leaf (tracking stage groups identities) s = (Principal.parse s).map fun x =>
      supplied groups (noted identities [x]) (.signedBy (place identities x)) := by
  have htracks : Tracks (tracking stage groups identities) := rfl
  rw [htracks.leaf_eq]
  cases Principal.parse s with
  | error e => rfl
  | ok x => exact congrArg Except.ok (supply_eq_supplied ..)

def resume (total : Nat) (groups : List Group) : Outcome → Except PolicyError Policy
  | .error e => .error e
  | .ok (r, identities, rest) => (supplied groups identities r).outcome total rest

def resumeLead (total : Nat) (groups : List Group) (identities : List Principal) :
    Lead × List Token → Except PolicyError Policy
  | (.principal x, rest) =>
    resume total groups (.ok (.signedBy (place identities x), (noted identities [x]), rest))
  | (.group g, rest) => outcome (tracking .firstArg (g :: groups) identities) total rest

section Outcome

variable {stage : Stage} {groups : List Group} {identities : List Principal} {left : List Token}

/-- The reader takes the number of a group as the descent does. -/
theorem outcome_count (ts : List Token) :
    outcome (tracking .count (⟨.outOf, 0, []⟩ :: groups) identities) total ts =
      (readCount ts).bind fun counted =>
        outcome (tracking .commaAfterCount (⟨.outOf, counted.1, []⟩ :: groups) identities) total counted.2 := by
  cases ts with
  | nil => rfl
  | cons t ts =>
    rw [outcome_cons]
    cases t with
    | number digits =>
      rw [step_count_number, readCount]
      cases Word.uint32? (Nat.ofDigitChars 10 digits.toList 0) <;> rfl
    | _ => rfl

theorem outcome_commaAfterCount (ts : List Token) :
    outcome (tracking .commaAfterCount groups identities) total ts =
      (readComma ts).bind fun rest => outcome (tracking .firstArg groups identities) total rest := by
  cases ts with
  | nil => rfl
  | cons t ts => cases t <;> rfl

theorem outcome_firstArg (g : Group) (ts : List Token) :
    outcome (tracking .firstArg (g :: groups) identities) total ts =
      (beginArgs (g, ts)).bind (resumeLead total groups identities) := by
  rw [beginArgs]
  split
  · next hclose =>
    obtain ⟨rest, rfl⟩ := List.head?_eq_some_iff.1 hclose
    rfl
  · rfl

/-- A word in front of a parenthesis begins the group that the descent begins there. -/
theorem outcome_word_openParen (s : String) (ts : List Token) :
    outcome (tracking (.word s) groups identities) total (.openParen :: ts) =
      (readLead (.word s :: .openParen :: ts)).bind (resumeLead total groups identities) := by
  have hstep : outcome (tracking (.word s) groups identities) total (.openParen :: ts) =
      (openGroup (tracking (.word s) groups identities) s).bind fun q => q.outcome total ts := outcome_cons ..
  rw [hstep, readLead_word_openParen, openGroup]
  cases Keyword.ofWord? s with
  | none => rfl
  | some keyword =>
    cases keyword with
    | all => exact outcome_firstArg ..
    | any => exact outcome_firstArg ..
    -- only here does the opening go on, with a number and a comma
    | outOf =>
      change outcome (tracking .count (⟨.outOf, 0, []⟩ :: groups) identities) total ts =
        ((readOpening .outOf ts).bind beginArgs).bind (resumeLead total groups identities)
      rw [outcome_count, readOpening_outOf]
      cases readCount ts with
      | error e => rfl
      | ok counted =>
        simp only [Except.bind, outcome_commaAfterCount]
        cases readComma counted.2 with
        | error e => rfl
        | ok rest => exact outcome_firstArg ..

/-- The reader makes of the tokens what it makes of those behind the beginning of an expression. -/
theorem ReadyFor.outcome_eq (hp : ReadyFor (tracking stage groups identities) left) :
    outcome (tracking stage groups identities) total left =
      (readLead left).bind (resumeLead total groups identities) := by
  cases left with
  | nil =>
    rw [outcome_nil, hp.1.finish]
    rfl
  | cons t tail =>
    cases t with
    | word s =>
      rw [outcome_cons, hp.1.step_word, Except.bind]
      by_cases hopen : NoOpening tail
      · rw [hp.1.2.outcome_word total hopen, readLead_word hopen, leaf_eq]
        cases Principal.parse s <;> rfl
      · obtain ⟨us, rfl⟩ := exists_of_not_noOpening hopen
        exact outcome_word_openParen ..
    | quoted s =>
      rw [outcome_cons, hp.1.step_quoted, readLead_quoted, leaf_eq]
      cases Principal.parse s <;> rfl
    -- in front of the first argument the reader would close the group, the descent not
    | closeParen =>
      obtain ⟨h | h, hfirst⟩ := hp
      · cases h
        rfl
      · exact absurd rfl (hfirst h)
    | _ =>
      obtain ⟨h | h, -⟩ := hp
      all_goals
        cases h
        rfl

end Outcome

mutual
/-- The reader goes on as if the call had been made at once. -/
theorem ReadsExpr.outcome_eq {stage : Stage} {groups : List Group} {identities : List Principal} {left : List Token}
    {out : Outcome} : ReadsExpr total identities left out → ReadyFor (tracking stage groups identities) left →
      outcome (tracking stage groups identities) total left = resume total groups out
  | .refused hlead, hp => by
    rw [hp.outcome_eq, hlead]
    rfl
  | .principal hlead, hp => by
    rw [hp.outcome_eq, hlead]
    rfl
  | .group hlead hargs, hp => by
    -- behind the opening of a group both expect its first argument
    obtain ⟨d, opening, -, -, -, hne⟩ := exists_opens_of_readLead hlead
    rw [hp.outcome_eq, hlead]
    exact hargs.outcome_eq (readyFor_firstArg _ _ hne)
theorem ReadsArgs.outcome_eq {stage : Stage} {g : Group} {outer : List Group} {identities : List Principal}
    {left : List Token} {out : Outcome} :
    ReadsArgs total g identities left out → ReadyFor (tracking stage (g :: outer) identities) left →
      outcome (tracking stage (g :: outer) identities) total left = resume total outer out
  | .failed h, hp => by
    rw [h.outcome_eq hp]
    rfl
  | .unclosed h, hp => by
    rw [h.outcome_eq hp]
    rfl
  | .comma h hnext, hp => by
    rw [h.outcome_eq hp, resume, outcome_cons, step_supplied_comma]
    exact hnext.outcome_eq (readyFor_expr _ _ _)
  | .closed (r := r) h, hp => by
    rw [h.outcome_eq hp, resume, outcome_cons, step_supplied_closeParen]
    cases (g.push r).close <;> rfl
  | .unexpected (t := t) h hcomma hclose, hp => by
    rw [h.outcome_eq hp]
    cases t with
    | comma => exact absurd rfl hcomma
    | closeParen => exact absurd rfl hclose
    | _ => rfl
end

theorem run_singleton (p : Parser) (t : Token) : p.run [t] = p.step t := by
  rw [run_cons]
  cases p.step t <;> rfl

/-- A word may still be a keyword, so what the reader holds behind a principal shows with the next token. -/
theorem run_principal {stage : Stage} {groups : List Group} {identities : List Principal} {left rest : List Token}
    {x : Principal} (hlead : readLead left = .ok (.principal x, rest)) (hp : Ready (tracking stage groups identities)) :
    ∃ used, left = used ++ rest ∧ ∀ t, rest.head? = some t →
      run (tracking stage groups identities) (used ++ [t]) =
        (supplied groups (noted identities [x]) (.signedBy (place identities x))).step t := by
  obtain ⟨s, hx, hleft⟩ := exists_namedBy_of_readLead hlead
  have hleaf (stage : Stage) : leaf (tracking stage groups identities) s =
      .ok (supplied groups (noted identities [x]) (.signedBy (place identities x))) := by
    rw [leaf_eq, Principal.parse_eq_ok_iff.2 hx]
    rfl
  obtain rfl | ⟨rfl, hopen⟩ := hleft
  · refine ⟨[.quoted s], rfl, fun t _ => ?_⟩
    rw [List.singleton_append, run_cons, hp.step_quoted, hleaf, Except.bind, run_singleton]
  · refine ⟨[.word s], rfl, fun t ht => ?_⟩
    rw [List.singleton_append, run_cons, hp.step_word, Except.bind, run_singleton,
      step_word_of_ne _ s (hopen t ht), hleaf, Except.bind, step_supplied]

mutual
/-- The reader goes through the tokens of a call that succeeds, to its rule. -/
theorem ReadsExpr.exists_run {stage : Stage} {groups : List Group} {identities identities' : List Principal}
    {left rest : List Token} {out : Outcome} {r : Rule} :
    ReadsExpr total identities left out → out = .ok (r, identities', rest) →
      ReadyFor (tracking stage groups identities) left →
      ∃ used, left = used ++ rest ∧ ∀ t, rest.head? = some t →
        run (tracking stage groups identities) (used ++ [t]) = (supplied groups identities' r).step t
  | .refused _, hout, _ => nomatch hout
  | .principal hlead, hout, hp => by
    cases hout
    exact run_principal hlead hp.1
  | .group hlead hargs, hout, hp => by
    obtain ⟨d, opening, ho, hg, hleft, hne⟩ := exists_opens_of_readLead hlead
    obtain ⟨used, hused, hrun⟩ := hargs.exists_run hout (readyFor_firstArg groups identities hne)
    refine ⟨opening ++ used, by rw [hleft, hused, List.append_assoc], fun t _ => ?_⟩
    rw [List.append_assoc, run_append, ho.run hp.1, Except.bind, run_append, opened, ← hg, hrun, Except.bind,
      run_singleton]
/-- Where the descent reads the arguments of a group, the reader comes by the same tokens to the group that is closed.
-/
theorem ReadsArgs.exists_run {stage : Stage} {g : Group} {outer : List Group} {identities identities' : List Principal}
    {left rest : List Token} {out : Outcome} {r : Rule} :
    ReadsArgs total g identities left out → out = .ok (r, identities', rest) →
      ReadyFor (tracking stage (g :: outer) identities) left →
      ∃ used, left = used ++ rest ∧ run (tracking stage (g :: outer) identities) used = .ok (supplied outer identities' r)
  | .failed _, hout, _ | .unclosed _, hout, _ | .unexpected _ _ _, hout, _ => nomatch hout
  | .comma h hnext, hout, hp => by
    obtain ⟨used, hleft, hrun⟩ := h.exists_run rfl hp
    -- the comma brings the reader to the next argument, with the rule in the group
    obtain ⟨used', hrest, hrun'⟩ := hnext.exists_run hout (readyFor_expr _ _ _)
    refine ⟨used ++ [.comma] ++ used', by simp [hleft, hrest], ?_⟩
    rw [run_append, hrun _ rfl, step_supplied_comma, Except.bind, hrun']
  | .closed h, hout, hp => by
    obtain ⟨used, hleft, hrun⟩ := h.exists_run rfl hp
    obtain ⟨group, hclose, heq⟩ := map_eq_ok_iff.1 hout
    cases heq
    refine ⟨used ++ [.closeParen], by simp [hleft], ?_⟩
    rw [hrun _ rfl, step_supplied_closeParen, hclose]
    rfl
end

end Reader

inductive Enters (ts : List Token) : List Group → List Principal → List Token → Prop
  | start : Enters ts [] [] ts
  | first {groups : List Group} {identities : List Principal} {left rest : List Token} {g : Group}
    (h : Enters ts groups identities left) (hlead : readLead left = .ok (.group g, rest)) :
    Enters ts (g :: groups) identities rest
  | next {g : Group} {groups : List Group} {identities identities' : List Principal} {left rest : List Token} {r : Rule}
    (h : Enters ts (g :: groups) identities left)
    (hread : ReadsExpr ts.length identities left (.ok (r, identities', .comma :: rest))) :
    Enters ts (g.push r :: groups) identities' rest

section Entering

open Compact.Parser

variable {ts left : List Token} {groups : List Group} {identities : List Principal} {out : Outcome}

/-- Where the descent reads an expression the reader expects one, with the same groups open. -/
theorem Enters.exists_run (h : Enters ts groups identities left) :
    ∃ read stage, ts = read ++ left ∧ Parser.start.run read = .ok (tracking stage groups identities) ∧
      ReadyFor (tracking stage groups identities) left := by
  induction h with
  | start => exact ⟨[], .expr, rfl, rfl, readyFor_expr _ _ _⟩
  -- the reader goes through the tokens between two calls: an opening, or an expression and a comma
  | first h hlead ih =>
    obtain ⟨read, stage, hts, hrun, hready⟩ := ih
    obtain ⟨d, opening, ho, rfl, rfl, hne⟩ := exists_opens_of_readLead hlead
    refine ⟨read ++ opening, .firstArg, by rw [hts, List.append_assoc], ?_, readyFor_firstArg _ _ hne⟩
    rw [run_append, hrun, Except.bind, ho.run hready.1, opened]
  | next h hread ih =>
    obtain ⟨read, stage, hts, hrun, hready⟩ := ih
    obtain ⟨used, hleft, hused⟩ := hread.exists_run rfl hready
    refine ⟨read ++ (used ++ [.comma]), .expr, by simp [hts, hleft], ?_, readyFor_expr _ _ _⟩
    rw [run_append, hrun, Except.bind, hused _ rfl, step_supplied_comma]

/-- The arguments of the innermost group are those of an expression that the descent has begun to read outside it. -/
theorem Enters.exists_outer {g : Group} {outer : List Group} (h : Enters ts (g :: outer) identities left) :
    ∃ identities₀ left₀, Enters ts outer identities₀ left₀ ∧
      ∀ out, ReadsArgs ts.length g identities left out → ReadsExpr ts.length identities₀ left₀ out := by
  generalize hgroups : g :: outer = groups at h
  induction h generalizing g with
  | start => cases hgroups
  | first h hlead _ =>
    cases hgroups
    exact ⟨_, _, h, fun _ hargs => .group hlead hargs⟩
  | next h hread ih =>
    cases hgroups
    obtain ⟨identities₀, left₀, h₀, hargs₀⟩ := ih rfl
    exact ⟨identities₀, left₀, h₀, fun out hargs => hargs₀ out (.comma hread hargs)⟩

inductive Follows (ts : List Token) : Parser → List Token → Prop
  | expr {groups : List Group} {identities : List Principal} {left : List Token}
    (h : Enters ts groups identities left) : Follows ts (tracking .expr groups identities) left
  | word {s : String} {groups : List Group} {identities : List Principal} {left : List Token}
    (h : Enters ts groups identities (.word s :: left)) : Follows ts (tracking (.word s) groups identities) left
  | count {outer : List Group} {identities : List Principal} {left₀ left : List Token}
    (h : Enters ts outer identities left₀) (hlead : readLead left₀ = (readOpening .outOf left).bind beginArgs) :
    Follows ts (tracking .count (⟨.outOf, 0, []⟩ :: outer) identities) left
  | commaAfterCount {n : UInt32} {outer : List Group} {identities : List Principal} {left₀ left : List Token}
    (h : Enters ts outer identities left₀)
    (hlead : readLead left₀ = (readComma left).bind fun rest => beginArgs (⟨.outOf, n, []⟩, rest)) :
    Follows ts (tracking .commaAfterCount (⟨.outOf, n, []⟩ :: outer) identities) left
  | firstArg {g : Group} {outer : List Group} {identities : List Principal} {left₀ left : List Token}
    (h : Enters ts outer identities left₀) (hlead : readLead left₀ = beginArgs (g, left)) :
    Follows ts (tracking .firstArg (g :: outer) identities) left
  | read {groups : List Group} {identities₀ identities : List Principal} {left₀ left : List Token} {r : Rule}
    (h : Enters ts groups identities₀ left₀)
    (hread : ReadsExpr ts.length identities₀ left₀ (.ok (r, identities, left))) :
    Follows ts (supplied groups identities r) left

variable {p q : Parser} {t : Token}

theorem Enters.first_of_beginArgs {g : Group} {outer : List Group} {left₀ : List Token}
    (h : Enters ts outer identities left₀) (hlead : readLead left₀ = beginArgs (g, left))
    (hne : left.head? ≠ some .closeParen) : Enters ts (g :: outer) identities left :=
  .first h (hlead.trans (beginArgs_eq_ok_iff.2 ⟨hne, rfl, rfl⟩))

theorem Enters.follows_readExpr {stage : Stage} (h : Enters ts groups identities (t :: left))
    (hstep : readExpr (tracking stage groups identities) t = .ok q) : Follows ts q left := by
  cases t with
  | word s =>
    cases hstep
    exact .word h
  | quoted s =>
    rw [readExpr, leaf_eq] at hstep
    obtain ⟨x, hx, rfl⟩ := map_eq_ok_iff.1 hstep
    have hlead : readLead (.quoted s :: left) = .ok (.principal x, left) :=
      readLead_eq_ok_iff.2 (.inl ⟨x, s, Principal.parse_eq_ok_iff.1 hx, rfl, .inl rfl⟩)
    exact .read h (.principal hlead)
  | _ => cases hstep

theorem Enters.follows_readNext {identities₀ : List Principal} {left₀ : List Token} {r : Rule}
    (h : Enters ts groups identities₀ left₀)
    (hread : ReadsExpr ts.length identities₀ left₀ (.ok (r, identities, t :: left)))
    (hstep : (supplied groups identities r).step t = .ok q) : Follows ts q left := by
  cases groups with
  | nil => cases hstep
  | cons g outer =>
    cases t with
    | comma =>
      cases hstep
      exact .expr (.next h hread)
    | closeParen =>
      rw [step_supplied_closeParen] at hstep
      obtain ⟨group, hclose, rfl⟩ := map_eq_ok_iff.1 hstep
      -- the expression that began with this group is read, one level further out
      obtain ⟨identities₁, left₁, h₁, hargs⟩ := h.exists_outer
      have hclosed : ReadsArgs ts.length g identities₀ left₀ _ := .closed hread
      rw [hclose] at hclosed
      exact .read h₁ (hargs _ hclosed)
    | _ => cases hstep

/-- The descent keeps step with the reader. -/
theorem Follows.step (h : Follows ts p (t :: left)) (hstep : p.step t = .ok q) : Follows ts q left := by
  cases h with
  | expr h => exact h.follows_readExpr hstep
  | @word s groups identities _ h =>
    -- the token behind a word tells what the word was, and unless it opens a group it is read as well
    by_cases ht : t = .openParen
    · subst ht
      have hlead := readLead_word_openParen s left
      have hopen : openGroup (tracking (.word s) groups identities) s = .ok q := hstep
      rw [openGroup] at hopen
      cases hkeyword : Keyword.ofWord? s with
      | none =>
        rw [hkeyword] at hopen
        cases hopen
      | some keyword =>
        rw [hkeyword] at hopen hlead
        cases keyword with
        | all | any =>
          cases hopen
          exact .firstArg h hlead
        | outOf =>
          cases hopen
          exact .count h hlead
    · rw [step_word_of_ne (tracking (.word s) groups identities) s ht, leaf_eq] at hstep
      obtain ⟨p', hleaf, hnext⟩ := bind_eq_ok_iff.1 hstep
      obtain ⟨x, hx, rfl⟩ := map_eq_ok_iff.1 hleaf
      have hlead : readLead (.word s :: t :: left) = .ok (.principal x, t :: left) :=
        readLead_eq_ok_iff.2 (.inl ⟨x, s, Principal.parse_eq_ok_iff.1 hx, rfl, .inr ⟨rfl, noOpening_cons ht⟩⟩)
      rw [← step_supplied] at hnext
      exact h.follows_readNext (.principal hlead) hnext
  | count h hlead =>
    cases t with
    | number digits =>
      rw [step_count_number] at hstep
      split at hstep
      · next n hn =>
        cases hstep
        have hcount : readCount (.number digits :: left) = .ok (n, left) := by rw [readCount, hn]
        rw [readOpening_outOf, hcount, Except.bind] at hlead
        apply Follows.commaAfterCount h
        rw [hlead]
        cases readComma left <;> rfl
      · cases hstep
    | _ => cases hstep
  | commaAfterCount h hlead =>
    cases t with
    | comma =>
      cases hstep
      exact .firstArg h hlead
    | _ => cases hstep
  | @firstArg g outer identities _ _ h hlead =>
    by_cases ht : t = .closeParen
    · subst ht
      cases hstep
    · have henters := h.first_of_beginArgs hlead (by simpa using ht)
      have hexpr : readExpr (tracking .firstArg (g :: outer) identities) t = .ok q := by
        rw [← hstep]
        cases t with
        | closeParen => exact absurd rfl ht
        | _ => rfl
      exact henters.follows_readExpr hexpr
  | read h hread => exact h.follows_readNext hread hstep

/-- So it does over any tokens. -/
theorem Follows.run {read : List Token} (h : Follows ts p (read ++ left)) (hrun : p.run read = .ok q) :
    Follows ts q left := by
  induction read generalizing p with
  | nil =>
    cases hrun
    exact h
  | cons t read ih =>
    rw [run_cons, bind_eq_ok_iff] at hrun
    obtain ⟨p', hstep, hrun⟩ := hrun
    exact ih (h.step hstep) hrun

theorem Follows.enters (h : Follows ts p left) (hready : ReadyFor p left) :
    Enters ts p.groups p.identities left := by
  cases h with
  | expr h => exact h
  | firstArg h hlead => exact h.first_of_beginArgs hlead (hready.2 rfl)
  | word _ | count _ _ | commaAfterCount _ _ => cases hready.1.1 <;> contradiction
  | @read groups _ _ _ _ _ _ => cases groups <;> cases hready.1.1 <;> contradiction

theorem Follows.tracks (h : Follows ts p left) : p.Tracks := by
  cases h with
  | @read groups _ _ _ _ _ _ => cases groups <;> rfl
  | _ => rfl

/-- Wherever the reader comes to, the index that it looks up for a principal is its place in the list, and it finds one
exactly for those that the list holds. -/
theorem lookup_seen {read : List Token} (h : Parser.start.run read = .ok p) (x : Principal) :
    p.seen.lookup x =
      if x ∈ p.identities then some (UInt32.ofNat (p.identities.idxOf x)) else none := by
  have hfollows : Follows read Parser.start (read ++ []) := (List.append_nil read).symm ▸ .expr .start
  have htracks : p.seen = indices p.identities := (hfollows.run h).tracks
  rw [htracks, lookup_indices]

/-- The descent reads an expression exactly where the reader expects one, with the same groups open. -/
theorem enters_iff : Enters ts groups identities left ↔
    ∃ read stage, ts = read ++ left ∧ Parser.start.run read = .ok (tracking stage groups identities) ∧
      ReadyFor (tracking stage groups identities) left := by
  constructor
  · exact Enters.exists_run
  · rintro ⟨read, stage, hts, hrun, hready⟩
    have hstart : Follows ts Parser.start (read ++ left) := hts ▸ .expr .start
    exact (hstart.run hrun).enters hready

end Entering

end Fabric.Compact.Descent

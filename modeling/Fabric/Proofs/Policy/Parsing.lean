import Fabric.Proofs.Policy.Indexing

namespace Fabric.Compact

theorem Opens.checkNesting {d : Demand} {opening : List Token} (ho : Opens d opening) (depth offset : Nat)
    (rest : List Token) :
    checkNesting depth offset (opening ++ rest) =
      if depth + 1 ≤ Policy.maxDepth then checkNesting (depth + 1) (offset + opening.length) rest
      else .error (.tooDeep Policy.maxDepth) := by
  by_cases hd : depth + 1 ≤ Policy.maxDepth
  · cases ho <;> simp [Compact.checkNesting, hd, Nat.not_lt.2 hd, Nat.add_assoc]
  · cases ho <;> simp [Compact.checkNesting, hd, Nat.not_le.1 hd]

mutual
/-- The check of parentheses passes over an expression unless the groups in it are nested too deep. -/
theorem Derives.checkNesting {e : Expr} {ts : List Token} {depth offset : Nat} {rest : List Token} :
    Derives e ts → depth ≤ Policy.maxDepth →
      checkNesting depth offset (ts ++ rest) =
        if depth + e.nesting ≤ Policy.maxDepth then checkNesting depth (offset + ts.length) rest
        else .error (.tooDeep Policy.maxDepth)
  | .word _, hd | .quoted _, hd => by simp [Compact.checkNesting, Expr.nesting, hd]
  | .group ho ha _, hd => by
    simp only [List.append_assoc, List.length_append, ho.checkNesting, Expr.nesting]
    split
    · next hd' =>
      -- the parenthesis behind the arguments takes the depth back
      rw [ha.checkNesting hd']
      simp [Compact.checkNesting, Nat.add_assoc, Nat.add_comm 1]
    · rw [if_neg (by omega)]
/-- Arguments pass the check of nesting if the groups around them and the deepest of their own are within the limit. -/
theorem DerivesArgs.checkNesting {es : List Expr} {ts : List Token} {depth offset : Nat} {rest : List Token} :
    DerivesArgs es ts → depth ≤ Policy.maxDepth →
      checkNesting depth offset (ts ++ rest) =
        if depth + Expr.nestingOf es ≤ Policy.maxDepth then checkNesting depth (offset + ts.length) rest
        else .error (.tooDeep Policy.maxDepth)
  | .one h, hd => by simpa [Expr.nestingOf] using h.checkNesting hd
  | .more h hs, hd => by
    have hcomma : ∀ offset us, Compact.checkNesting depth offset (.comma :: us) =
        Compact.checkNesting depth (offset + 1) us := fun _ _ => rfl
    rw [List.append_assoc, h.checkNesting hd, List.cons_append, hcomma, hs.checkNesting hd, Expr.nestingOf]
    split
    · next hle =>
      have hlen : ∀ k l, offset + (k + (l + 1)) = offset + k + 1 + l := by omega
      rw [List.length_append, List.length_cons, hlen]
      -- the first argument is not too deep, so only the others count
      exact ite_congr (propext (by omega)) (fun _ => rfl) (fun _ => rfl)
    · rw [if_neg (by omega)]
end

def NoOpening (ts : List Token) : Prop := ∀ t, ts.head? = some t → t ≠ .openParen

theorem noOpening_cons {t : Token} {ts : List Token} (ht : t ≠ .openParen) : NoOpening (t :: ts) := by
  intro u hu
  cases hu
  exact ht

theorem noOpening_nil : NoOpening [] := by
  intro t ht
  cases ht

theorem exists_of_not_noOpening {ts : List Token} (h : ¬ NoOpening ts) : ∃ us, ts = .openParen :: us := by
  cases ts with
  | nil => exact absurd noOpening_nil h
  | cons t us => exact ⟨us, by rw [Decidable.byContradiction fun ht => h (noOpening_cons ht)]⟩

theorem noOpening_comma (ts : List Token) : NoOpening (.comma :: ts) := noOpening_cons nofun

theorem noOpening_closeParen (ts : List Token) : NoOpening (.closeParen :: ts) := noOpening_cons nofun

def Demand.opened : Demand → Group
  | .all => ⟨.all, 0, []⟩
  | .any => ⟨.any, 0, []⟩
  | .outOf n => ⟨.outOf, n, []⟩

/-- A group can be closed exactly if what it asks for fits the arguments that it has. -/
theorem Demand.close_eq_ok_iff {d : Demand} {rules : List Rule} {r : Rule} :
    Group.close { d.opened with rules := rules.reverse } = .ok r ↔
      d.Fits rules.length ∧ r = .nOutOf (d.count rules.length) rules := by
  cases d with
  | all | any => simp [opened, Group.close, Fits, count, eq_comm]
  | outOf n =>
    have hn : n = 0 ↔ n.toNat = 0 := UInt32.toNat_inj.symm
    simp only [opened, Group.close, List.reverse_reverse, Fits, count]
    split
    · next h =>
      have hno : ¬ (1 ≤ n.toNat ∧ n.toNat ≤ rules.length) := by
        rw [hn] at h
        omega
      simp [hno]
    · next h =>
      have hfit : 1 ≤ n.toNat ∧ n.toNat ≤ rules.length := by
        rw [hn] at h
        omega
      simp [hfit, eq_comm]

def Keyword.name : Keyword → String
  | .all => "AND"
  | .any => "OR"
  | .outOf => "OUTOF"

theorem Keyword.ofWord?_eq_some_iff {s : String} {k : Keyword} :
    Keyword.ofWord? s = some k ↔ s.toUpper = k.name := by
  constructor
  · intro h
    rw [ofWord?] at h
    split at h <;> first | cases h; assumption | cases h
  · intro h
    rw [ofWord?, h]
    cases k <;> rfl

namespace Parser

def outcome (p : Parser) (offset : Nat) (ts : List Token) : Except PolicyError Policy := do
  (← p.run ts).finish offset

theorem outcome_nil (p : Parser) (offset : Nat) : p.outcome offset [] = p.finish offset := rfl

theorem run_cons (p : Parser) (t : Token) (ts : List Token) :
    p.run (t :: ts) = (p.step t).bind fun q => q.run ts := List.foldlM_cons ..

theorem run_append (p : Parser) (before after : List Token) :
    p.run (before ++ after) = (p.run before).bind fun q => q.run after := List.foldlM_append ..

theorem outcome_append (p : Parser) (offset : Nat) (before after : List Token) :
    p.outcome offset (before ++ after) = (p.run before).bind fun q => q.outcome offset after := by
  rw [outcome, run_append]
  cases p.run before <;> rfl

theorem outcome_cons (p : Parser) (offset : Nat) (t : Token) (ts : List Token) :
    p.outcome offset (t :: ts) = (p.step t).bind fun q => q.outcome offset ts := by
  rw [outcome, run, List.foldlM_cons]
  cases p.step t <;> rfl

def take (p : Parser) (e : Expr) : Parser :=
  let identities := noted p.identities e.principals
  { p with identities, seen := indices identities }.supply (e.rule identities)

theorem Tracks.leaf_eq_ok_iff {p q : Parser} (hp : p.Tracks) {s : String} :
    p.leaf s = .ok q ↔ ∃ x : Principal, x.NamedBy s ∧ q = p.take (.principal x) := by
  simp only [hp.leaf_eq, map_eq_ok_iff, Principal.parse_eq_ok_iff, @eq_comm Parser q]
  rfl

theorem leaf_with_stage (p : Parser) (stage : Stage) (s : String) : { p with stage }.leaf s = p.leaf s := by
  obtain ⟨stage', groups, identities, seen⟩ := p
  cases groups <;> rfl

/-- A complete expression is followed by a comma or the end of its group, or by nothing. -/
theorem step_take (p : Parser) (e : Expr) (t : Token) : (p.take e).step t = (p.take e).readNext t := by
  obtain ⟨stage, groups, identities, seen⟩ := p
  cases groups with
  | nil => cases t <;> rfl
  | cons g outer => rfl

theorem step_word_openParen (p : Parser) (s : String) :
    step { p with stage := .word s } .openParen = p.openGroup s := rfl

/-- A word in front of any other token was a principal, and the token is read behind it. -/
theorem step_word_of_ne (p : Parser) (s : String) {t : Token} (ht : t ≠ .openParen) :
    step { p with stage := .word s } t = (p.leaf s).bind fun q => q.readNext t := by
  rw [← leaf_with_stage p (.word s) s]
  cases t with
  | openParen => exact absurd rfl ht
  | _ => rfl

/-- A word that opens no group is a principal. -/
theorem Tracks.outcome_word {p : Parser} (hp : p.Tracks) (offset : Nat) {s : String} {rest : List Token}
    (hrest : NoOpening rest) :
    outcome { p with stage := .word s } offset rest = (p.leaf s).bind fun q => q.outcome offset rest := by
  cases rest with
  | nil =>
    simp only [outcome_nil, finish, leaf_with_stage]
    cases hl : p.leaf s with
    | error e => rfl
    | ok q =>
      obtain ⟨x, -, rfl⟩ := hp.leaf_eq_ok_iff.1 hl
      cases hg : p.groups <;> simp [take, supply, hg, bind, Except.bind, pure, Except.pure]
  | cons t rest =>
    -- the token that follows shows that the word was a principal
    rw [outcome_cons, step_word_of_ne p s (hrest t rfl)]
    cases hl : p.leaf s with
    | error e => rfl
    | ok q =>
      obtain ⟨x, -, rfl⟩ := hp.leaf_eq_ok_iff.1 hl
      simp only [Except.bind, outcome_cons, step_take]

theorem outcome_cons_eq_ok_iff {p : Parser} {offset : Nat} {t : Token} {ts : List Token} {policy : Policy} :
    p.outcome offset (t :: ts) = .ok policy ↔ ∃ q, p.step t = .ok q ∧ q.outcome offset ts = .ok policy := by
  rw [outcome_cons, bind_eq_ok_iff]

def Ready (p : Parser) : Prop := (p.stage = .expr ∨ p.stage = .firstArg) ∧ p.Tracks

abbrev tracking (stage : Stage) (groups : List Group) (identities : List Principal) : Parser :=
  ⟨stage, groups, identities, indices identities⟩

theorem ready_expr (groups : List Group) (identities : List Principal) : (tracking .expr groups identities).Ready :=
  ⟨.inl rfl, rfl⟩

theorem ready_firstArg (groups : List Group) (identities : List Principal) :
    (tracking .firstArg groups identities).Ready := ⟨.inr rfl, rfl⟩

theorem Ready.step_word {p : Parser} (hp : p.Ready) (s : String) :
    p.step (.word s) = .ok { p with stage := .word s } := by
  obtain ⟨stage, groups, identities, seen⟩ := p
  obtain h | h := hp.1
  all_goals
    cases h
    rfl

theorem Ready.step_quoted {p : Parser} (hp : p.Ready) (s : String) : p.step (.quoted s) = p.leaf s := by
  obtain ⟨stage, groups, identities, seen⟩ := p
  obtain h | h := hp.1
  all_goals
    cases h
    rfl

/-- An expression begins with a word or a quoted text. -/
theorem Ready.step_eq_ok {p q : Parser} {t : Token} (hp : p.Ready) (h : p.step t = .ok q) :
    ∃ s, t = .word s ∨ t = .quoted s := by
  cases t with
  | word s => exact ⟨s, .inl rfl⟩
  | quoted s => exact ⟨s, .inr rfl⟩
  | _ =>
    obtain ⟨stage, groups, identities, seen⟩ := p
    obtain hp | hp := hp.1
    all_goals
      cases hp
      cases h

theorem Ready.finish {p : Parser} (hp : p.Ready) (offset : Nat) : p.finish offset = .error .empty := by
  obtain ⟨stage, groups, identities, seen⟩ := p
  obtain h | h := hp.1
  all_goals
    cases h
    rfl

theorem step_count_number (groups : List Group) (identities : List Principal) (digits : String) :
    step (tracking .count groups identities) (.number digits) =
      match Word.uint32? (Nat.ofDigitChars 10 digits.toList 0) with
      | some n => .ok (tracking .commaAfterCount (groups.modifyHead fun g => { g with count := n }) identities)
      | none => .error (.invalidOutOfCount digits) := rfl

/-- Behind the keyword of a group that is counted stand a number and a comma. -/
theorem exists_count {groups : List Group} {identities : List Principal} {offset : Nat} {ts : List Token}
    {policy : Policy} (h : outcome (tracking .count (⟨.outOf, 0, []⟩ :: groups) identities) offset ts = .ok policy) :
    ∃ (digits : String) (n : UInt32) (rest : List Token), ts = .number digits :: .comma :: rest ∧
      Nat.ofDigitChars 10 digits.toList 0 = n.toNat ∧
      outcome (tracking .firstArg (⟨.outOf, n, []⟩ :: groups) identities) offset rest = .ok policy := by
  cases ts with
  | nil => cases h
  | cons t ts =>
    obtain ⟨q, hq, h⟩ := outcome_cons_eq_ok_iff.1 h
    cases t with
    | number digits =>
      rw [step_count_number] at hq
      split at hq
      · next n hn =>
        cases hq
        cases ts with
        | nil => cases h
        | cons t ts =>
          obtain ⟨q, hq, h⟩ := outcome_cons_eq_ok_iff.1 h
          cases t with
          | comma =>
            cases hq
            exact ⟨digits, n, ts, rfl, Word.uint32?_natCast_eq_some_iff.1 hn, h⟩
          | _ => cases hq
      · cases hq
    | _ => cases hq

def opened (p : Parser) (d : Demand) : Parser := tracking .firstArg (d.opened :: p.groups) p.identities

def takeArgs (g : Group) (outer : List Group) (identities : List Principal) (es : List Expr) : Parser :=
  let identities := noted identities (Expr.principalsOf es)
  tracking .nextArg ({ g with rules := (Expr.rules identities es).reverse ++ g.rules } :: outer) identities

theorem take_eq_takeArgs (stage : Stage) (g : Group) (outer : List Group) (identities : List Principal)
    (e : Expr) : take (tracking stage (g :: outer) identities) e = takeArgs g outer identities [e] := by
  simp [take, supply, takeArgs, Expr.principalsOf, Expr.rules]

/-- Arguments are followed by a comma or the end of their group. -/
theorem exists_of_takeArgs {g : Group} {outer : List Group} {identities : List Principal} {es : List Expr}
    {offset : Nat} {ts : List Token} {policy : Policy}
    (h : (takeArgs g outer identities es).outcome offset ts = .ok policy) :
    ∃ rest, ts = .closeParen :: rest ∨ ts = .comma :: rest := by
  cases ts with
  | nil => cases h
  | cons t ts =>
    obtain ⟨q, hq, -⟩ := outcome_cons_eq_ok_iff.1 h
    cases t with
    | closeParen => exact ⟨ts, .inl rfl⟩
    | comma => exact ⟨ts, .inr rfl⟩
    | _ => cases hq

/-- A comma behind an argument makes room for another. -/
theorem step_comma (g : Group) (outer : List Group) (identities : List Principal) (e : Expr) :
    (takeArgs g outer identities [e]).step .comma =
      .ok (tracking .expr ({ g with rules := e.rule (noted identities e.principals) :: g.rules } :: outer)
        (noted identities e.principals)) := by
  have hstep : (takeArgs g outer identities [e]).step .comma =
      .ok { takeArgs g outer identities [e] with stage := .expr } := rfl
  rw [hstep]
  simp [takeArgs, Expr.principalsOf, Expr.rules]

theorem takeArgs_cons (g : Group) (outer : List Group) (identities : List Principal) (e : Expr)
    (es : List Expr) : takeArgs g outer identities (e :: es) =
      takeArgs { g with rules := e.rule (noted identities e.principals) :: g.rules } outer
        (noted identities e.principals) es := by
  simp only [takeArgs, rules_cons_noted, List.reverse_cons, List.append_assoc, List.singleton_append]
  rw [Expr.principalsOf, noted_append]

/-- The end of a group's arguments closes it, if its number fits them. -/
theorem step_closeParen {p : Parser} {d : Demand} {es : List Expr} {q : Parser} :
    (takeArgs d.opened p.groups p.identities es).step .closeParen = .ok q ↔
      d.Fits es.length ∧ q = p.take (.group d es) := by
  have hlen := Expr.length_rules (noted p.identities (Expr.principalsOf es)) es
  have hopened : d.opened.rules = [] := by cases d <;> rfl
  have hstep : (takeArgs d.opened p.groups p.identities es).step .closeParen =
      (Group.close { d.opened with
        rules := (Expr.rules (noted p.identities (Expr.principalsOf es)) es).reverse ++ d.opened.rules }).bind
      fun r => .ok (supply (tracking .nextArg p.groups (noted p.identities (Expr.principalsOf es))) r) := rfl
  rw [hstep, hopened, List.append_nil]
  cases hc : Group.close { d.opened with
      rules := (Expr.rules (noted p.identities (Expr.principalsOf es)) es).reverse } with
  | error e =>
    have hno : ¬ d.Fits es.length := fun h => by
      rw [Demand.close_eq_ok_iff.2 ⟨hlen ▸ h, rfl⟩] at hc
      cases hc
    simp [Except.bind, hno]
  | ok r =>
    obtain ⟨hfits, rfl⟩ := Demand.close_eq_ok_iff.1 hc
    rw [hlen] at hfits
    simp [Except.bind, hfits, hlen, take, Expr.principals, Expr.rule, supply, eq_comm]

end Parser

open Compact.Parser

/-- The reader passes over what a group begins with. -/
theorem Opens.run {d : Demand} {opening : List Token} (ho : Opens d opening) {p : Parser} (hp : p.Ready) :
    p.run opening = .ok (p.opened d) := by
  obtain ⟨stage, groups, identities, seen⟩ := p
  obtain rfl : seen = indices identities := hp.2
  -- the word alone opens nothing, so both tokens are read before the group is looked at
  have hgroup (s : String) (ts : List Token) : (tracking stage groups identities).run (.word s :: .openParen :: ts) =
      ((tracking stage groups identities).openGroup s).bind fun q => q.run ts := by
    rw [run_cons, hp.step_word, Except.bind, run_cons]
    rfl
  cases ho with
  | all h =>
    have hword : Keyword.ofWord? _ = some .all := Keyword.ofWord?_eq_some_iff.2 h
    rw [hgroup, openGroup, hword]
    rfl
  | any h =>
    have hword : Keyword.ofWord? _ = some .any := Keyword.ofWord?_eq_some_iff.2 h
    rw [hgroup, openGroup, hword]
    rfl
  | outOf h hn =>
    have hword : Keyword.ofWord? _ = some .outOf := Keyword.ofWord?_eq_some_iff.2 h
    have hcount : Word.uint32? _ = some _ := Word.uint32?_natCast_eq_some_iff.2 hn
    rw [hgroup, openGroup, hword, Except.bind, run_cons, step_count_number, hcount]
    rfl

theorem Opens.outcome {d : Demand} {opening : List Token} (ho : Opens d opening) {p : Parser} (hp : p.Ready)
    (offset : Nat) (rest : List Token) :
    p.outcome offset (opening ++ rest) = (p.opened d).outcome offset rest := by
  rw [outcome_append, ho.run hp, Except.bind]

-- The induction is on the derivation, for every reader: the groups that are open and the principals noted
-- before an expression are others for each argument of a group.
mutual
/-- Where tokens derive an expression the reader goes on as if it had been supplied at once. -/
theorem Derives.outcome {e : Expr} {ts : List Token} {p : Parser} {offset : Nat} {rest : List Token} :
    Derives e ts → p.Ready → NoOpening rest → p.outcome offset (ts ++ rest) = (p.take e).outcome offset rest
  | .word h, hp, hrest => by
    rw [List.singleton_append, outcome_cons, hp.step_word, Except.bind, hp.2.outcome_word offset hrest,
      hp.2.leaf_eq_ok_iff.2 ⟨_, h, rfl⟩, Except.bind]
  | .quoted h, hp, hrest => by
    rw [List.singleton_append, outcome_cons, hp.step_quoted, hp.2.leaf_eq_ok_iff.2 ⟨_, h, rfl⟩, Except.bind]
  | .group ho ha hd, hp, hrest => by
    rw [List.append_assoc, ho.outcome hp, List.append_assoc, List.singleton_append, opened,
      ha.outcome (ready_firstArg _ _), outcome_cons, step_closeParen.2 ⟨hd, rfl⟩, Except.bind]
theorem DerivesArgs.outcome {es : List Expr} {ts : List Token} {stage : Stage} {g : Group} {outer : List Group}
    {identities : List Principal} {offset : Nat} {rest : List Token} :
    DerivesArgs es ts → Ready (tracking stage (g :: outer) identities) →
      Parser.outcome (tracking stage (g :: outer) identities) offset (ts ++ .closeParen :: rest) =
        (takeArgs g outer identities es).outcome offset (.closeParen :: rest)
  | .one h, hp => by rw [h.outcome hp (noOpening_closeParen rest), take_eq_takeArgs]
  | .more h hs, hp => by
    rw [List.append_assoc, List.cons_append, h.outcome hp (noOpening_comma _), take_eq_takeArgs, outcome_cons,
      step_comma, Except.bind, hs.outcome (ready_expr _ _), takeArgs_cons]
end

/-- Where a word and a parenthesis are read to the end of a policy, they begin a group. -/
theorem Parser.Tracks.exists_opens {p : Parser} (hp : p.Tracks) {offset : Nat} {s : String} {ts : List Token}
    {policy : Policy} (h : Parser.outcome { p with stage := .word s } offset (.openParen :: ts) = .ok policy) :
    ∃ d opening rest, .word s :: .openParen :: ts = opening ++ rest ∧ Opens d opening ∧
      (p.opened d).outcome offset rest = .ok policy := by
  obtain ⟨stage, groups, identities, seen⟩ := p
  obtain rfl : seen = indices identities := hp
  obtain ⟨q, hq, h⟩ := outcome_cons_eq_ok_iff.1 h
  rw [step_word_openParen, openGroup] at hq
  cases hk : Keyword.ofWord? s with
  | none =>
    rw [hk] at hq
    cases hq
  | some k =>
    have hname := Keyword.ofWord?_eq_some_iff.1 hk
    cases k with
    | all =>
      rw [hk] at hq
      cases hq
      exact ⟨.all, [.word s, .openParen], ts, rfl, .all hname, h⟩
    | any =>
      rw [hk] at hq
      cases hq
      exact ⟨.any, [.word s, .openParen], ts, rfl, .any hname, h⟩
    | outOf =>
      rw [hk] at hq
      cases hq
      obtain ⟨digits, n, rest, rfl, hn, h⟩ := exists_count h
      exact ⟨.outOf n, [.word s, .openParen, .number digits, .comma], rest, rfl, .outOf hname hn, h⟩

theorem Opens.length_pos {d : Demand} {opening : List Token} (ho : Opens d opening) : 1 ≤ opening.length := by
  cases ho <;> simp

-- The induction is on the number of tokens. Arguments begin with an expression, so the second statement uses
-- the first of the same tokens, while the first uses the second of those behind an opening, which are fewer.
mutual
/-- What is read to the end of a policy, where an expression is expected, begins with an expression. -/
theorem exists_derives {p : Parser} {offset : Nat} {ts : List Token} {policy : Policy} (hp : p.Ready)
    (h : p.outcome offset ts = .ok policy) :
    ∃ e us rest, ts = us ++ rest ∧ Derives e us ∧ (p.take e).outcome offset rest = .ok policy := by
  cases hts : ts with
  | nil =>
    rw [hts, outcome_nil, hp.finish] at h
    cases h
  | cons t tail =>
    rw [hts] at h
    obtain ⟨q, hq, h⟩ := outcome_cons_eq_ok_iff.1 h
    obtain ⟨s, rfl | rfl⟩ := hp.step_eq_ok hq
    · rw [hp.step_word] at hq
      cases hq
      -- one token more tells a principal from the keyword of a group
      by_cases hopen : NoOpening tail
      · rw [hp.2.outcome_word offset hopen] at h
        obtain ⟨q, hq, h⟩ := bind_eq_ok_iff.1 h
        obtain ⟨x, hx, rfl⟩ := hp.2.leaf_eq_ok_iff.1 hq
        exact ⟨.principal x, [.word s], tail, rfl, .word hx, h⟩
      · obtain ⟨us, rfl⟩ := exists_of_not_noOpening hopen
        obtain ⟨d, opening, inner, hsplit, ho, h⟩ := hp.2.exists_opens h
        have hlt : inner.length < ts.length := by
          have hpos : 1 ≤ opening.length := ho.length_pos
          rw [hts, hsplit, List.length_append]
          omega
        obtain ⟨es, vs, rest, hinner, hes, h⟩ := exists_derivesArgs (ready_firstArg _ _) h
        obtain ⟨q, hq, h⟩ := outcome_cons_eq_ok_iff.1 h
        obtain ⟨hfits, rfl⟩ := step_closeParen.1 hq
        have htokens : .word s :: .openParen :: us = (opening ++ (vs ++ [.closeParen])) ++ rest := by
          rw [hsplit, hinner]
          simp
        exact ⟨.group d es, opening ++ (vs ++ [.closeParen]), rest, htokens, .group ho hes hfits, h⟩
    · rw [hp.step_quoted] at hq
      obtain ⟨x, hx, rfl⟩ := hp.2.leaf_eq_ok_iff.1 hq
      exact ⟨.principal x, [.quoted s], tail, rfl, .quoted hx, h⟩
termination_by (ts.length, 0)
/-- Where arguments are expected, it begins with arguments and the end of their group. -/
theorem exists_derivesArgs {stage : Stage} {g : Group} {outer : List Group} {identities : List Principal}
    {offset : Nat} {ts : List Token} {policy : Policy} (hp : Ready (tracking stage (g :: outer) identities))
    (h : Parser.outcome (tracking stage (g :: outer) identities) offset ts = .ok policy) :
    ∃ es us rest, ts = us ++ .closeParen :: rest ∧ DerivesArgs es us ∧
      (takeArgs g outer identities es).outcome offset (.closeParen :: rest) = .ok policy := by
  obtain ⟨e, us, tail, hts, he, h⟩ := exists_derives hp h
  rw [take_eq_takeArgs] at h
  obtain ⟨rest, rfl | rfl⟩ := exists_of_takeArgs h
  · exact ⟨[e], us, rest, hts, .one he, h⟩
  · have hlt : rest.length < ts.length := by
      rw [hts, List.length_append, List.length_cons]
      omega
    rw [outcome_cons, step_comma, Except.bind] at h
    obtain ⟨es, vs, rest', rfl, hes, h⟩ := exists_derivesArgs (ready_expr _ _) h
    exact ⟨e :: es, us ++ .comma :: vs, rest', by simp [hts], .more he hes, takeArgs_cons .. ▸ h⟩
termination_by (ts.length, 1)
end

end Fabric.Compact

import Fabric.Proofs.Policy.Rendering

namespace Fabric.Compact

def names : List Token → List String
  | [] => []
  | .word s :: ts => if ts.head? = some .openParen then names ts else s :: names ts
  | .quoted s :: ts => s :: names ts
  | _ :: ts => names ts

theorem Opens.names {d : Demand} {opening : List Token} (ho : Opens d opening) (ts : List Token) :
    names (opening ++ ts) = names ts := by
  cases ho <;> simp [Compact.names]

mutual
/-- The texts of an expression name its principals. -/
theorem Derives.names {e : Expr} {us ts : List Token} : Derives e us → NoOpening ts →
    (names (us ++ ts)).map Principal.parse = e.principals.map .ok ++ (names ts).map Principal.parse
  | .word h, hts => by
    have hno : ts.head? ≠ some .openParen := fun h => hts _ h rfl
    simp [Compact.names, hno, Expr.principals, Principal.parse_eq_ok_iff.2 h]
  | .quoted h, _ => by simp [Compact.names, Expr.principals, Principal.parse_eq_ok_iff.2 h]
  | .group ho ha _, _ => by
    rw [List.append_assoc, ho.names, List.append_assoc, List.singleton_append, ha.names (noOpening_closeParen _)]
    rfl
theorem DerivesArgs.names {es : List Expr} {us ts : List Token} : DerivesArgs es us → NoOpening ts →
    (names (us ++ ts)).map Principal.parse = (Expr.principalsOf es).map .ok ++ (names ts).map Principal.parse
  | .one h, hts => by simpa [Expr.principalsOf] using h.names hts
  | .more h hs, hts => by
    rw [List.append_assoc, List.cons_append, h.names (noOpening_comma _), Expr.principalsOf, List.map_append,
      List.append_assoc, ← hs.names hts]
    rfl
end

theorem Derives.parse_names {e : Expr} {ts : List Token} (he : Derives e ts) :
    (Compact.names ts).map Principal.parse = e.principals.map .ok := by
  simpa [Compact.names] using he.names noOpening_nil

theorem Derives.exists_name {e : Expr} {ts : List Token} (he : Derives e ts) {x : Principal}
    (hx : x ∈ e.principals) : ∃ s ∈ Compact.names ts, x.NamedBy s := by
  have hmem : Except.ok x ∈ (Compact.names ts).map Principal.parse := by
    rw [he.parse_names]
    exact List.mem_map_of_mem hx
  obtain ⟨s, hs, hparse⟩ := List.mem_map.1 hmem
  exact ⟨s, hs, Principal.parse_eq_ok_iff.1 hparse⟩

/-- A text that holds a single quote stands in double quotes, and so holds none of those. -/
theorem Lexes.quotes_of_mem_names {cs : List Char} {ts : List Token} (hl : Lexes cs ts) {s : String}
    (hs : s ∈ Compact.names ts) (hquote : '\'' ∈ s.toList) : '"' ∉ s.toList ∧ '"' ∈ cs := by
  induction hl with
  | done => cases hs
  | blank _ _ ih =>
    obtain ⟨hno, hmem⟩ := ih hs
    exact ⟨hno, List.mem_cons_of_mem _ hmem⟩
  | @quoted q body rest ts hq hb _ ih =>
    rcases List.mem_cons.1 hs with rfl | hs
    · rw [String.toList_ofList] at hquote ⊢
      simp only [Token.isQuote, Bool.or_eq_true, decide_eq_true_eq] at hq
      -- a text with a single quote in it stands between double quotes
      rcases hq with rfl | rfl
      · exact absurd hquote hb
      · exact ⟨hb, List.mem_cons_self ..⟩
    · obtain ⟨hno, hmem⟩ := ih hs
      exact ⟨hno, by simp [hmem]⟩
  | @word run rest ts _ hrun _ _ _ ih =>
    have htext : s = String.ofList run ∨ s ∈ Compact.names ts := by
      rw [Compact.names] at hs
      split at hs
      · exact .inr hs
      · exact List.mem_cons.1 hs
    rcases htext with rfl | hs
    · rw [String.toList_ofList] at hquote
      exact absurd (hrun _ hquote) (by decide)
    · obtain ⟨hno, hmem⟩ := ih hs
      exact ⟨hno, List.mem_append_right _ hmem⟩
  | number _ _ _ _ ih =>
    obtain ⟨hno, hmem⟩ := ih hs
    exact ⟨hno, List.mem_append_right _ hmem⟩
  | openParen _ ih | closeParen _ ih | comma _ ih =>
    obtain ⟨hno, hmem⟩ := ih hs
    exact ⟨hno, List.mem_cons_of_mem _ hmem⟩

theorem doubleQuote_notMem_groupOpening (n : UInt32) (k : Nat) : '"' ∉ groupOpening n k := by
  have hdigits : '"' ∉ Nat.toDigits 10 n.toNat := by
    intro hmem
    exact absurd (Nat.isDigit_of_mem_toDigits (by decide) (by decide) hmem) (by decide)
  rw [groupOpening]
  split
  · decide
  · split
    · decide
    · simp [hdigits]

mutual
/-- A double quote in a printed rule is one of an organisation's id. -/
theorem exists_of_doubleQuote_mem_ruleText {identities : List Principal} :
    ∀ {r : Rule}, '"' ∈ ruleText identities r → ∃ x ∈ r.referenced identities, '"' ∈ x.mspId.toList
  | .signedBy i, h => by
    rw [ruleText, List.mem_flatMap] at h
    obtain ⟨x, hx, hquote⟩ := h
    have hkey : '"' ∈ x.key.toList := by simpa using hquote
    exact ⟨x, hx, (Principal.quote_mem_key (.inr rfl)).1 hkey⟩
  | .nOutOf n rules, h => by
    have hrules : '"' ∈ rulesText identities true rules := by
      simpa [ruleText, doubleQuote_notMem_groupOpening] using h
    exact exists_of_doubleQuote_mem_rulesText hrules
/-- A double quote in the printed rules comes from the id of some principal. -/
theorem exists_of_doubleQuote_mem_rulesText {identities : List Principal} {first : Bool} :
    ∀ {rules : List Rule}, '"' ∈ rulesText identities first rules →
      ∃ x ∈ Rule.referencedIn identities rules, '"' ∈ x.mspId.toList
  | [], h => by cases h
  | r :: rs, h => by
    have hparts : '"' ∈ ruleText identities r ∨ '"' ∈ rulesText identities false rs := by
      cases first with
      | true => simpa [rulesText_cons] using h
      | false => simpa [rulesText_false_cons, rulesText_cons] using h
    rw [Rule.referencedIn]
    rcases hparts with hr | hrs
    · obtain ⟨x, hx, hquote⟩ := exists_of_doubleQuote_mem_ruleText hr
      exact ⟨x, List.mem_append_left _ hx, hquote⟩
    · obtain ⟨x, hx, hquote⟩ := exists_of_doubleQuote_mem_rulesText hrs
      exact ⟨x, List.mem_append_right _ hx, hquote⟩
end

def Torn (xs : List Principal) (texts : List String) : Prop :=
  ∃ (n : Nat) (x : Principal) (s : String), xs[n]? = some x ∧ texts[n]? = some s ∧
    '\'' ∈ x.mspId.toList ∧ '\'' ∉ s.toList

theorem Torn.append_left {xs ys : List Principal} {texts texts' : List String} (h : Torn ys texts')
    (hlen : texts.length = xs.length) : Torn (xs ++ ys) (texts ++ texts') := by
  obtain ⟨n, x, s, hx, hs, hquote⟩ := h
  refine ⟨xs.length + n, x, s, ?_, ?_, hquote⟩
  · rw [List.getElem?_append_right (Nat.le_add_right ..), Nat.add_sub_cancel_left, hx]
  · rw [List.getElem?_append_right (by omega), hlen, Nat.add_sub_cancel_left, hs]

theorem Torn.append_right {xs : List Principal} {texts : List String} (h : Torn xs texts) (ys : List Principal) :
    Torn (xs ++ ys) texts := by
  obtain ⟨n, x, s, hx, hs, hquote⟩ := h
  exact ⟨n, x, s, by rw [List.getElem?_append_left (List.getElem?_eq_some_iff.1 hx).1, hx], hs, hquote⟩

/-- Texts that are torn name other principals. -/
theorem Torn.ne {xs ys : List Principal} {texts : List String} (h : Torn xs texts)
    (hnames : texts.map Principal.parse = ys.map .ok) : ys ≠ xs := by
  intro heq
  subst heq
  obtain ⟨n, x, s, hx, hs, hquote, hno⟩ := h
  have hparse : Principal.parse s = .ok x := by
    have hat : (texts.map Principal.parse)[n]? = (ys.map Except.ok)[n]? := congrArg (·[n]?) hnames
    simpa [hx, hs] using hat
  exact hno ((Principal.parse_eq_ok_iff.1 hparse).mem_toList hquote)

def Intact (xs : List Principal) (rest : List Char) (texts : List String) : Prop :=
  (∀ x ∈ xs, '\'' ∉ x.mspId.toList) ∧ ∃ ts, Lexes rest ts ∧ texts = xs.map Principal.key ++ names ts

theorem Intact.append {xs ys : List Principal} {text rest : List Char} {texts : List String}
    (h : Intact xs (text ++ rest) texts)
    (hnext : ∀ ts, Lexes (text ++ rest) ts → Intact ys rest (names ts) ∨ Torn ys (names ts)) :
    Intact (xs ++ ys) rest texts ∨ Torn (xs ++ ys) texts := by
  obtain ⟨hxs, ts, hl, rfl⟩ := h
  rcases hnext ts hl with ⟨hys, us, hrest, hnames⟩ | htorn
  · refine .inl ⟨List.forall_mem_append.2 ⟨hxs, hys⟩, us, hrest, ?_⟩
    rw [hnames, List.map_append, List.append_assoc]
  · exact .inr (htorn.append_left (List.length_map ..))

/-- A principal in quotes is read as it is, or else a text of the tokens does not name it. -/
theorem intact_or_torn_quoted {x : Principal} {rest : List Char} {ts : List Token}
    (hl : Lexes ('\'' :: (x.key.toList ++ ['\'']) ++ rest) ts) :
    Intact [x] rest (names ts) ∨ Torn [x] (names ts) := by
  by_cases hquote : '\'' ∈ x.key.toList
  · -- the text ends at the first quote in it, and so holds none
    obtain ⟨body, more, hkey, hbody⟩ := List.eq_append_cons_of_mem hquote
    have htext : '\'' :: (x.key.toList ++ ['\'']) ++ rest =
        '\'' :: (body ++ '\'' :: (more ++ '\'' :: rest)) := by
      simp [hkey]
    rw [htext, lexes_cons_iff rfl (Token.read_quoted rfl hbody)] at hl
    obtain ⟨us, rfl, -⟩ := hl
    have hid : '\'' ∈ x.mspId.toList := (Principal.quote_mem_key (.inl rfl)).1 hquote
    have htorn : '\'' ∉ (String.ofList body).toList := by simpa using hbody
    exact .inr ⟨0, x, String.ofList body, rfl, rfl, hid, htorn⟩
  · obtain ⟨us, rfl, hrest⟩ := (splitsOff_quoted rfl hquote rest ts).1 hl
    refine .inl ⟨?_, us, hrest, by simp [names]⟩
    simpa using mt (Principal.quote_mem_key (.inl rfl)).2 hquote

/-- What stands in front of a rule in its group holds no texts of principals. -/
theorem exists_lexes_rulesText_true {identities : List Principal} {first : Bool} {r : Rule} {rs : List Rule}
    {rest : List Char} {ts : List Token} (hl : Lexes (rulesText identities first (r :: rs) ++ rest) ts) :
    ∃ us, Lexes (rulesText identities true (r :: rs) ++ rest) us ∧ names ts = names us := by
  cases first with
  | true => exact ⟨ts, hl, rfl⟩
  | false =>
    rw [rulesText_false_cons, List.append_assoc, List.append_assoc] at hl
    obtain ⟨us, rfl, hblank⟩ := (splitsOff_symbol (c := ',') rfl _ ts).1 hl
    obtain ⟨_, rfl, hrules⟩ := (splitsOff_blank (c := ' ') rfl _ us).1 hblank
    exact ⟨_, hrules, rfl⟩

-- The induction is on the rule, for every text behind it. That text is known only as long as the rule is
-- intact, so the two outcomes are told apart at every step.
mutual
/-- A printed rule is read as it was, or it is torn. What follows a torn text is not looked at: whatever is
read there, a principal stands against a text that does not name it. -/
theorem intact_or_torn_ruleText {identities : List Principal} {rest : List Char} {ts : List Token} :
    ∀ {r : Rule}, r.WellFormed identities.length → Lexes (ruleText identities r ++ rest) ts →
      Intact (r.referenced identities) rest (names ts) ∨ Torn (r.referenced identities) (names ts)
  | .signedBy i, hw, hl => by
    obtain ⟨x, hi⟩ : ∃ x, identities[i.toNat]? = some x := ⟨_, List.getElem?_eq_getElem hw⟩
    rw [ruleText_signedBy hi] at hl
    rw [Rule.referenced, hi]
    exact intact_or_torn_quoted hl
  | .nOutOf n rules, hw, hl => by
    obtain ⟨opening, ho, hopening⟩ := exists_opens_groupOpening n rules.length
    rw [ruleText, List.append_assoc, List.append_assoc] at hl
    obtain ⟨us, rfl, hrules⟩ := (hopening _ ts).1 hl
    rw [Rule.referenced, ho.names]
    refine (intact_or_torn_rulesText hw.2.2 hrules).imp_left ?_
    intro h
    obtain ⟨hquote, vs, hclose, hnames⟩ := h
    -- what was left intact ends at the parenthesis that closes the group
    obtain ⟨ws, rfl, hrest⟩ := (splitsOff_symbol (c := ')') rfl rest vs).1 hclose
    exact ⟨hquote, ws, hrest, hnames⟩
theorem intact_or_torn_rulesText {identities : List Principal} {first : Bool} {rest : List Char}
    {ts : List Token} : ∀ {rules : List Rule}, Rule.AllWellFormed identities.length rules →
      Lexes (rulesText identities first rules ++ rest) ts →
      Intact (Rule.referencedIn identities rules) rest (names ts) ∨
        Torn (Rule.referencedIn identities rules) (names ts)
  | [], _, hl => .inl ⟨nofun, ts, hl, rfl⟩
  | r :: rs, hw, hl => by
    obtain ⟨us, hrules, hnames⟩ := exists_lexes_rulesText_true hl
    rw [rulesText_cons, List.append_assoc] at hrules
    rw [Rule.referencedIn, hnames]
    rcases intact_or_torn_ruleText hw.1 hrules with hr | hr
    · exact hr.append fun vs hvs => intact_or_torn_rulesText hw.2 hvs
    · exact .inr (hr.append_right _)
end

end Fabric.Compact

import Fabric.Policy.Compact.Printer
import Fabric.Proofs.Policy.Acceptance

namespace Fabric.Compact

def Demand.ofCount (n : UInt32) (k : Nat) : Demand :=
  if n.toNat = k then .all else if n = 1 then .any else .outOf n

theorem Demand.count_ofCount (n : UInt32) (k : Nat) : (ofCount n k).count k = n := by
  rw [ofCount]
  split
  · next h => rw [count, ← h, UInt32.ofNat_toNat]
  · split
    · next h => rw [count, h]
    · rfl

theorem Demand.fits_ofCount {n : UInt32} {k : Nat} (h1 : 1 ≤ n.toNat) (hn : n.toNat ≤ k) :
    (ofCount n k).Fits k := by
  rw [ofCount]
  split
  · trivial
  · split
    · trivial
    · exact ⟨h1, hn⟩

theorem splitsOff_keyword {s : String} (hrun : ∀ c ∈ s.toList, Token.isWordChar c = true)
    (hword : ∃ c ∈ s.toList, c.isDigit = false) : SplitsOff (s.toList ++ ['(']) [.word s, .openParen] := by
  have h : SplitsOff (s.toList ++ ['(']) [Token.ofRun s.toList, .openParen] :=
    splitsOff_run (fun hnil => by simp [hnil] at hword) hrun rfl
  rwa [Token.ofRun_of_word hword, String.ofList_toList] at h

theorem splitsOff_count (n : Nat) :
    SplitsOff (Nat.toDigits 10 n ++ [',']) [.number (String.ofList (Nat.toDigits 10 n)), .comma] := by
  have hdigits : ∀ c ∈ Nat.toDigits 10 n, c.isDigit = true :=
    fun c hc => Nat.isDigit_of_mem_toDigits (by decide) (by decide) hc
  rw [← Token.ofRun_of_digits hdigits]
  exact splitsOff_run Nat.toDigits_ne_nil (fun c hc => isWordChar_of_isDigit (hdigits c hc)) rfl

/-- The opening of a group splits off as such. -/
theorem exists_opens_groupOpening (n : UInt32) (k : Nat) :
    ∃ opening, Opens (Demand.ofCount n k) opening ∧ SplitsOff (groupOpening n k) opening := by
  simp only [Demand.ofCount, groupOpening]
  split
  · have hword := splitsOff_keyword (s := "AND") (List.all_eq_true.1 rfl) ⟨'A', by simp, rfl⟩
    exact ⟨_, .all (toUpper_of_toList (by decide)), hword⟩
  · split
    · have hword := splitsOff_keyword (s := "OR") (List.all_eq_true.1 rfl) ⟨'O', by simp, rfl⟩
      exact ⟨_, .any (toUpper_of_toList (by decide)), hword⟩
    · have hword := splitsOff_keyword (s := "OutOf") (List.all_eq_true.1 rfl) ⟨'O', by simp, rfl⟩
      have hcount := (splitsOff_count n.toNat).append (splitsOff_blank (c := ' ') rfl)
      have hall := hword.append hcount
      refine ⟨_, @Opens.outOf "OutOf" _ n (toUpper_of_toList (by decide)) ?_, by simpa using hall⟩
      rw [String.toList_ofList, Nat.ofDigitChars_ten_toDigits]

mutual
def ruleText (identities : List Principal) : Rule → List Char
  | .signedBy i => identities[i.toNat]?.toList.flatMap fun x => '\'' :: (x.key.toList ++ ['\''])
  | .nOutOf n rules => groupOpening n rules.length ++ (rulesText identities true rules ++ [')'])
def rulesText (identities : List Principal) (first : Bool) : List Rule → List Char
  | [] => []
  | r :: rest => (if first then [] else [',', ' ']) ++ (ruleText identities r ++ rulesText identities false rest)
end

theorem ruleText_signedBy {identities : List Principal} {i : UInt32} {x : Principal}
    (hi : identities[i.toNat]? = some x) :
    ruleText identities (.signedBy i) = '\'' :: (x.key.toList ++ ['\'']) := by
  simp [ruleText, hi]

theorem rulesText_cons (identities : List Principal) (r : Rule) (rs : List Rule) :
    rulesText identities true (r :: rs) = ruleText identities r ++ rulesText identities false rs := rfl

/-- A comma and a blank stand in front of all rules of a group but the first. -/
theorem rulesText_false_cons (identities : List Principal) (r : Rule) (rs : List Rule) :
    rulesText identities false (r :: rs) = [','] ++ ([' '] ++ rulesText identities true (r :: rs)) := rfl

mutual
/-- A well-formed rule is printed to the end: its indices have principals, and no group is without rules. -/
theorem writeRule_eq_ok {p : Policy} : ∀ {r : Rule} {out : String}, r.WellFormed p.identities.length →
    writeRule p out r = .ok (out ++ String.ofList (ruleText p.identities r))
  | .signedBy i, out, hw => by
    have hi := List.getElem?_eq_getElem hw
    rw [writeRule, Policy.principal, hi, ruleText_signedBy hi]
    refine congrArg Except.ok (String.ext ?_)
    simp
  | .nOutOf n rules, out, hw => by
    have hne : rules.isEmpty = false := List.isEmpty_eq_false_iff.2 (List.ne_nil_of_length_pos (Nat.le_trans hw.1 hw.2.1))
    rw [writeRule, hne, writeRules_eq_ok hw.2.2, ruleText]
    refine congrArg Except.ok (String.ext ?_)
    simp
theorem writeRules_eq_ok {p : Policy} {first : Bool} : ∀ {rules : List Rule} {out : String},
    Rule.AllWellFormed p.identities.length rules →
      writeRules p first out rules = .ok (out ++ String.ofList (rulesText p.identities first rules))
  | [], out, _ => by
    rw [writeRules, rulesText, String.ofList_nil, String.append_empty]
    rfl
  | r :: rest, out, hw => by
    rw [writeRules, writeRule_eq_ok hw.1]
    refine (writeRules_eq_ok hw.2).trans (congrArg Except.ok (String.ext ?_))
    cases first <;> simp [rulesText]
end

mutual
def Expr.ofRule (identities : List Principal) : Rule → Expr
  | .signedBy i =>
    match identities[i.toNat]? with
    | some x => .principal x
    | none => .group .all []
  | .nOutOf n rules => .group (Demand.ofCount n rules.length) (Expr.ofRules identities rules)
def Expr.ofRules (identities : List Principal) : List Rule → List Expr
  | [] => []
  | r :: rest => Expr.ofRule identities r :: Expr.ofRules identities rest
end

theorem Expr.length_ofRules (identities : List Principal) (rules : List Rule) :
    (Expr.ofRules identities rules).length = rules.length := by
  induction rules with
  | nil => rfl
  | cons r rest ih => rw [ofRules, List.length_cons, List.length_cons, ih]

mutual
/-- A rule whose principals can be printed splits off as tokens that derive its expression. -/
theorem exists_derives_ruleText {identities : List Principal} : ∀ {r : Rule}, r.WellFormed identities.length →
    (∀ x ∈ r.referenced identities, x.mspId ≠ "" ∧ '\'' ∉ x.mspId.toList) →
      ∃ us, Derives (.ofRule identities r) us ∧ SplitsOff (ruleText identities r) us
  | .signedBy i, hw, hx => by
    obtain ⟨x, hi⟩ : ∃ x, identities[i.toNat]? = some x := ⟨_, List.getElem?_eq_getElem hw⟩
    rw [Rule.referenced, hi] at hx
    obtain ⟨hne, hquote⟩ := hx x (List.mem_singleton_self x)
    rw [Expr.ofRule, hi, ruleText_signedBy hi]
    refine ⟨[.quoted x.key], .quoted (Principal.namedBy_key hne), ?_⟩
    simpa using splitsOff_quoted (q := '\'') rfl (mt (Principal.quote_mem_key (.inl rfl)).1 hquote)
  | .nOutOf n rules, hw, hx => by
    obtain ⟨opening, ho, hopening⟩ := exists_opens_groupOpening n rules.length
    -- the grammar has no group without arguments, and a well-formed one asks for a rule at least
    have hne : rules ≠ [] := List.ne_nil_of_length_pos (Nat.le_trans hw.1 hw.2.1)
    obtain ⟨us, hus, hrules⟩ := exists_derives_rulesText hne hw.2.2 hx
    have hfits : (Demand.ofCount n rules.length).Fits (Expr.ofRules identities rules).length := by
      rw [Expr.length_ofRules]
      exact Demand.fits_ofCount hw.1 hw.2.1
    rw [Expr.ofRule, ruleText]
    refine ⟨opening ++ (us ++ [.closeParen]), .group ho hus hfits, ?_⟩
    exact hopening.append (hrules.append (splitsOff_symbol rfl))
theorem exists_derives_rulesText {identities : List Principal} : ∀ {rules : List Rule}, rules ≠ [] →
    Rule.AllWellFormed identities.length rules →
    (∀ x ∈ Rule.referencedIn identities rules, x.mspId ≠ "" ∧ '\'' ∉ x.mspId.toList) →
      ∃ us, DerivesArgs (Expr.ofRules identities rules) us ∧ SplitsOff (rulesText identities true rules) us
  | [r], _, hw, hx => by
    rw [Rule.referencedIn, List.forall_mem_append] at hx
    obtain ⟨us, hus, hr⟩ := exists_derives_ruleText hw.1 hx.1
    exact ⟨us, .one hus, by simpa [rulesText] using hr⟩
  | r :: r' :: rs, _, hw, hx => by
    rw [Rule.referencedIn, List.forall_mem_append] at hx
    obtain ⟨us, hus, hr⟩ := exists_derives_ruleText hw.1 hx.1
    obtain ⟨vs, hvs, hrs⟩ := exists_derives_rulesText (List.cons_ne_nil r' rs) hw.2 hx.2
    refine ⟨us ++ .comma :: vs, .more hus hvs, ?_⟩
    rw [rulesText_cons, rulesText_false_cons]
    exact hr.append ((splitsOff_symbol (c := ',') rfl).append ((splitsOff_blank rfl).append hrs))
end

end Fabric.Compact

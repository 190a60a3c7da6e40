import Fabric.Policy.Input
import Fabric.Proofs.Policy.Acceptance
import Fabric.Proofs.Text.Blank

/-!
Texts that begin with the name of an implicit rule: which rule is written for them, and which of them are
signature policies as well. Main statement: the rule written is the one that the text begins with, and the
text is no signature policy, exactly if the name of the rule stands alone or is that of the default.
-/
namespace Fabric

theorem Principal.NamedBy.dot_mem {x : Principal} {s : String} (h : x.NamedBy s) : '.' ∈ s.toList := by
  obtain ⟨-, role, rfl, -⟩ := h
  simp

namespace ImplicitRule

theorem ofName?_eq_some_iff {s : String} {r : ImplicitRule} : ofName? s = some r ↔ s.toUpper = r.name := by
  constructor
  · intro h
    rw [ofName?] at h
    split at h <;> first | cases h; assumption | cases h
  · intro h
    rw [ofName?, h]
    cases r <;> rfl

theorem isAlpha_name (r : ImplicitRule) : r.name.toList.all Char.isAlpha = true := by
  cases r <;> decide

theorem name_inj {r r' : ImplicitRule} (h : r.name = r'.name) : r = r' := by
  revert h
  cases r <;> cases r' <;> decide

theorem name_ne_keyword (r : ImplicitRule) (k : Compact.Keyword) : r.name ≠ k.name := by
  cases r <;> cases k <;> decide

end ImplicitRule

theorem Compact.isWordChar_of_isAlpha (c : Char) (h : c.isAlpha = true) : Token.isWordChar c = true := by
  simp [Token.isWordChar, Char.isAlphanum, h]

theorem not_isDigit_of_isAlpha {c : Char} (h : c.isAlpha = true) : c.isDigit = false := by
  have hlow : 0x41 ≤ c.toNat := by
    rcases Bool.or_eq_true_iff.1 h with h | h
    · exact (of_decide_eq_true h : 0x41 ≤ c.toNat ∧ c.toNat ≤ 0x5A).1
    · have hlower : 0x61 ≤ c.toNat := of_decide_eq_true (Bool.and_eq_true_iff.1 h).1
      omega
  have hnine : '9'.toNat = 0x39 := rfl
  rw [← Bool.not_eq_true, Char.isDigit_iff_toNat]
  omega

theorem not_isBlank_of_isAlpha (c : Char) (h : c.isAlpha = true) : (!Text.isBlank c) = true := by
  rw [Compact.not_isBlank_of_isWordChar (Compact.isWordChar_of_isAlpha c h), Bool.not_false]

/-- What reads as a word in letters is no empty text. -/
theorem ne_nil_of_toUpper_eq {run : List Char} {name : String} (h : (String.ofList run).toUpper = name)
    (hname : name ≠ "") : run ≠ [] := by
  rintro rfl
  exact hname (h.symm.trans (String.map_eq_empty.2 rfl))

theorem Compact.Keyword.isAlpha_name (k : Keyword) : k.name.toList.all Char.isAlpha = true := by
  cases k <;> decide

namespace PolicyInput

def LeadsAlone (s : String) : Prop := ∀ c, (leadingWord s).2.head? = some c → Text.isBlank c = true

/-- A text counts as an implicit policy if the letters that it begins with name a rule. -/
theorem kindOfText_eq_implicitMeta_iff {s : String} :
    kindOfText s = .implicitMeta ↔ ∃ rule : ImplicitRule, (leadingWord s).1 = rule.name := by
  simp only [kindOfText]
  constructor
  · intro h
    split at h
    · cases h
    · split at h
      · next hword =>
        simp only [List.contains_cons, List.contains_nil, Bool.or_false, Bool.or_eq_true, beq_iff_eq] at hword
        rcases hword with hword | hword | hword
        · exact ⟨.any, hword⟩
        · exact ⟨.all, hword⟩
        · exact ⟨.majority, hword⟩
      · cases h
  · intro h
    obtain ⟨rule, hrule⟩ := h
    rw [hrule]
    cases rule <;> rfl

theorem ofInput_compact_eq_implicitMeta_iff {s : String} {spec : ImplicitPolicy} :
    PolicySpec.ofInput (.compact s) = .ok (.implicitMeta spec) ↔
      kindOfText s = .implicitMeta ∧ spec = .parse s := by
  simp only [PolicySpec.ofInput, kind]
  cases hk : kindOfText s with
  | implicitMeta => simp [eq_comm]
  | signature => simp [map_eq_ok_iff]
  | unknown => simp

section Leading

variable {s : String} {rule : ImplicitRule} (h : (leadingWord s).1 = rule.name)
include h

/-- The letters of a rule's name are the first characters of the text that are not blank. -/
theorem exists_trimStart_of_leadingWord : ∃ c cs, Text.trimStart s.toList = c :: cs ∧ c.isAlpha = true := by
  let cs := Text.trimStart s.toList
  have hne : cs.takeWhile Char.isAlpha ≠ [] := ne_nil_of_toUpper_eq h (by cases rule <;> decide)
  obtain ⟨c, run, hrun⟩ := List.exists_cons_of_ne_nil hne
  refine ⟨c, run ++ cs.dropWhile Char.isAlpha, ?_, ?_⟩
  · rw [← List.cons_append, ← hrun, List.takeWhile_append_dropWhile]
  · exact (span_ends Char.isAlpha cs).1 c (hrun ▸ List.mem_cons_self ..)

/-- A longer run of characters in their place is made of the same letters, if it reads as a word in letters. -/
theorem takeWhile_of_leadingWord {p : Char → Bool} {name : String} (hp : ∀ c, c.isAlpha = true → p c = true)
    (hname : name.toList.all Char.isAlpha = true)
    (hrun : (String.ofList ((Text.trimStart s.toList).takeWhile p)).toUpper = name) :
    (Text.trimStart s.toList).takeWhile p = (Text.trimStart s.toList).takeWhile Char.isAlpha ∧
      name = rule.name := by
  have hletters := isAlpha_of_toUpper_eq hrun hname
  rw [String.toList_ofList] at hletters
  have heq := takeWhile_eq_of_forall hp hletters
  rw [heq] at hrun
  exact ⟨heq, hrun.symm.trans h⟩

end Leading

def firstWord (s : String) : List Char := (Text.trimStart s.toList).takeWhile fun c => !Text.isBlank c

/-- The leading letters of a text stand alone if they are all of its first word. -/
theorem leadsAlone_iff {s : String} :
    LeadsAlone s ↔ firstWord s = (Text.trimStart s.toList).takeWhile Char.isAlpha := by
  let cs := Text.trimStart s.toList
  have hsplit : cs.takeWhile Char.isAlpha ++ cs.dropWhile Char.isAlpha = cs := List.takeWhile_append_dropWhile
  have hsplit' : firstWord s ++ cs.dropWhile (fun c => !Text.isBlank c) = cs := List.takeWhile_append_dropWhile
  constructor
  · intro h
    have hrun : ∀ c ∈ cs.takeWhile Char.isAlpha, (!Text.isBlank c) = true := by
      intro c hc
      exact not_isBlank_of_isAlpha c ((span_ends Char.isAlpha cs).1 c hc)
    have hstop : ∀ c, (cs.dropWhile Char.isAlpha).head? = some c → (!Text.isBlank c) = false := by
      intro c hc
      rw [h c hc, Bool.not_true]
    rw [firstWord, ← (span_append hrun hstop).1, hsplit]
  · intro h c hc
    rw [h] at hsplit'
    have hdrop := List.append_cancel_left (hsplit'.trans hsplit.symm)
    have hblank := (span_ends (fun c => !Text.isBlank c) cs).2 c (hdrop ▸ hc)
    rwa [Bool.not_eq_false'] at hblank

/-- The rule that is written is the one that the text begins with, or the default if more than its name is
in the first word. -/
theorem rule_parse_of_leadingWord {s : String} {rule : ImplicitRule} (h : (leadingWord s).1 = rule.name) :
    (LeadsAlone s → (ImplicitPolicy.parse s).rule = rule) ∧
      (¬ LeadsAlone s → (ImplicitPolicy.parse s).rule = .majority) := by
  obtain ⟨c, cs, hs, hc⟩ := exists_trimStart_of_leadingWord h
  obtain ⟨rest, hwords⟩ := Text.exists_words_eq hs
  have hparse : (ImplicitPolicy.parse s).rule =
      (ImplicitRule.ofName? (String.ofList (firstWord s))).getD .majority := by
    rw [ImplicitPolicy.parse, hwords, firstWord, hs]
    cases rest <;> rfl
  rw [hparse]
  constructor
  · intro halone
    have hname : (String.ofList (firstWord s)).toUpper = rule.name := by
      rwa [leadsAlone_iff.1 halone]
    rw [ImplicitRule.ofName?_eq_some_iff.2 hname, Option.getD_some]
  · intro halone
    cases hr : ImplicitRule.ofName? (String.ofList (firstWord s)) with
    | none => rfl
    | some r =>
      have hrun := ImplicitRule.ofName?_eq_some_iff.1 hr
      have hletters := (takeWhile_of_leadingWord h not_isBlank_of_isAlpha r.isAlpha_name hrun).1
      exact absurd (leadsAlone_iff.2 hletters) halone

end PolicyInput

namespace Compact

theorem lexes_of_blank {cs : List Char} (h : ∀ c ∈ cs, Text.isBlank c = true) : Lexes cs [] := by
  induction cs with
  | nil => exact .done
  | cons c cs ih =>
    rw [List.forall_mem_cons] at h
    exact .blank h.1 (ih h.2)

/-- Only blanks split into no tokens. -/
theorem Lexes.forall_isBlank {cs : List Char} (h : Lexes cs []) : ∀ c ∈ cs, Text.isBlank c = true := by
  generalize hts : ([] : List Token) = ts at h
  induction h with
  | done =>
    intro c hc
    cases hc
  | blank hc _ ih => exact List.forall_mem_cons.2 ⟨hc, ih hts⟩
  | _ => cases hts

/-- The blanks at the beginning of a text make no difference. -/
theorem lexes_dropWhile_iff {cs : List Char} {ts : List Token} :
    Lexes (cs.dropWhile Text.isBlank) ts ↔ Lexes cs ts := by
  refine ⟨Lexes.of_dropWhile, ?_⟩
  intro h
  induction cs with
  | nil => exact h
  | cons c cs ih =>
    cases hc : Text.isBlank c with
    | true =>
      rw [List.dropWhile_cons_of_pos hc]
      obtain ⟨ts', rfl, hts⟩ := (splitsOff_blank hc cs ts).1 h
      exact ih hts
    | false => rwa [List.dropWhile_cons_of_neg (by simp [hc])]

/-- Tokens that begin with a word derive a principal named by it, or the word is a keyword. -/
theorem Derives.of_word {e : Expr} {w : String} {ts : List Token} (h : Derives e (.word w :: ts)) :
    ts = [] ∧ (∃ x : Principal, x.NamedBy w) ∨ ∃ k : Keyword, w.toUpper = k.name := by
  generalize htokens : Token.word w :: ts = us at h
  cases h with
  | word hx =>
    cases htokens
    exact .inl ⟨rfl, _, hx⟩
  | quoted hx => cases htokens
  | group ho ha hd =>
    refine .inr ?_
    cases ho with
    | all hw =>
      cases htokens
      exact ⟨.all, hw⟩
    | any hw =>
      cases htokens
      exact ⟨.any, hw⟩
    | outOf hw hn =>
      cases htokens
      exact ⟨.outOf, hw⟩

def BarePrincipal (s : String) : Prop :=
  (∃ x : Principal, x.NamedBy (Text.trim s)) ∧ ∀ c ∈ (Text.trim s).toList, Token.isWordChar c = true

/-- A word that names a principal is read as it, whatever blanks stand around it. -/
theorem reads_of_trim {s : String} {x : Principal} (hx : x.NamedBy (Text.trim s))
    (hword : ∀ c ∈ (Text.trim s).toList, Token.isWordChar c = true) : Reads s (.principal x) := by
  obtain ⟨after, hs, hafter⟩ := Text.exists_trimStart_eq s
  have hdot : '.' ∈ (Text.trim s).toList := hx.dot_mem
  have hend : WordEnds after := by
    intro c hc
    cases hcw : Token.isWordChar c with
    | false => rfl
    | true =>
      have hblank := hafter c (List.mem_of_mem_head? hc)
      rw [not_isBlank_of_isWordChar hcw] at hblank
      cases hblank
  have hlexes : Lexes s.toList [.word (Text.trim s)] := by
    -- the dot makes it a word and no number
    have hone := Lexes.word (List.ne_nil_of_mem hdot) hword ⟨'.', hdot, rfl⟩ hend (lexes_of_blank hafter)
    rw [← hs, String.ofList_toList] at hone
    exact lexes_dropWhile_iff.1 hone
  exact ⟨_, hlexes, .word hx⟩

theorem BarePrincipal.parse {s : String} (h : BarePrincipal s) : ∃ p, Compact.parse s = .ok p := by
  obtain ⟨⟨x, hx⟩, hword⟩ := h
  exact ⟨_, parse_of_reads (reads_of_trim hx hword) trivial (Nat.zero_le _)⟩

/-- A policy whose text begins with the name of a rule is a single principal. -/
theorem barePrincipal_of_parse {s : String} {rule : ImplicitRule}
    (h : (PolicyInput.leadingWord s).1 = rule.name) {p : Policy} (hp : Compact.parse s = .ok p) :
    BarePrincipal s := by
  obtain ⟨c, cs, hs, hc⟩ := PolicyInput.exists_trimStart_of_leadingWord h
  obtain ⟨e, ⟨ts, hl, he⟩, -⟩ := parse_eq_ok_iff.1 hp
  have hcword := isWordChar_of_isAlpha c hc
  let run := cs.takeWhile Token.isWordChar
  let rest := cs.dropWhile Token.isWordChar
  obtain ⟨hrun, hend⟩ := span_ends Token.isWordChar cs
  have hall : ∀ d ∈ c :: run, Token.isWordChar d = true := List.forall_mem_cons.2 ⟨hcword, hrun⟩
  have hsplit : c :: cs = (c :: run) ++ rest := by
    rw [List.cons_append, List.takeWhile_append_dropWhile]
  -- the first token is the word that the letters are in
  rw [← lexes_dropWhile_iff, ← Text.trimStart, hs, hsplit, lexes_run_iff (List.cons_ne_nil c run) hall hend,
    Token.ofRun_of_word ⟨c, List.mem_cons_self .., not_isDigit_of_isAlpha hc⟩] at hl
  obtain ⟨ts, rfl, hrest⟩ := hl
  have htake : (Text.trimStart s.toList).takeWhile Token.isWordChar = c :: run := by
    rw [hs, List.takeWhile_cons_of_pos hcword]
  rcases he.of_word with ⟨rfl, x, hx⟩ | ⟨k, hk⟩
  · have htrim : Text.trim s = String.ofList (c :: run) := by
      apply Text.trim_eq_of_append (hs.trans hsplit)
      · exact fun d hd => not_isBlank_of_isWordChar (hall d hd)
      · exact hrest.forall_isBlank
    rw [BarePrincipal, htrim, String.toList_ofList]
    exact ⟨⟨x, hx⟩, hall⟩
  · rw [← htake] at hk
    have hname := (PolicyInput.takeWhile_of_leadingWord h isWordChar_of_isAlpha k.isAlpha_name hk).2
    exact absurd hname.symm (rule.name_ne_keyword k)

/-- Letters that stand alone are no principal, for that has a dot. -/
theorem not_barePrincipal_of_leadsAlone {s : String} (h : PolicyInput.LeadsAlone s) : ¬ BarePrincipal s := by
  intro hbare
  obtain ⟨⟨x, hx⟩, hword⟩ := hbare
  obtain ⟨after, hs, hafter⟩ := Text.exists_trimStart_eq s
  have hdot : '.' ∈ (Text.trim s).toList := hx.dot_mem
  have hrun : ∀ c ∈ (Text.trim s).toList, (!Text.isBlank c) = true := by
    intro c hc
    rw [not_isBlank_of_isWordChar (hword c hc), Bool.not_false]
  have hstop : ∀ c, after.head? = some c → (!Text.isBlank c) = false := by
    intro c hc
    rw [hafter c (List.mem_of_mem_head? hc), Bool.not_true]
  have hfirst : PolicyInput.firstWord s = (Text.trim s).toList := by
    rw [PolicyInput.firstWord, hs, (span_append hrun hstop).1]
  rw [← hfirst, PolicyInput.leadsAlone_iff.1 h] at hdot
  exact absurd ((span_ends Char.isAlpha _).1 '.' hdot) (by decide)

theorem exists_parse_error_iff {s : String} {rule : ImplicitRule} (h : (PolicyInput.leadingWord s).1 = rule.name) :
    (∃ e, Compact.parse s = .error e) ↔ ¬ BarePrincipal s := by
  constructor
  · intro herror hbare
    obtain ⟨e, he⟩ := herror
    obtain ⟨p, hp⟩ := hbare.parse
    rw [he] at hp
    cases hp
  · intro hbare
    cases hp : Compact.parse s with
    | error e => exact ⟨e, rfl⟩
    | ok p => exact absurd (barePrincipal_of_parse h hp) hbare

end Compact

/-- A text that is written as an implicit policy begins with the letters of a rule. That rule is written if
the letters stand alone, and the default otherwise; the text is a signature policy as well if it is a single
principal. So no policy is mistaken exactly if the letters stand alone, or name the default in a text that
is no principal. -/
theorem implicit_rule_of_ofInput {s : String} {spec : ImplicitPolicy}
    (h : PolicySpec.ofInput (.compact s) = .ok (.implicitMeta spec)) :
    ∃ rule : ImplicitRule, (PolicyInput.leadingWord s).1 = rule.name ∧
      (PolicyInput.LeadsAlone s → spec.rule = rule) ∧
      (¬ PolicyInput.LeadsAlone s → spec.rule = .majority) ∧
      ((∃ e, Compact.parse s = .error e) ↔ ¬ Compact.BarePrincipal s) ∧
      ((spec.rule = rule ∧ ∃ e, Compact.parse s = .error e) ↔
        PolicyInput.LeadsAlone s ∨ rule = .majority ∧ ¬ Compact.BarePrincipal s) := by
  obtain ⟨hkind, rfl⟩ := PolicyInput.ofInput_compact_eq_implicitMeta_iff.1 h
  obtain ⟨rule, hrule⟩ := PolicyInput.kindOfText_eq_implicitMeta_iff.1 hkind
  -- the rule is taken from the whole first word, the kind of the text from its leading letters only
  obtain ⟨halone, hlonger⟩ := PolicyInput.rule_parse_of_leadingWord hrule
  have herror := Compact.exists_parse_error_iff hrule
  refine ⟨rule, hrule, halone, hlonger, herror, ?_⟩
  rw [herror]
  constructor
  · rintro ⟨hsame, hbare⟩
    by_cases hl : PolicyInput.LeadsAlone s
    · exact .inl hl
    · exact .inr ⟨hsame.symm.trans (hlonger hl), hbare⟩
  · rintro (hl | ⟨hmajority, hbare⟩)
    · exact ⟨halone hl, Compact.not_barePrincipal_of_leadsAlone hl⟩
    · refine ⟨?_, hbare⟩
      by_cases hl : PolicyInput.LeadsAlone s
      · exact halone hl
      · exact (hlonger hl).trans hmajority.symm

/-- A text is written as an implicit policy by the rule that its letters name. -/
theorem ofInput_of_leadingWord {s : String} {rule : ImplicitRule}
    (h : (PolicyInput.leadingWord s).1 = rule.name) :
    PolicySpec.ofInput (.compact s) = .ok (.implicitMeta (.parse s)) :=
  PolicyInput.ofInput_compact_eq_implicitMeta_iff.2 ⟨PolicyInput.kindOfText_eq_implicitMeta_iff.2 ⟨rule, h⟩, rfl⟩

/-- A colon in the place of a blank: the text asks for all of the writers, its first letters do not stand
alone, and a majority is written. -/
theorem implicit_rule_of_ofInput_colon :
    PolicySpec.ofInput (.compact "all: Writers") = .ok (.implicitMeta ⟨.majority, "Writers"⟩) ∧
      (PolicyInput.leadingWord "all: Writers").1 = ImplicitRule.all.name ∧
      ¬ PolicyInput.LeadsAlone "all: Writers" := by
  have hall : (PolicyInput.leadingWord "all: Writers").1 = ImplicitRule.all.name := toUpper_of_toList (by decide)
  have hwords : Text.words "all: Writers" = ["all:", "Writers"] := by decide
  have hname : ImplicitRule.ofName? "all:" = none := by
    have hupper : "all:".toUpper = "ALL:" := toUpper_of_toList (by decide)
    rw [ImplicitRule.ofName?, hupper]
    rfl
  have hparse : ImplicitPolicy.parse "all: Writers" = ⟨.majority, "Writers"⟩ := by
    simp only [ImplicitPolicy.parse, hwords, hname, Option.getD_none]
  have h : PolicySpec.ofInput (.compact "all: Writers") = .ok (.implicitMeta ⟨.majority, "Writers"⟩) := by
    rw [ofInput_of_leadingWord hall, hparse]
  obtain ⟨rule, hrule, halone, -⟩ := implicit_rule_of_ofInput h
  have hrule' : ImplicitRule.all = rule := ImplicitRule.name_inj (hall.symm.trans hrule)
  refine ⟨h, hall, ?_⟩
  intro hl
  have hmajority : ImplicitRule.majority = rule := halone hl
  rw [← hrule'] at hmajority
  cases hmajority

/-- A single principal of an organisation named for a rule is written as an implicit policy, and of another
rule at that. -/
theorem ofInput_principal_mistaken :
    PolicySpec.ofInput (.compact "ALL.member") = .ok (.implicitMeta ⟨.majority, "Admins"⟩) ∧
      (PolicyInput.leadingWord "ALL.member").1 = ImplicitRule.all.name ∧
      Compact.parse "ALL.member" = .ok ⟨0, [⟨"ALL", .member⟩], .signedBy 0⟩ := by
  have hleading : (PolicyInput.leadingWord "ALL.member").1 = ImplicitRule.all.name := toUpper_of_toList (by decide)
  have hwords : Text.words "ALL.member" = ["ALL.member"] := by decide
  have hname : ImplicitRule.ofName? "ALL.member" = none := by
    have hupper : "ALL.member".toUpper = "ALL.MEMBER" := toUpper_of_toList (by decide)
    rw [ImplicitRule.ofName?, hupper]
    rfl
  have hparse : ImplicitPolicy.parse "ALL.member" = ⟨.majority, "Admins"⟩ := by
    simp only [ImplicitPolicy.parse, hwords, hname, Option.getD_none, ImplicitPolicy.defaultSubPolicy]
  have hinput : PolicySpec.ofInput (.compact "ALL.member") = .ok (.implicitMeta ⟨.majority, "Admins"⟩) := by
    rw [ofInput_of_leadingWord hleading, hparse]
  have htrim : Text.trim "ALL.member" = "ALL.member" := by decide
  have hnamed : Principal.NamedBy ⟨"ALL", .member⟩ (Text.trim "ALL.member") := by
    rw [htrim]
    exact ⟨by decide, "member", by decide, by decide, toUpper_of_toList (by decide)⟩
  have hreads : Compact.Reads "ALL.member" (.principal ⟨"ALL", .member⟩) :=
    Compact.reads_of_trim hnamed (htrim ▸ List.all_eq_true.1 rfl)
  exact ⟨hinput, hleading, Compact.parse_of_reads hreads trivial (Nat.zero_le _)⟩

end Fabric

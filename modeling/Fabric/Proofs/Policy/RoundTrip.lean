import Fabric.Proofs.Policy.Quoting

namespace Fabric.Compact

section Renumbering

variable {identities places : List Principal}

mutual
/-- The rule of an expression refers to its principals. -/
theorem referenced_rule (hlen : identities.length ≤ UInt32.size) :
    ∀ {e : Expr}, (∀ x ∈ e.principals, x ∈ identities) → (e.rule identities).referenced identities = e.principals
  | .principal x, h => by
    rw [Expr.rule, Rule.referenced, getElem?_idxOf hlen (h x (List.mem_singleton_self x))]
    rfl
  | .group _ _, h => referencedIn_rules hlen h
theorem referencedIn_rules (hlen : identities.length ≤ UInt32.size) :
    ∀ {es : List Expr}, (∀ x ∈ Expr.principalsOf es, x ∈ identities) →
      Rule.referencedIn identities (Expr.rules identities es) = Expr.principalsOf es
  | [], _ => rfl
  | e :: es, h => by
    simp only [Expr.principalsOf, List.forall_mem_append] at h
    rw [Expr.rules, Rule.referencedIn, referenced_rule hlen h.1, referencedIn_rules hlen h.2, Expr.principalsOf]
end

mutual
/-- The rule of an expression, renumbered, is the rule that the expression stands for under the other numbers. -/
theorem renumbered_rule (hlen : identities.length ≤ UInt32.size) :
    ∀ {e : Expr}, (∀ x ∈ e.principals, x ∈ identities) →
      (e.rule identities).renumbered identities places = e.rule places
  | .principal x, h => by
    rw [Expr.rule, Rule.renumbered, getElem?_idxOf hlen (h x (List.mem_singleton_self x))]
    rfl
  | .group _ _, h => by rw [Expr.rule, Rule.renumbered, allRenumbered_rules hlen h, Expr.rule]
theorem allRenumbered_rules (hlen : identities.length ≤ UInt32.size) :
    ∀ {es : List Expr}, (∀ x ∈ Expr.principalsOf es, x ∈ identities) →
      Rule.allRenumbered identities places (Expr.rules identities es) = Expr.rules places es
  | [], _ => rfl
  | e :: es, h => by
    simp only [Expr.principalsOf, List.forall_mem_append] at h
    rw [Expr.rules, Rule.allRenumbered, renumbered_rule hlen h.1, allRenumbered_rules hlen h.2, Expr.rules]
end

end Renumbering

section OfRule

variable {identities places : List Principal}

mutual
theorem principals_ofRule : ∀ {r : Rule}, r.WellFormed identities.length →
    (Expr.ofRule identities r).principals = r.referenced identities
  | .signedBy i, hw => by
    rw [Expr.ofRule, Rule.referenced, List.getElem?_eq_getElem hw]
    rfl
  | .nOutOf _ _, hw => principalsOf_ofRules hw.2.2
theorem principalsOf_ofRules : ∀ {rules : List Rule}, Rule.AllWellFormed identities.length rules →
    Expr.principalsOf (Expr.ofRules identities rules) = Rule.referencedIn identities rules
  | [], _ => rfl
  | r :: rs, hw => by
    rw [Expr.ofRules, Expr.principalsOf, principals_ofRule hw.1, principalsOf_ofRules hw.2, Rule.referencedIn]
end

mutual
theorem rule_ofRule : ∀ {r : Rule}, r.WellFormed identities.length →
    (Expr.ofRule identities r).rule places = r.renumbered identities places
  | .signedBy i, hw => by
    rw [Expr.ofRule, Rule.renumbered, List.getElem?_eq_getElem hw]
    rfl
  | .nOutOf n rules, hw => by
    rw [Expr.ofRule, Expr.rule, Rule.renumbered, rules_ofRules hw.2.2, Expr.length_ofRules, Demand.count_ofCount]
theorem rules_ofRules : ∀ {rules : List Rule}, Rule.AllWellFormed identities.length rules →
    Expr.rules places (Expr.ofRules identities rules) = Rule.allRenumbered identities places rules
  | [], _ => rfl
  | r :: rs, hw => by
    rw [Expr.ofRules, Expr.rules, rule_ofRule hw.1, rules_ofRules hw.2, Rule.allRenumbered]
end

end OfRule

/-- The policy of an expression refers to the principals of the expression. -/
theorem referenced_policy {e : Expr} (hlen : e.policy.identities.length ≤ UInt32.size) :
    e.policy.referenced = e.principals :=
  referenced_rule hlen fun _ hx => List.mem_eraseDups.2 hx

theorem reindexed_policy {e : Expr} (hlen : e.policy.identities.length ≤ UInt32.size) :
    e.policy.reindexed = e.policy := by
  rw [Policy.reindexed, referenced_policy hlen]
  have hrule : e.policy.rule.renumbered e.policy.identities e.principals.eraseDups = e.policy.rule :=
    renumbered_rule hlen fun _ hx => List.mem_eraseDups.2 hx
  rw [hrule]
  rfl

section Printed

variable {p : Policy} (hp : p.validate = .ok ())
include hp

theorem policy_ofRule : (Expr.ofRule p.identities p.rule).policy = p.reindexed := by
  have hw := (Policy.validate_eq_ok_iff.1 hp).1
  rw [Expr.policy, principals_ofRule hw, rule_ofRule hw]
  rfl

theorem referenced_reindexed : p.reindexed.referenced = p.referenced := by
  have hlen := p.length_eraseDups_referenced
  rw [← policy_ofRule hp, referenced_policy, principals_ofRule (Policy.validate_eq_ok_iff.1 hp).1]
  · rfl
  · rwa [policy_ofRule hp]

end Printed

def printed (p : Policy) : String := String.ofList (ruleText p.identities p.rule)

theorem render_eq_ok_iff {p : Policy} {s : String} : render p = .ok s ↔ p.validate = .ok () ∧ s = printed p := by
  cases hp : p.validate with
  | error e => simp [render, hp, bind, Except.bind]
  | ok u =>
    have hwrite : render p = .ok (printed p) := by
      rw [render, hp, printed]
      exact (writeRule_eq_ok (Policy.validate_eq_ok_iff.1 hp).1).trans (by rw [String.empty_append])
    simp [hwrite, eq_comm]

def Printable (p : Policy) : Prop := ∀ x ∈ p.referenced, x.mspId ≠ "" ∧ '\'' ∉ x.mspId.toList

theorem parse_printed_of_printable {p : Policy} (hp : p.validate = .ok ()) (hprint : Printable p) :
    parse (printed p) = .ok p.reindexed := by
  obtain ⟨hw, hnest⟩ := Policy.validate_eq_ok_iff.1 hp
  obtain ⟨us, hus, hsplit⟩ := exists_derives_ruleText hw hprint
  have hl : Lexes (printed p).toList us := by
    rw [printed, String.toList_ofList, ← List.append_nil (ruleText _ _)]
    exact (hsplit [] us).2 ⟨[], by simp, .done⟩
  have hdeep : (Expr.ofRule p.identities p.rule).nesting ≤ Policy.maxDepth := by
    rw [← Expr.nesting_rule [], rule_ofRule hw, Rule.nesting_renumbered]
    exact hnest
  exact parse_eq_ok_iff.2 ⟨_, ⟨us, hl, hus⟩, hdeep, (policy_ofRule hp).symm, Policy.validate_reindexed hp⟩

/-- Whatever a printed policy is read as, it holds the printed texts, or one of them is torn. -/
theorem intact_or_torn_printed {p : Policy} (hp : p.validate = .ok ()) {ts : List Token}
    (hl : Lexes (printed p).toList ts) :
    (∀ x ∈ p.referenced, '\'' ∉ x.mspId.toList) ∧ names ts = p.referenced.map Principal.key ∨
      Torn p.referenced (names ts) := by
  rw [printed, String.toList_ofList, ← List.append_nil (ruleText _ _)] at hl
  refine (intact_or_torn_ruleText (Policy.validate_eq_ok_iff.1 hp).1 hl).imp_left ?_
  intro h
  obtain ⟨hquote, us, hus, hnames⟩ := h
  have hnil : us = [] := hus.eq_nil_of_blank nofun
  exact ⟨hquote, by simpa [hnil, names, Policy.referenced] using hnames⟩

/-- What a printed policy reads as, if it reads as the policy renumbered, refers to the same principals. -/
theorem principals_of_policy_eq {p : Policy} (hp : p.validate = .ok ()) {e : Expr}
    (he : p.reindexed = e.policy) : e.principals = p.referenced := by
  have hlen : e.policy.identities.length ≤ UInt32.size := he ▸ p.length_eraseDups_referenced
  rw [← referenced_policy hlen, ← he, referenced_reindexed hp]

/-- A printed policy reads back as itself, renumbered, exactly if its organisations' ids can be printed. -/
theorem parse_printed_iff {p : Policy} (hp : p.validate = .ok ()) :
    parse (printed p) = .ok p.reindexed ↔ Printable p := by
  refine ⟨?_, parse_printed_of_printable hp⟩
  intro h
  obtain ⟨e, ⟨ts, hl, he⟩, -, hpolicy, -⟩ := parse_eq_ok_iff.1 h
  have hprincipals : e.principals = p.referenced := principals_of_policy_eq hp hpolicy
  rcases intact_or_torn_printed hp hl with ⟨hquote, hnames⟩ | htorn
  · intro x hx
    refine ⟨?_, hquote x hx⟩
    have hparse := he.parse_names
    rw [hnames, hprincipals, List.map_map] at hparse
    have hkey : Principal.parse x.key = .ok x := List.map_inj_left.1 hparse x hx
    exact (Principal.parse_eq_ok_iff.1 hkey).ne_empty
  · -- a torn text names another principal than the policy refers to
    exact absurd hprincipals (htorn.ne he.parse_names)

/-- Every valid policy is printed. Its text reads back as the policy renumbered exactly if the ids of the
organisations that it refers to are not empty and hold no single quote; if they are, a policy that was read
from a text reads back as itself. -/
theorem render_reads_back {p : Policy} (hp : p.validate = .ok ()) :
    ∃ s, render p = .ok s ∧ (parse s = .ok p.reindexed ↔ Printable p) ∧
      ((∃ t, parse t = .ok p) → p.identities.length < UInt32.size → Printable p → parse s = .ok p) := by
  refine ⟨printed p, render_eq_ok_iff.2 ⟨hp, rfl⟩, parse_printed_iff hp, ?_⟩
  intro hread hlen hprint
  obtain ⟨t, ht⟩ := hread
  -- what is read is the policy of an expression, which is numbered in order of first appearance
  obtain ⟨e, -, -, rfl, -⟩ := parse_eq_ok_iff.1 ht
  rw [parse_printed_of_printable hp hprint, reindexed_policy (Nat.le_of_lt hlen)]

/-- A policy with an unused principal, a principal listed twice and an id of several words. -/
theorem render_reads_back_duplicate :
    let p : Policy := ⟨7, [⟨"unused", .peer⟩, ⟨"A.b \"c\"", .member⟩, ⟨"A.b \"c\"", .member⟩, ⟨"D", .admin⟩],
      .nOutOf 1 [.signedBy 2, .nOutOf 2 [.signedBy 3, .signedBy 1, .signedBy 3]]⟩
    p.validate = .ok () ∧ ∃ s, render p = .ok s ∧ parse s = .ok ⟨0, [⟨"A.b \"c\"", .member⟩, ⟨"D", .admin⟩],
      .nOutOf 1 [.signedBy 0, .nOutOf 2 [.signedBy 1, .signedBy 0, .signedBy 1]]⟩ := by
  intro p
  have hp : p.validate = .ok () := by
    rw [Policy.validate_eq_ok_iff]
    simp [p, Rule.WellFormed, Rule.AllWellFormed, Rule.nesting, Rule.nestingList, Policy.maxDepth]
  obtain ⟨s, hs, hread, -⟩ := render_reads_back hp
  have hprint : Printable p := by
    have hreferenced : p.referenced =
        [⟨"A.b \"c\"", .member⟩, ⟨"D", .admin⟩, ⟨"A.b \"c\"", .member⟩, ⟨"D", .admin⟩] := by decide
    rw [Printable, hreferenced]
    decide
  exact ⟨hp, s, hs, hread.2 hprint⟩

end Fabric.Compact

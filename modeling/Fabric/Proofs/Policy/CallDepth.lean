import Fabric.Proofs.Policy.Balance
import Fabric.Proofs.Policy.Checking
import Fabric.Proofs.Policy.Lockstep

/-!
How deep the descent through a compact text goes. Main statement: for tokens whose parentheses pass the check the
descent ends with what the reader gives; wherever it reads an expression, the groups that it is in are as many as the
tokens before have opened and not closed; and what is read to the end is valid.
-/
namespace Fabric.Compact.Descent

/-- What comes of the text: nothing may be left behind the expression, and its policy must be valid. -/
def conclude : Outcome → Except PolicyError Policy
  | .error e => .error e
  | .ok (_, _, t :: _) => .error (.unexpectedToken t.describe)
  | .ok (r, identities, []) => (⟨0, identities, r⟩ : Policy).validated

section Entering

open Compact.Parser

variable {ts left : List Token} {groups : List Group} {identities : List Principal} {out : Outcome}

/-- The groups that the descent is in are the parentheses that are open in the tokens before. -/
theorem Enters.length_groups (h : Enters ts groups identities left) (hts : checkNesting 0 0 ts = .ok ()) :
    (∃ read, ts = read ++ left ∧ (groups.length : Int) = surplus read) ∧ groups.length ≤ Policy.maxDepth := by
  obtain ⟨read, stage, hsplit, hrun, -⟩ := h.exists_run
  have hsurplus : (groups.length : Int) = (0 : Nat) + surplus read := run_groups_length hrun
  rw [Int.natCast_zero, Int.zero_add] at hsurplus
  refine ⟨⟨read, hsplit, hsurplus⟩, ?_⟩
  rw [hsplit] at hts
  exact (checkNesting_of_run hts hrun).1

/-- The groups that the descent is in and those of a rule that it reads there are within the limit together. -/
theorem Enters.depth_le (h : Enters ts groups identities left) (hts : checkNesting 0 0 ts = .ok ()) {r : Rule}
    {identities' : List Principal} {rest : List Token}
    (hread : ReadsExpr ts.length identities left (.ok (r, identities', rest))) :
    groups.length + r.depth ≤ Policy.maxDepth := by
  obtain ⟨read, stage, hsplit, hrun, -⟩ := h.exists_run
  rw [hsplit] at hts
  obtain ⟨hle, hcheck⟩ := checkNesting_of_run hts hrun
  obtain ⟨e, used, rfl, he, hnesting⟩ := hread.exists_derives rfl
  -- the check goes on over the tokens of the expression only if its groups fit on top of those that are open
  rw [he.checkNesting hle] at hcheck
  split at hcheck
  · next hlimit => rwa [Rule.depth_eq_nesting, hnesting]
  · cases hcheck

/-- What comes of the descent is what the reader of tokens gives. -/
theorem ReadsExpr.conclude_eq (h : ReadsExpr ts.length [] ts out) (hts : checkNesting 0 0 ts = .ok ()) :
    ofTokens ts = conclude out := by
  have hread : start.outcome ts.length ts = resume ts.length [] out := h.outcome_eq (readyFor_expr _ _ _)
  rw [ofTokens_eq, hts, Except.bind, hread]
  match out with
  | .error e => rfl
  | .ok (r, identities, []) => rfl
  | .ok (r, identities, t :: rest) => rfl

end Entering

mutual
/-- An expression is countable if the groups of its rule are. -/
theorem countable_of_nodes {root : Rule} {identities : List Principal}
    (hroot : ∀ n rules depth, root.NodeAt (.nOutOf n rules) depth → rules.length < UInt32.size) :
    ∀ (e : Expr) {depth : Nat}, root.NodeAt (e.rule identities) depth → e.Countable
  | .principal _, _, _ => trivial
  | .group d args, _, h => by
    have hlen : args.length < UInt32.size := Expr.length_rules identities args ▸ hroot _ _ _ h
    exact ⟨hlen, allCountable_of_nodes hroot args fun r hr => ⟨_, .member h hr⟩⟩
theorem allCountable_of_nodes {root : Rule} {identities : List Principal}
    (hroot : ∀ n rules depth, root.NodeAt (.nOutOf n rules) depth → rules.length < UInt32.size) :
    ∀ args : List Expr, (∀ r ∈ Expr.rules identities args, ∃ depth, root.NodeAt r depth) → Expr.AllCountable args
  | [], _ => trivial
  | e :: rest, h => by
    rw [Expr.rules, List.forall_mem_cons] at h
    obtain ⟨⟨depth, he⟩, hrest⟩ := h
    exact ⟨countable_of_nodes hroot e he, allCountable_of_nodes hroot rest hrest⟩
end

/-- Nothing is wrong with the policy of a text that is read to its end, if its groups can be counted. -/
theorem ReadsExpr.validate_eq_ok {ts : List Token} {r : Rule} {identities : List Principal}
    (h : ReadsExpr ts.length [] ts (.ok (r, identities, []))) (hts : checkNesting 0 0 ts = .ok ())
    (hcount : ∀ n rules depth, r.NodeAt (.nOutOf n rules) depth → rules.length < UInt32.size) :
    (⟨0, identities, r⟩ : Policy).validate = .ok () := by
  have hread : Parser.start.outcome ts.length ts = .ok ⟨0, identities, r⟩ := h.outcome_eq (readyFor_expr _ _ _)
  -- it is the policy of an expression, so its indices and counts are in range
  obtain ⟨e, he, hpolicy⟩ := outcome_start_eq_ok_iff.1 hread
  have hrule : r = e.rule e.principals.eraseDups := congrArg Policy.rule hpolicy
  have hcountable : e.Countable := by
    subst hrule
    exact countable_of_nodes hcount e .root
  rw [hpolicy, he.validate_policy hcountable]
  exact he.checkNesting_eq_ok_iff.1 hts

/-- For tokens whose parentheses pass the check the descent comes to an end in one way, with what the reader gives. It
reads an expression exactly where the reader expects one, with the same groups open. There the groups are as many as
parentheses were opened and not closed by the tokens before, and so at most 1000; and the reading comes to an end, and
takes one token at least if it succeeds, with a rule no deeper than the limit leaves room for. A policy that is read to
the end of the tokens is valid if its groups can be counted in 32 bits. -/
theorem descent_within_parentheses {ts : List Token} (hts : checkNesting 0 0 ts = .ok ()) :
    (∃ out, (∀ out', ReadsExpr ts.length [] ts out' ↔ out' = out) ∧ ofTokens ts = conclude out) ∧
    (∀ groups identities left, Enters ts groups identities left ↔
      ∃ read stage, ts = read ++ left ∧ Parser.start.run read = .ok (.tracking stage groups identities) ∧
        ReadyFor (.tracking stage groups identities) left) ∧
    (∀ groups identities left, Enters ts groups identities left →
      (∃ read, ts = read ++ left ∧ (groups.length : Int) = surplus read) ∧
      groups.length ≤ 1000 ∧
      (∃ out, ∀ out', ReadsExpr ts.length identities left out' ↔ out' = out) ∧
      ∀ r identities' rest, ReadsExpr ts.length identities left (.ok (r, identities', rest)) →
        (∃ used, used ≠ [] ∧ left = used ++ rest) ∧ groups.length + r.depth ≤ 1000) ∧
    ∀ r identities, ReadsExpr ts.length [] ts (.ok (r, identities, [])) →
      (∀ n rules depth, r.NodeAt (.nOutOf n rules) depth → rules.length < UInt32.size) →
        (⟨0, identities, r⟩ : Policy).validate = .ok () := by
  have hends (identities : List Principal) (left : List Token) :
      ∃ out, ∀ out', ReadsExpr ts.length identities left out' ↔ out' = out := by
    obtain ⟨out, h⟩ := exists_readsExpr ts.length identities left
    exact ⟨out, fun out' => ⟨fun h' => h'.eq_of h, fun heq => heq ▸ h⟩⟩
  refine ⟨?_, fun _ _ _ => enters_iff, ?_, fun r identities h hcount => h.validate_eq_ok hts hcount⟩
  · obtain ⟨out, hout⟩ := hends [] ts
    exact ⟨out, hout, ((hout out).2 rfl).conclude_eq hts⟩
  · intro groups identities left h
    obtain ⟨hsurplus, hle⟩ := h.length_groups hts
    refine ⟨hsurplus, hle, hends identities left, ?_⟩
    intro r identities' rest hread
    exact ⟨hread.exists_used, h.depth_le hts hread⟩

/-- A group in a group: behind the comma in the inner one both are open, and the whole is read as a valid policy. -/
theorem descent_within_parentheses_nested :
    let after : List Token := [.word "b.Peer", .closeParen, .closeParen]
    let ts : List Token := [.word "And", .openParen, .word "A.member", .comma, .word "outOf", .openParen, .number "1",
      .comma, .quoted "A.member", .comma] ++ after
    let r : Rule := .nOutOf 2 [.signedBy 0, .nOutOf 1 [.signedBy 0, .signedBy 1]]
    checkNesting 0 0 ts = .ok () ∧
    (∃ groups identities, Enters ts groups identities after ∧ groups.length = 2 ∧
      ∃ read, ts = read ++ after ∧ (groups.length : Int) = surplus read) ∧
    ReadsExpr ts.length [] ts (.ok (r, [⟨"A", .member⟩, ⟨"b", .peer⟩], [])) ∧
    (⟨0, [⟨"A", .member⟩, ⟨"b", .peer⟩], r⟩ : Policy).validate = .ok () := by
  intro after ts r
  have hcheck : checkNesting 0 0 ts = .ok () := rfl
  obtain ⟨-, -, henter, hvalid⟩ := descent_within_parentheses hcheck
  have ha : Principal.NamedBy ⟨"A", .member⟩ "A.member" :=
    ⟨by decide, "member", by decide, by decide, toUpper_of_toList (by decide)⟩
  have hb : Principal.NamedBy ⟨"b", .peer⟩ "b.Peer" :=
    ⟨by decide, "Peer", by decide, by decide, toUpper_of_toList (by decide)⟩
  have houter : readLead ts = .ok (.group ⟨.all, 0, []⟩, ts.drop 2) :=
    readLead_eq_ok_iff.2 (.inr ⟨.all, ts.take 2, .all (toUpper_of_toList (by decide)), rfl, rfl, by decide⟩)
  have hinner : readLead (ts.drop 4) = .ok (.group ⟨.outOf, 1, []⟩, ts.drop 8) :=
    readLead_eq_ok_iff.2 (.inr ⟨.outOf 1, (ts.drop 4).take 4, .outOf (toUpper_of_toList (by decide)) (by decide), rfl,
      rfl, by decide⟩)
  have hfirst : readLead (ts.drop 2) = .ok (.principal ⟨"A", .member⟩, ts.drop 3) :=
    readLead_eq_ok_iff.2 (.inl ⟨_, _, ha, rfl, .inr ⟨rfl, noOpening_comma _⟩⟩)
  have hagain : readLead (ts.drop 8) = .ok (.principal ⟨"A", .member⟩, ts.drop 9) :=
    readLead_eq_ok_iff.2 (.inl ⟨_, _, ha, rfl, .inl rfl⟩)
  have hlast : readLead after = .ok (.principal ⟨"b", .peer⟩, after.drop 1) :=
    readLead_eq_ok_iff.2 (.inl ⟨_, _, hb, rfl, .inr ⟨rfl, noOpening_closeParen _⟩⟩)
  have hread : ReadsExpr ts.length [] ts (.ok (r, [⟨"A", .member⟩, ⟨"b", .peer⟩], [])) :=
    .group houter (.comma (.principal hfirst) (.closed (.group hinner (.comma (.principal hagain)
      (.closed (.principal hlast))))))
  have hentered := Enters.next (.first (.next (.first .start houter) (.principal hfirst)) hinner) (.principal hagain)
  obtain ⟨⟨read, hsplit, hsurplus⟩, -⟩ := henter _ _ _ hentered
  -- the groups in the rule are the rule itself and the second in it
  have hnodes : ∀ node depth, r.NodeAt node depth →
      node = r ∨ node = .nOutOf 1 [.signedBy 0, .signedBy 1] ∨ ∃ i, node = .signedBy i := by
    intro node depth h
    induction h with
    | root => exact .inl rfl
    | member _ hmem ih =>
      obtain heq | heq | ⟨i, heq⟩ := ih
      · obtain ⟨-, rfl⟩ := Rule.nOutOf.inj heq
        obtain rfl | rfl : _ = Rule.signedBy 0 ∨ _ = Rule.nOutOf 1 _ := by simpa using hmem
        · exact .inr (.inr ⟨0, rfl⟩)
        · exact .inr (.inl rfl)
      · obtain ⟨-, rfl⟩ := Rule.nOutOf.inj heq
        obtain rfl | rfl : _ = Rule.signedBy 0 ∨ _ = Rule.signedBy 1 := by simpa using hmem
        · exact .inr (.inr ⟨0, rfl⟩)
        · exact .inr (.inr ⟨1, rfl⟩)
      · cases heq
  refine ⟨hcheck, ⟨_, _, hentered, rfl, read, hsplit, hsurplus⟩, hread, hvalid _ _ hread ?_⟩
  intro n rules depth h
  obtain heq | heq | ⟨i, heq⟩ := hnodes _ _ h
  · obtain ⟨-, rfl⟩ := Rule.nOutOf.inj heq
    decide
  · obtain ⟨-, rfl⟩ := Rule.nOutOf.inj heq
    decide
  · cases heq

end Fabric.Compact.Descent

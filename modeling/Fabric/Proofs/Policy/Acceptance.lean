import Fabric.Proofs.Policy.Parsing

namespace Fabric.Compact

open Compact.Parser

/-- What the reader makes of tokens is the policy of an expression that they derive. -/
theorem outcome_start_eq_ok_iff {offset : Nat} {ts : List Token} {p : Policy} :
    start.outcome offset ts = .ok p ↔ ∃ e, Derives e ts ∧ p = e.policy := by
  -- the reader lists principals as it meets them, which is their order of first appearance
  have hfinish (e : Expr) : (start.take e).outcome offset [] = .ok e.policy := by
    rw [Expr.policy, ← noted_nil_eq_eraseDups]
    rfl
  have hstart : start.Ready := ready_expr _ _
  constructor
  · intro h
    obtain ⟨e, us, rest, rfl, he, h⟩ := exists_derives hstart h
    cases rest with
    | nil =>
      rw [hfinish] at h
      cases h
      exact ⟨e, by simpa using he, rfl⟩
    | cons t rest =>
      obtain ⟨q, hq, -⟩ := outcome_cons_eq_ok_iff.1 h
      cases hq
  · intro h
    obtain ⟨e, he, rfl⟩ := h
    have hread : start.outcome offset (ts ++ []) = (start.take e).outcome offset [] :=
      he.outcome hstart noOpening_nil
    rwa [List.append_nil, hfinish] at hread

theorem Derives.checkNesting_eq_ok_iff {e : Expr} {ts : List Token} (he : Derives e ts) :
    Compact.checkNesting 0 0 ts = .ok () ↔ e.nesting ≤ Policy.maxDepth := by
  have hcheck : Compact.checkNesting 0 0 (ts ++ []) =
      if 0 + e.nesting ≤ Policy.maxDepth then Compact.checkNesting 0 (0 + ts.length) []
      else .error (.tooDeep Policy.maxDepth) := he.checkNesting (Nat.zero_le _)
  rw [List.append_nil, Nat.zero_add] at hcheck
  rw [hcheck]
  split
  · next hle => simp [Compact.checkNesting, hle]
  · next hlt => simp [hlt]

theorem ofTokens_eq (ts : List Token) :
    ofTokens ts = (Compact.checkNesting 0 0 ts).bind fun _ => (start.outcome ts.length ts).bind Policy.validated := by
  simp only [ofTokens, outcome, bind]
  cases Compact.checkNesting 0 0 ts with
  | error e => rfl
  | ok u => cases start.run ts <;> rfl

theorem ofTokens_eq_ok_iff {ts : List Token} {p : Policy} :
    ofTokens ts = .ok p ↔
      ∃ e, Derives e ts ∧ e.nesting ≤ Policy.maxDepth ∧ p = e.policy ∧ p.validate = .ok () := by
  simp only [ofTokens_eq, bind_eq_ok_iff, outcome_start_eq_ok_iff, Policy.validated_eq_ok_iff]
  constructor
  · intro h
    obtain ⟨_, hnest, q, ⟨e, he, rfl⟩, hvalid, rfl⟩ := h
    exact ⟨e, he, he.checkNesting_eq_ok_iff.1 hnest, rfl, hvalid⟩
  · intro h
    obtain ⟨e, he, hnest, rfl, hvalid⟩ := h
    exact ⟨(), he.checkNesting_eq_ok_iff.2 hnest, e.policy, ⟨e, he, rfl⟩, hvalid, rfl⟩

theorem Derives.ne_nil {e : Expr} {ts : List Token} (he : Derives e ts) : ts ≠ [] := by
  cases he <;> simp

theorem Lexes.eq_nil_of_blank {cs : List Char} {ts : List Token} (hl : Lexes cs ts)
    (hb : ∀ c ∈ cs, Text.isBlank c = true) : ts = [] := by
  have hdrop : cs.dropWhile Text.isBlank = [] := by
    simpa using (span_append hb (nofun : ∀ a, [].head? = some a → _)).2
  have hsplit := hl.splitOnto []
  rw [Token.splitOnto_eq, hdrop] at hsplit
  simpa using hsplit.symm

/-- A text is read as a policy exactly if it reads as an expression that is not nested too deep, and the
policy is that of the expression and valid. -/
theorem parse_eq_ok_iff {s : String} {p : Policy} :
    parse s = .ok p ↔ ∃ e, Reads s e ∧ e.nesting ≤ Policy.maxDepth ∧ p = e.policy ∧ p.validate = .ok () := by
  have hbind : parse s = if Text.isBlankText s then .error .empty else (Token.split s).bind ofTokens := by
    rw [parse]
    split <;> rfl
  rw [hbind]
  split
  · next hb =>
    refine ⟨nofun, ?_⟩
    intro h
    obtain ⟨e, ⟨ts, hl, he⟩, -⟩ := h
    exact absurd (hl.eq_nil_of_blank (List.all_eq_true.1 hb)) he.ne_nil
  · simp only [bind_eq_ok_iff, split_eq_ok_iff, ofTokens_eq_ok_iff, Reads]
    constructor
    · intro h
      obtain ⟨ts, hl, e, he, h⟩ := h
      exact ⟨e, ⟨ts, hl, he⟩, h⟩
    · intro h
      obtain ⟨e, ⟨ts, hl, he⟩, h⟩ := h
      exact ⟨ts, hl, e, he, h⟩

theorem parse_of_reads {s : String} {e : Expr} (h : Reads s e) (hc : e.Countable)
    (hn : e.nesting ≤ Policy.maxDepth) : parse s = .ok e.policy := by
  obtain ⟨ts, hl, he⟩ := h
  exact parse_eq_ok_iff.2 ⟨e, ⟨ts, hl, he⟩, hn, rfl, (he.validate_policy hc).2 hn⟩

theorem Lexes.length_le {cs : List Char} {ts : List Token} (h : Lexes cs ts) : ts.length ≤ cs.length := by
  induction h with
  | done => exact Nat.le_refl _
  | word hne | number hne =>
    have hpos := List.length_pos_iff.2 hne
    simp only [List.length_cons, List.length_append]
    omega
  | _ =>
    simp only [List.length_cons, List.length_append]
    omega

theorem DerivesArgs.length_le {es : List Expr} {ts : List Token} : DerivesArgs es ts → es.length ≤ ts.length
  | .one he => List.length_pos_iff.2 he.ne_nil
  | .more _ hs => by
    have hle := hs.length_le
    simp only [List.length_cons, List.length_append]
    omega

mutual
theorem Derives.countable {e : Expr} {ts : List Token} :
    Derives e ts → ts.length < UInt32.size → e.Countable
  | .word _, _ | .quoted _, _ => trivial
  | .group _ ha _, hlen => by
    simp only [List.length_append] at hlen
    have hargs := ha.length_le
    exact ⟨by omega, ha.allCountable (by omega)⟩
theorem DerivesArgs.allCountable {es : List Expr} {ts : List Token} :
    DerivesArgs es ts → ts.length < UInt32.size → Expr.AllCountable es
  | .one h, hlen => ⟨h.countable hlen, trivial⟩
  | .more h hs, hlen => by
    simp only [List.length_append, List.length_cons] at hlen
    exact ⟨h.countable (by omega), hs.allCountable (by omega)⟩
end

/-- Shorter texts have no group that cannot be counted. -/
theorem countable_of_reads {s : String} (hs : s.toList.length < UInt32.size) {e : Expr} (h : Reads s e) :
    e.Countable := by
  obtain ⟨ts, hl, he⟩ := h
  have hlen : ts.length < UInt32.size := by
    calc
      ts.length ≤ s.toList.length := hl.length_le
      _ < UInt32.size := hs
  exact he.countable hlen

/-- The compact notation accepts exactly its grammar and builds exactly its tree, as long as the arguments of
a group can be counted in 32 bits. -/
theorem parse_iff_reads {s : String} {p : Policy} (hs : ∀ e, Reads s e → e.Countable) :
    parse s = .ok p ↔ ∃ e, Reads s e ∧ e.nesting ≤ Policy.maxDepth ∧ p = e.policy := by
  constructor
  · intro h
    obtain ⟨e, he, hn, hp, -⟩ := parse_eq_ok_iff.1 h
    exact ⟨e, he, hn, hp⟩
  · intro h
    obtain ⟨e, he, hn, rfl⟩ := h
    exact parse_of_reads he (hs e he) hn

/-- A text of two tokens a piece, with blanks, both ways of writing a principal and letters of either case. -/
theorem parse_iff_reads_and : (∀ e, Reads "And('A.member', b.Peer)" e → e.Countable) ∧
    parse "And('A.member', b.Peer)" =
      .ok ⟨0, [⟨"A", .member⟩, ⟨"b", .peer⟩], .nOutOf 2 [.signedBy 0, .signedBy 1]⟩ := by
  have hs : ∀ e, Reads "And('A.member', b.Peer)" e → e.Countable :=
    fun e he => countable_of_reads (by decide) he
  have hpeer : Lexes "b.Peer)".toList [.word "b.Peer", .closeParen] :=
    @Lexes.word ['b', '.', 'P', 'e', 'e', 'r'] _ _ (by decide) (List.all_eq_true.1 rfl) ⟨'b', by simp, rfl⟩
      (wordEnds_cons rfl) (.closeParen .done)
  have hmember : Lexes "'A.member', b.Peer)".toList [.quoted "A.member", .comma, .word "b.Peer", .closeParen] :=
    @Lexes.quoted '\'' ['A', '.', 'm', 'e', 'm', 'b', 'e', 'r'] _ _ rfl (by decide) (.comma (.blank rfl hpeer))
  have hl : Lexes "And('A.member', b.Peer)".toList
      [.word "And", .openParen, .quoted "A.member", .comma, .word "b.Peer", .closeParen] :=
    @Lexes.word ['A', 'n', 'd'] _ _ (by decide) (List.all_eq_true.1 rfl) ⟨'A', by simp, rfl⟩
      (wordEnds_cons rfl) (.openParen hmember)
  have ha : Principal.NamedBy ⟨"A", .member⟩ "A.member" :=
    ⟨by decide, "member", by decide, by decide, toUpper_of_toList (by decide)⟩
  have hb : Principal.NamedBy ⟨"b", .peer⟩ "b.Peer" :=
    ⟨by decide, "Peer", by decide, by decide, toUpper_of_toList (by decide)⟩
  have hopens : Opens .all [.word "And", .openParen] := .all (toUpper_of_toList (by decide))
  have hreads : Reads "And('A.member', b.Peer)"
      (.group .all [.principal ⟨"A", .member⟩, .principal ⟨"b", .peer⟩]) :=
    ⟨_, hl, .group hopens (.more (.quoted ha) (.one (.word hb))) trivial⟩
  exact ⟨hs, (parse_iff_reads hs).2 ⟨_, hreads, by decide, by decide⟩⟩

end Fabric.Compact

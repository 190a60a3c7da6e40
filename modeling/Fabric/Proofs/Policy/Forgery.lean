import Fabric.Policy.Input
import Fabric.Proofs.Policy.RoundTrip
import Fabric.Proofs.Policy.Satisfaction

/-!
What the printed text of a policy is worth. It is read as the same policy where no organisation's id holds a
single quote. An id that holds one can be written so that the text is that of another policy, which other
approvals satisfy; and the text never names an organisation with such an id, unless another id helps it out
with double quotes.
-/
namespace Fabric

namespace Approvals

theorem mspId_of_mem_widened {x y : Principal} (h : x ∈ widened y) : x.mspId = y.mspId :=
  (mem_widened_iff.1 h).1.symm

def ofTwo (x y : Principal) : Approvals := .ofPairs [(x.key, true), (y.key, true)]

variable {x y : Principal}

theorem mem_entries_ofTwo : (x.key, true) ∈ (ofTwo x y).entries ∧ (y.key, true) ∈ (ofTwo x y).entries :=
  ⟨Keyed.mem_insert_of_mem (Keyed.mem_insert_self ..) fun _ => rfl, Keyed.mem_insert_self ..⟩

theorem mem_granted_ofTwo (hx : x.mspId ≠ "") (hy : y.mspId ≠ "") :
    x ∈ (ofTwo x y).granted ∧ y ∈ (ofTwo x y).granted := by
  obtain ⟨hex, hey⟩ := mem_entries_ofTwo (x := x) (y := y)
  exact ⟨mem_granted.2 ⟨_, x, hex, Principal.namedBy_key hx, mem_widened_self x⟩,
    mem_granted.2 ⟨_, y, hey, Principal.namedBy_key hy, mem_widened_self y⟩⟩

/-- The approval of a principal counts for its organisation only. -/
theorem mspId_of_mem_granted_ofTwo_self {z : Principal} (hx : x.mspId ≠ "") (hz : z ∈ (ofTwo x x).granted) :
    z.mspId = x.mspId := by
  obtain ⟨key, w, hentry, hw, hz⟩ := mem_granted.1 hz
  have hkey : key = x.key := by simpa using Keyed.mem_of_mem_ofList hentry
  have hwx : w = x := by
    have hparse : Principal.parse x.key = .ok w := Principal.parse_eq_ok_iff.2 (hkey ▸ hw)
    rw [Principal.parse_eq_ok_iff.2 (Principal.namedBy_key hx)] at hparse
    exact (Except.ok.inj hparse).symm
  rw [mspId_of_mem_widened hz, hwx]

/-- Whatever the approvals of two principals count for stands in a text of one of them. -/
theorem mspId_of_mem_granted_ofTwo {z : Principal} (hz : z ∈ (ofTwo x y).granted) {c : Char}
    (hc : c ∈ z.mspId.toList) : c ∈ x.key.toList ∨ c ∈ y.key.toList := by
  obtain ⟨key, w, hentry, hw, hz⟩ := mem_granted.1 hz
  rw [mspId_of_mem_widened hz] at hc
  have hkey : key = x.key ∨ key = y.key := by simpa using Keyed.mem_of_mem_ofList hentry
  rcases hkey with rfl | rfl
  · exact .inl (hw.mem_toList hc)
  · exact .inr (hw.mem_toList hc)

end Approvals

namespace Compact

def QuoteFree (p : Policy) : Prop := ∀ x ∈ p.referenced, '\'' ∉ x.mspId.toList

/-- Where a printed policy without quotes is read at all, its ids are not empty. -/
theorem printable_of_parse {p q : Policy} (hp : p.validate = .ok ()) (hq : parse (printed p) = .ok q)
    (hquote : QuoteFree p) : Printable p := by
  obtain ⟨e, ⟨ts, hl, he⟩, -⟩ := parse_eq_ok_iff.1 hq
  rcases intact_or_torn_printed hp hl with ⟨-, hnames⟩ | ⟨n, x, -, hx, -, hno, -⟩
  · intro x hx
    refine ⟨?_, hquote x hx⟩
    -- the printed text of the principal names one, which it cannot without an organisation
    have hparse := he.parse_names
    rw [hnames, List.map_map] at hparse
    have hmem : Principal.parse x.key ∈ p.referenced.map (Principal.parse ∘ Principal.key) :=
      List.mem_map_of_mem hx
    rw [hparse] at hmem
    obtain ⟨y, -, hy⟩ := List.mem_map.1 hmem
    exact (Principal.parse_eq_ok_iff.1 hy.symm).ne_empty
  · exact absurd hno (hquote x (List.mem_of_getElem? hx))

theorem eq_reindexed_of_quoteFree {p q : Policy} (hp : p.validate = .ok ()) (hq : parse (printed p) = .ok q)
    (hquote : QuoteFree p) : q = p.reindexed := by
  rw [parse_printed_of_printable hp (printable_of_parse hp hq hquote)] at hq
  exact (Except.ok.inj hq).symm

def Unmixed (p : Policy) : Prop :=
  (∀ x ∈ p.referenced, '"' ∉ x.mspId.toList) ∨
    ∀ x ∈ p.referenced, '\'' ∈ x.mspId.toList → '"' ∈ x.mspId.toList

/-- What a printed policy is read as lists no organisation whose id holds a single quote. -/
theorem mspId_ne_of_parse {p q : Policy} (hq : parse (printed p) = .ok q) (hmix : Unmixed p) {x : Principal}
    (hx : x ∈ p.referenced) (hquote : '\'' ∈ x.mspId.toList) : ∀ w ∈ q.identities, w.mspId ≠ x.mspId := by
  obtain ⟨e, ⟨ts, hl, he⟩, -, rfl, -⟩ := parse_eq_ok_iff.1 hq
  intro w hw heq
  obtain ⟨s, hs, hname⟩ := he.exists_name (List.mem_eraseDups.1 hw)
  have hin : '\'' ∈ s.toList := hname.mem_toList (heq ▸ hquote)
  obtain ⟨hno, hmem⟩ := hl.quotes_of_mem_names hs hin
  rcases hmix with hnone | hboth
  · rw [printed, String.toList_ofList] at hmem
    obtain ⟨y, hy, hdouble⟩ := exists_of_doubleQuote_mem_ruleText hmem
    exact hnone y hy hdouble
  · have hdouble : '"' ∈ w.mspId.toList := heq ▸ hboth x hx hquote
    exact hno (hname.mem_toList hdouble)

def alone (x : Principal) : Policy := ⟨0, [x], .nOutOf 1 [.signedBy 0]⟩

def both (x y : Principal) : Policy := ⟨0, [x, y], .nOutOf 2 [.signedBy 0, .signedBy 1]⟩

/-- A principal whose organisation's id, in the quotes it is printed in, looks like two principals. -/
def forged (x y : Principal) : Principal := ⟨x.key ++ "', '" ++ y.mspId, y.role⟩

theorem validate_alone (x : Principal) : (alone x).validate = .ok () := by
  rw [Policy.validate_eq_ok_iff]
  simp [alone, Rule.WellFormed, Rule.AllWellFormed, Rule.nesting, Rule.nestingList, Policy.maxDepth]

theorem validate_both (x y : Principal) : (both x y).validate = .ok () := by
  rw [Policy.validate_eq_ok_iff]
  simp [both, Rule.WellFormed, Rule.AllWellFormed, Rule.nesting, Rule.nestingList, Policy.maxDepth]

theorem printed_forged (x y : Principal) : printed (alone (forged x y)) = printed (both x y) := by
  simp [printed, alone, both, forged, ruleText, rulesText, groupOpening, Principal.key]

theorem evaluate_alone (x : Principal) (a : Approvals) :
    (alone x).evaluate a = .ok true ↔ x ∈ a.granted := by
  rw [Policy.evaluate_of_valid (validate_alone x)]
  by_cases hx : x ∈ a.granted <;>
    simp [alone, Policy.evaluateRule, Policy.countSatisfied, Policy.principal, bind, Except.bind, pure, Except.pure, hx]

theorem evaluate_both (x y : Principal) (a : Approvals) :
    (both x y).evaluate a = .ok true ↔ x ∈ a.granted ∧ y ∈ a.granted := by
  rw [Policy.evaluate_of_valid (validate_both x y)]
  by_cases hx : x ∈ a.granted <;> by_cases hy : y ∈ a.granted <;>
    simp [both, Policy.evaluateRule, Policy.countSatisfied, Policy.principal, bind, Except.bind, pure, Except.pure, hx,
      hy]

/-- A forged policy is printed as the policy that asks for both principals, whose approvals do not satisfy
it. -/
theorem forged_read_as_both {x y : Principal} (hx : x.mspId ≠ "" ∧ '\'' ∉ x.mspId.toList)
    (hy : y.mspId ≠ "" ∧ '\'' ∉ y.mspId.toList) :
    parse (printed (alone (forged x y))) = .ok (both x y).reindexed ∧
      (both x y).reindexed.evaluate (.ofTwo x y) = .ok true ∧
      (alone (forged x y)).evaluate (.ofTwo x y) ≠ .ok true := by
  have hprint : Printable (both x y) := by
    intro z hz
    have hz : z = x ∨ z = y := by simpa [Policy.referenced, both, Rule.referenced, Rule.referencedIn] using hz
    rcases hz with rfl | rfl
    · exact hx
    · exact hy
  refine ⟨?_, ?_, ?_⟩
  · rw [printed_forged]
    exact parse_printed_of_printable (validate_both x y) hprint
  · rw [Policy.evaluate_reindexed (validate_both x y), evaluate_both]
    exact Approvals.mem_granted_ofTwo hx.1 hy.1
  · -- what the approvals count for holds no quote, and the id of the forged principal does
    rw [Ne, evaluate_alone]
    intro hmem
    have hquote : '\'' ∈ (forged x y).mspId.toList := by simp [forged]
    rcases Approvals.mspId_of_mem_granted_ofTwo hmem hquote with h | h
    · exact hx.2 ((Principal.quote_mem_key (.inl rfl)).1 h)
    · exact hy.2 ((Principal.quote_mem_key (.inl rfl)).1 h)

theorem dependsOn_alone {x : Principal} (hx : x.mspId ≠ "") : (alone x).DependsOn x.mspId := by
  refine ⟨.ofTwo x x, ⟨[]⟩, ?_, ?_⟩
  · intro z hz
    constructor
    · intro hmem
      exact absurd (Approvals.mspId_of_mem_granted_ofTwo_self hx hmem) hz
    · intro hmem
      cases hmem
  · have hyes : (alone x).evaluate (.ofTwo x x) = .ok true :=
      (evaluate_alone x _).2 (Approvals.mem_granted_ofTwo hx hx).1
    have hno : (alone x).evaluate ⟨[]⟩ ≠ .ok true := by
      rw [Ne, evaluate_alone]
      intro hmem
      cases hmem
    rw [hyes]
    exact fun heq => hno heq.symm

/-- What a printed policy is read as, if it is read at all, is the policy itself renumbered exactly if no id
that it refers to holds a single quote, and is then satisfied by the same approvals. Where the organisations
with such ids make a difference to the policy, and quotes are not mixed, it is satisfied by the same approvals
only then. -/
theorem printed_meaning {p q : Policy} {s : String} (hs : render p = .ok s) (hq : parse s = .ok q) :
    (q = p.reindexed ↔ QuoteFree p) ∧ (QuoteFree p → ∀ a, q.evaluate a = p.evaluate a) ∧
      ((∀ x ∈ p.referenced, '\'' ∈ x.mspId.toList → p.DependsOn x.mspId) → Unmixed p →
        ((∀ a, q.evaluate a = p.evaluate a) ↔ QuoteFree p)) := by
  obtain ⟨hp, rfl⟩ := render_eq_ok_iff.1 hs
  have hsame : QuoteFree p → ∀ a, q.evaluate a = p.evaluate a := by
    intro hquote a
    rw [eq_reindexed_of_quoteFree hp hq hquote, Policy.evaluate_reindexed hp]
  refine ⟨⟨?_, eq_reindexed_of_quoteFree hp hq⟩, hsame, ?_⟩
  · intro heq x hx
    subst heq
    have hprint : Printable p := (parse_printed_iff hp).1 hq
    exact (hprint x hx).2
  · intro hdepends hmix
    refine ⟨?_, hsame⟩
    intro heval x hx hquote
    -- what is read does not list the organisation, which makes a difference to the policy
    obtain ⟨a, ha⟩ := (hdepends x hx hquote).exists_evaluate_ne (mspId_ne_of_parse hq hmix hx hquote)
    exact ha (heval a)

/-- A principal that is forged of two is printed so that it is read as another policy. -/
theorem printed_meaning_forged : ∃ s q, render (alone (forged ⟨"A", .member⟩ ⟨"B", .member⟩)) = .ok s ∧
    parse s = .ok q ∧ q ≠ (alone (forged ⟨"A", .member⟩ ⟨"B", .member⟩)).reindexed ∧
      ¬ ∀ a, q.evaluate a = (alone (forged ⟨"A", .member⟩ ⟨"B", .member⟩)).evaluate a := by
  have hx : "A" ≠ "" ∧ '\'' ∉ "A".toList := by decide
  have hy : "B" ≠ "" ∧ '\'' ∉ "B".toList := by decide
  obtain ⟨hread, -, -⟩ := forged_read_as_both (x := ⟨"A", .member⟩) (y := ⟨"B", .member⟩) hx hy
  have hreferenced : (alone (forged ⟨"A", .member⟩ ⟨"B", .member⟩)).referenced =
      [forged ⟨"A", .member⟩ ⟨"B", .member⟩] := rfl
  have hno : ¬ QuoteFree (alone (forged ⟨"A", .member⟩ ⟨"B", .member⟩)) := by
    rw [QuoteFree, hreferenced, List.forall_mem_singleton]
    decide
  have hdepends : ∀ x ∈ (alone (forged ⟨"A", .member⟩ ⟨"B", .member⟩)).referenced, '\'' ∈ x.mspId.toList →
      (alone (forged ⟨"A", .member⟩ ⟨"B", .member⟩)).DependsOn x.mspId := by
    rw [hreferenced, List.forall_mem_singleton]
    exact fun _ => dependsOn_alone (by decide)
  have hmix : Unmixed (alone (forged ⟨"A", .member⟩ ⟨"B", .member⟩)) := by
    left
    rw [hreferenced, List.forall_mem_singleton]
    decide
  have hs := render_eq_ok_iff.2 ⟨validate_alone (forged ⟨"A", .member⟩ ⟨"B", .member⟩), rfl⟩
  obtain ⟨hsame, -, heval⟩ := printed_meaning hs hread
  exact ⟨_, _, hs, hread, mt hsame.1 hno, mt (heval hdepends hmix).1 hno⟩

theorem parse_forgery :
    parse "OR(\"A.MEMBER', 'B.member\")" = .ok (alone (forged ⟨"A", .member⟩ ⟨"B", .member⟩)) := by
  have hquoted : SplitsOff ('"' :: ("A.MEMBER', 'B.member".toList ++ ['"']))
      [.quoted (String.ofList "A.MEMBER', 'B.member".toList)] := splitsOff_quoted rfl (by decide)
  have hall := (splitsOff_keyword (s := "OR") (List.all_eq_true.1 rfl) ⟨'O', by simp, rfl⟩).append
    (hquoted.append (splitsOff_symbol (c := ')') rfl))
  have hl : Lexes "OR(\"A.MEMBER', 'B.member\")".toList
      [.word "OR", .openParen, .quoted (String.ofList "A.MEMBER', 'B.member".toList), .closeParen] :=
    (hall [] _).2 ⟨[], rfl, .done⟩
  have hname : (forged ⟨"A", .member⟩ ⟨"B", .member⟩).NamedBy (String.ofList "A.MEMBER', 'B.member".toList) :=
    ⟨by decide, "member", by decide, by decide, toUpper_of_toList (by decide)⟩
  have hopens : Opens .any [.word "OR", .openParen] := .any (toUpper_of_toList (by decide))
  have hreads : Reads "OR(\"A.MEMBER', 'B.member\")"
      (.group .any [.principal (forged ⟨"A", .member⟩ ⟨"B", .member⟩)]) :=
    ⟨_, hl, .group hopens (.one (.quoted hname)) trivial⟩
  exact parse_of_reads hreads ⟨by decide, trivial, trivial⟩ (by decide)

/-- A policy of one principal, written in the compact notation, is printed as one of two principals. -/
theorem evaluate_printed_forgery : ∃ p s q a,
    PolicyInput.normalize (.compact "OR(\"A.MEMBER', 'B.member\")") = .ok p ∧ render p = .ok s ∧
      parse s = .ok q ∧ q.evaluate a ≠ p.evaluate a := by
  have hx : "A" ≠ "" ∧ '\'' ∉ "A".toList := by decide
  have hy : "B" ≠ "" ∧ '\'' ∉ "B".toList := by decide
  obtain ⟨hread, hboth, halone⟩ := forged_read_as_both (x := ⟨"A", .member⟩) (y := ⟨"B", .member⟩) hx hy
  exact ⟨_, _, _, .ofTwo ⟨"A", .member⟩ ⟨"B", .member⟩, parse_forgery,
    render_eq_ok_iff.2 ⟨validate_alone _, rfl⟩, hread, fun h => halone (h ▸ hboth)⟩

end Compact

end Fabric

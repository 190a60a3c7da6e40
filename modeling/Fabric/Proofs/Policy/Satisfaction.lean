import Fabric.Proofs.Policy.Meaning
import Fabric.Proofs.Policy.Naming

namespace Fabric

def Principal.CountsFor (y x : Principal) : Prop :=
  y.mspId = x.mspId ∧ (y.role = x.role ∨ (y.role = .admin ∨ y.role = .peer) ∧ x.role = .member)

namespace Approvals

theorem mem_widened_iff {x y : Principal} : x ∈ widened y ↔ y.CountsFor x := by
  obtain ⟨xid, xrole⟩ := x
  obtain ⟨yid, yrole⟩ := y
  cases yrole <;> cases xrole <;> simp [widened, Principal.CountsFor, eq_comm]

theorem mem_widened_self (x : Principal) : x ∈ widened x := mem_widened_iff.2 ⟨rfl, .inl rfl⟩

theorem mem_granted {a : Approvals} {x : Principal} :
    x ∈ a.granted ↔ ∃ key y, (key, true) ∈ a.entries ∧ Principal.NamedBy y key ∧ x ∈ widened y := by
  simp only [granted, List.mem_flatMap, ← Principal.parse_eq_ok_iff]
  constructor
  · intro h
    obtain ⟨⟨key, approved⟩, hentry, hx⟩ := h
    cases approved with
    | false => cases hx
    | true =>
      simp only [grantedBy] at hx
      split at hx
      · next y hy => exact ⟨key, y, hentry, hy, hx⟩
      · cases hx
  · intro h
    obtain ⟨key, y, hentry, hy, hx⟩ := h
    exact ⟨(key, true), hentry, by simpa [grantedBy, hy] using hx⟩

end Approvals

/-- Approvals satisfy a rule of the policy: an approved text names a principal that counts for the one at
the rule's index; or some of the rules of a group, taken by their positions, are satisfied, and there are as
many of them as the group asks for. -/
inductive Policy.Satisfied (p : Policy) (a : Approvals) : Rule → Prop
  | signedBy {index : UInt32} {x y : Principal} {key : String} (hx : p.identities[index.toNat]? = some x)
      (hkey : (key, true) ∈ a.entries) (hy : y.NamedBy key) (hcounts : y.CountsFor x) :
      Satisfied p a (.signedBy index)
  | nOutOf {n : UInt32} {rules chosen : List Rule} (hchosen : chosen.Sublist rules)
      (hn : n.toNat ≤ chosen.length) (hall : ∀ r ∈ chosen, Satisfied p a r) : Satisfied p a (.nOutOf n rules)

namespace Rule

mutual
def holds (signed : UInt32 → Bool) : Rule → Bool
  | .signedBy i => signed i
  | .nOutOf n rules => n.toNat ≤ holding signed rules
def holding (signed : UInt32 → Bool) : List Rule → Nat
  | [] => 0
  | r :: rest => (if holds signed r then 1 else 0) + holding signed rest
end

variable {signed : UInt32 → Bool}

theorem holding_eq (rules : List Rule) : holding signed rules = (rules.filter (holds signed)).length := by
  induction rules with
  | nil => rfl
  | cons r rest ih =>
    rw [holding, ih, List.filter_cons]
    split
    · rw [List.length_cons, Nat.add_comm]
    · rw [Nat.zero_add]

theorem holding_le_length (rules : List Rule) : holding signed rules ≤ rules.length := by
  rw [holding_eq]
  exact List.length_filter_le ..

/-- At least so many rules hold exactly if so many can be chosen that all hold. -/
theorem le_holding_iff {n : Nat} {rules : List Rule} :
    n ≤ holding signed rules ↔
      ∃ chosen : List Rule, chosen.Sublist rules ∧ n ≤ chosen.length ∧ ∀ r ∈ chosen, r.holds signed = true := by
  rw [holding_eq]
  constructor
  · intro h
    exact ⟨_, List.filter_sublist, h, fun r hr => (List.mem_filter.1 hr).2⟩
  · intro h
    obtain ⟨chosen, hsub, hn, hall⟩ := h
    have hkept : chosen.filter (holds signed) = chosen := List.filter_eq_self.2 hall
    calc
      n ≤ chosen.length := hn
      _ = (chosen.filter (holds signed)).length := by rw [hkept]
      _ ≤ (rules.filter (holds signed)).length := (hsub.filter _).length_le

end Rule

namespace Policy

variable {p : Policy} {a b : Approvals} {granted : List Principal}

def signedAmong (p : Policy) (granted : List Principal) (index : UInt32) : Bool :=
  p.identities[index.toNat]?.any granted.contains

theorem signedAmong_eq_true_iff {index : UInt32} :
    p.signedAmong granted index = true ↔ ∃ x, p.identities[index.toNat]? = some x ∧ x ∈ granted := by
  simp [signedAmong, Option.any_eq_true]

mutual
/-- Every index of a well-formed rule has its principal, so that evaluation comes to an answer. -/
theorem exists_evaluateRule_eq_ok : ∀ {r : Rule}, r.WellFormed p.identities.length →
    ∃ verdict, p.evaluateRule granted r = .ok verdict
  | .signedBy i, hw => by
    have hi := List.getElem?_eq_getElem hw
    rw [evaluateRule, principal, hi]
    exact ⟨_, rfl⟩
  | .nOutOf n rules, hw => by
    obtain ⟨k, hk⟩ := exists_countSatisfied_eq_ok 0 hw.2.2
    rw [evaluateRule, hk]
    exact ⟨_, rfl⟩
theorem exists_countSatisfied_eq_ok : ∀ (satisfied : UInt32) {rules : List Rule},
    Rule.AllWellFormed p.identities.length rules → ∃ k, p.countSatisfied granted satisfied rules = .ok k
  | satisfied, [], _ => ⟨satisfied, by rw [countSatisfied]; rfl⟩
  | satisfied, r :: rest, hw => by
    obtain ⟨verdict, hr⟩ := exists_evaluateRule_eq_ok hw.1
    rw [countSatisfied, hr]
    cases verdict with
    | true => exact exists_countSatisfied_eq_ok (satisfied + 1) hw.2
    | false => exact exists_countSatisfied_eq_ok satisfied hw.2
end

mutual
/-- The count of a group is the number of its rules that hold, where 32 bits can tell how many rules there are. -/
theorem evaluateRule_eq_ok : ∀ {r : Rule}, r.WellFormed p.identities.length → r.GroupsBelow UInt32.size →
    p.evaluateRule granted r = .ok (r.holds (p.signedAmong granted))
  | .signedBy i, hw, _ => by
    have hi := List.getElem?_eq_getElem hw
    rw [evaluateRule, principal, Rule.holds, signedAmong, hi]
    rfl
  | .nOutOf n rules, hw, hg => by
    have hcount : p.countSatisfied granted 0 rules = _ := countSatisfied_eq_ok hw.2.2 hg.2
    -- no more rules hold than the group has, so the counter has not gone round
    have hlt : Rule.holding (p.signedAmong granted) rules < UInt32.size :=
      Nat.lt_of_le_of_lt (Rule.holding_le_length rules) hg.1
    have hle : n ≤ UInt32.ofNat (Rule.holding (p.signedAmong granted) rules) ↔
        n.toNat ≤ Rule.holding (p.signedAmong granted) rules := by
      rw [UInt32.le_iff_toNat_le, UInt32.toNat_ofNat_of_lt' hlt]
    rw [evaluateRule, hcount, Rule.holds, UInt32.zero_add]
    exact congrArg Except.ok (decide_eq_decide.2 hle)
/-- The counter comes to the number of the rules that hold, where it cannot overflow. -/
theorem countSatisfied_eq_ok : ∀ {rules : List Rule} {satisfied : UInt32},
    Rule.AllWellFormed p.identities.length rules → Rule.AllGroupsBelow UInt32.size rules →
      p.countSatisfied granted satisfied rules =
        .ok (satisfied + UInt32.ofNat (Rule.holding (p.signedAmong granted) rules))
  | [], satisfied, _, _ => by
    rw [countSatisfied, Rule.holding]
    exact congrArg Except.ok (UInt32.add_zero satisfied).symm
  | r :: rest, satisfied, hw, hg => by
    simp only [countSatisfied, evaluateRule_eq_ok hw.1 hg.1, countSatisfied_eq_ok hw.2 hg.2, Rule.holding,
      UInt32.ofNat_add, ← UInt32.add_assoc]
    cases r.holds (p.signedAmong granted) with
    | true => rfl
    | false => exact congrArg (fun k => Except.ok (k + _)) (UInt32.add_zero satisfied).symm
end

theorem evaluate_eq_ok (hp : p.validate = .ok ()) (hg : p.rule.GroupsBelow UInt32.size) :
    p.evaluate a = .ok (p.rule.holds (p.signedAmong a.granted)) := by
  rw [evaluate_of_valid hp, evaluateRule_eq_ok (validate_eq_ok_iff.1 hp).1 hg]

/-- The evaluation of a rule decides whether it is satisfied, whatever its indices refer to. -/
theorem holds_iff_satisfied (r : Rule) : r.holds (p.signedAmong a.granted) = true ↔ p.Satisfied a r := by
  induction r using Rule.induction with
  | signedBy index =>
    rw [Rule.holds, signedAmong_eq_true_iff]
    constructor
    · intro h
      obtain ⟨x, hx, hgranted⟩ := h
      obtain ⟨key, y, hkey, hy, hwidened⟩ := Approvals.mem_granted.1 hgranted
      exact .signedBy hx hkey hy (Approvals.mem_widened_iff.1 hwidened)
    · intro h
      cases h with
      | signedBy hx hkey hy hcounts =>
        exact ⟨_, hx, Approvals.mem_granted.2 ⟨_, _, hkey, hy, Approvals.mem_widened_iff.2 hcounts⟩⟩
  | nOutOf n rules ih =>
    -- there are as many as are asked for exactly if so many can be chosen
    rw [Rule.holds, decide_eq_true_eq, Rule.le_holding_iff]
    constructor
    · intro h
      obtain ⟨chosen, hsub, hn, hall⟩ := h
      exact .nOutOf hsub hn fun r hr => (ih r (hsub.subset hr)).1 (hall r hr)
    · intro h
      cases h with
      | nOutOf hsub hn hall => exact ⟨_, hsub, hn, fun r hr => (ih r (hsub.subset hr)).2 (hall r hr)⟩

instance (r : Rule) : Decidable (p.Satisfied a r) :=
  decidable_of_iff _ (holds_iff_satisfied r)

/-- Approvals that agree on the texts that count for a principal of the policy make no difference to it. -/
theorem evaluate_eq_of_agree
    (h : ∀ (key : String) (y : Principal), y.NamedBy key → (∃ x ∈ p.identities, y.CountsFor x) →
      ((key, true) ∈ a.entries ↔ (key, true) ∈ b.entries)) : p.evaluate a = p.evaluate b := by
  refine evaluate_congr fun x hx => ?_
  simp only [Approvals.mem_granted, Approvals.mem_widened_iff]
  constructor
  · intro hgranted
    obtain ⟨key, y, hkey, hy, hcounts⟩ := hgranted
    exact ⟨key, y, (h key y hy ⟨x, hx, hcounts⟩).1 hkey, hy, hcounts⟩
  · intro hgranted
    obtain ⟨key, y, hkey, hy, hcounts⟩ := hgranted
    exact ⟨key, y, (h key y hy ⟨x, hx, hcounts⟩).2 hkey, hy, hcounts⟩

/-- The evaluation of a policy is its error if it is not valid. A valid policy gets an answer, and where every group
has fewer than 2³² rules the answer is whether its rule is satisfied. Texts that are not approved, that name no
principal, or one that counts for none of the policy's principals, make no difference. -/
theorem evaluate_decides (p : Policy) (a : Approvals) :
    (∀ e, p.validate = .error e → p.evaluate a = .error e) ∧
      (p.validate = .ok () → ∃ verdict, p.evaluate a = .ok verdict ∧
        (p.rule.GroupsBelow UInt32.size → verdict = decide (p.Satisfied a p.rule))) ∧
      ∀ b : Approvals, (∀ (key : String) (y : Principal), y.NamedBy key →
        (∃ x ∈ p.identities, y.CountsFor x) → ((key, true) ∈ a.entries ↔ (key, true) ∈ b.entries)) →
          p.evaluate a = p.evaluate b := by
  refine ⟨?refused, ?decided, fun b h => evaluate_eq_of_agree h⟩
  case refused =>
    intro e he
    rw [evaluate, he]
    rfl
  case decided =>
    intro hp
    obtain ⟨verdict, hverdict⟩ : ∃ verdict, p.evaluateRule a.granted p.rule = .ok verdict :=
      exists_evaluateRule_eq_ok (validate_eq_ok_iff.1 hp).1
    refine ⟨verdict, by rw [evaluate_of_valid hp, hverdict], fun hg => ?_⟩
    have hholds : verdict = p.rule.holds (p.signedAmong a.granted) := by
      rw [evaluateRule_eq_ok (validate_eq_ok_iff.1 hp).1 hg, Except.ok.injEq] at hverdict
      exact hverdict.symm
    rw [hholds, Bool.eq_iff_iff, holds_iff_satisfied, decide_eq_true_eq]

/-- Two of three places are enough, which the approval of one peer fills as a member. A refused text, one that
names nobody and the approval of another role add nothing. -/
theorem evaluate_decides_peer :
    let p : Policy := ⟨3, [⟨"A.b", .member⟩, ⟨"B", .admin⟩], .nOutOf 2 [.signedBy 0, .signedBy 1, .signedBy 0]⟩
    let a : Approvals := ⟨[("A.b.MEMBER", false), ("A.b.Peer", true), ("B.peer", true), ("B", true)]⟩
    let b : Approvals := ⟨[("A.b.Peer", true)]⟩
    p.validate = .ok () ∧ p.rule.GroupsBelow UInt32.size ∧ p.evaluate a = .ok true ∧ p.evaluate a = p.evaluate b := by
  intro p a b
  have hvalid : p.validate = .ok () := by
    rw [validate_eq_ok_iff]
    simp [p, Rule.WellFormed, Rule.AllWellFormed, Rule.nesting, Rule.nestingList, maxDepth]
  have hpeer : Principal.NamedBy ⟨"A.b", .peer⟩ "A.b.Peer" :=
    ⟨by decide, "Peer", by decide, by decide, toUpper_of_toList (by decide)⟩
  have hmember : p.Satisfied a (.signedBy 0) :=
    .signedBy (x := ⟨"A.b", .member⟩) rfl (by simp [a]) hpeer ⟨rfl, .inr ⟨.inr rfl, rfl⟩⟩
  have hchosen : List.Sublist [Rule.signedBy 0, .signedBy 0] [.signedBy 0, .signedBy 1, .signedBy 0] := by simp
  have hrule : p.Satisfied a p.rule := by
    refine .nOutOf hchosen (by decide) ?_
    simpa using hmember
  have hsize : p.rule.GroupsBelow UInt32.size := by
    simp [p, Rule.GroupsBelow, Rule.AllGroupsBelow, UInt32.size]
  obtain ⟨-, hdecided, hagree⟩ := evaluate_decides p a
  obtain ⟨verdict, hverdict, hsatisfied⟩ := hdecided hvalid
  refine ⟨hvalid, hsize, ?_, hagree b ?_⟩
  · rw [hverdict, hsatisfied hsize, decide_eq_true hrule]
  · intro key y hy hcounts
    obtain ⟨x, hx, hid, hrole⟩ := hcounts
    have hparse : Principal.parse key = .ok y := Principal.parse_eq_ok_iff.2 hy
    have hnobody : key ≠ "B" := by
      intro heq
      rw [heq] at hparse
      cases hparse
    have hother : key ≠ "B.peer" := by
      intro heq
      have hname : Principal.NamedBy ⟨"B", .peer⟩ "B.peer" :=
        ⟨by decide, "peer", by decide, by decide, toUpper_of_toList (by decide)⟩
      rw [heq, Principal.parse_eq_ok_iff.2 hname] at hparse
      obtain rfl := Except.ok.inj hparse
      have hx : x = ⟨"A.b", .member⟩ ∨ x = ⟨"B", .admin⟩ := by simpa [p] using hx
      rcases hx with rfl | rfl
      · exact absurd hid (by decide)
      · exact absurd hrole (by decide)
    simp [a, b, hnobody, hother]

end Policy

end Fabric

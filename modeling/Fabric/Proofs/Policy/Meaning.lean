import Fabric.Policy.Approval
import Fabric.Proofs.Policy.Renumbering

namespace Fabric

namespace Policy

section Evaluation

variable {p q : Policy} {granted granted' : List Principal}

mutual
/-- A rule is evaluated by the list that its indices refer to, whichever list that is. -/
theorem evaluateRule_renumbered (hlen : q.identities.length ≤ UInt32.size) :
    ∀ {r : Rule}, r.WellFormed p.identities.length → (∀ x ∈ r.referenced p.identities, x ∈ q.identities) →
      q.evaluateRule granted (r.renumbered p.identities q.identities) = p.evaluateRule granted r
  | .signedBy i, hw, hx => by
    have hi := List.getElem?_eq_getElem hw
    rw [Rule.referenced, hi] at hx
    -- its principal is found again at the new index
    have hplace := getElem?_idxOf hlen (hx _ (List.mem_singleton_self _))
    simp only [Rule.renumbered, hi, evaluateRule, principal, hplace]
  | .nOutOf n rules, hw, hx => by
    rw [Rule.renumbered, evaluateRule, evaluateRule, countSatisfied_renumbered hlen hw.2.2 hx]
/-- A group that is renumbered is counted to the same number. -/
theorem countSatisfied_renumbered (hlen : q.identities.length ≤ UInt32.size) :
    ∀ {rules : List Rule} {satisfied : UInt32}, Rule.AllWellFormed p.identities.length rules →
      (∀ x ∈ Rule.referencedIn p.identities rules, x ∈ q.identities) →
      q.countSatisfied granted satisfied (Rule.allRenumbered p.identities q.identities rules) =
        p.countSatisfied granted satisfied rules
  | [], _, _, _ => rfl
  | r :: rest, _, hw, hx => by
    simp only [Rule.referencedIn, List.forall_mem_append] at hx
    simp only [Rule.allRenumbered, countSatisfied, evaluateRule_renumbered hlen hw.1 hx.1,
      countSatisfied_renumbered hlen hw.2 hx.2]
end

mutual
/-- Of the principals that approvals count for, only those matter that the policy lists. -/
theorem evaluateRule_congr (h : ∀ x ∈ p.identities, x ∈ granted ↔ x ∈ granted') :
    ∀ r : Rule, p.evaluateRule granted r = p.evaluateRule granted' r
  | .signedBy i => by
    rw [evaluateRule, evaluateRule, principal]
    split
    · next x hx => simp only [List.contains_eq_mem, h x (List.mem_of_getElem? hx), bind, Except.bind]
    · rfl
  | .nOutOf n rules => by rw [evaluateRule, evaluateRule, countSatisfied_congr h rules]
theorem countSatisfied_congr (h : ∀ x ∈ p.identities, x ∈ granted ↔ x ∈ granted') :
    ∀ (rules : List Rule) {satisfied : UInt32},
      p.countSatisfied granted satisfied rules = p.countSatisfied granted' satisfied rules
  | [], _ => rfl
  | r :: rest, _ => by simp only [countSatisfied, evaluateRule_congr h r, countSatisfied_congr h rest]
end

end Evaluation

theorem evaluate_of_valid {p : Policy} (hp : p.validate = .ok ()) (a : Approvals) :
    p.evaluate a = p.evaluateRule a.granted p.rule := by
  rw [evaluate, hp]
  rfl

/-- A valid policy and the policy that lists just the principals it refers to are satisfied by the same
approvals. -/
theorem evaluate_reindexed {p : Policy} (hp : p.validate = .ok ()) (a : Approvals) :
    p.reindexed.evaluate a = p.evaluate a := by
  rw [evaluate_of_valid hp, evaluate_of_valid (validate_reindexed hp)]
  exact evaluateRule_renumbered p.length_eraseDups_referenced (validate_eq_ok_iff.1 hp).1
    fun x hx => List.mem_eraseDups.2 hx

/-- Approvals count only by the principals that the policy lists. -/
theorem evaluate_congr {p : Policy} {a b : Approvals} (h : ∀ x ∈ p.identities, x ∈ a.granted ↔ x ∈ b.granted) :
    p.evaluate a = p.evaluate b := by
  rw [evaluate, evaluate, evaluateRule_congr h]

def DependsOn (p : Policy) (mspId : String) : Prop :=
  ∃ a b : Approvals, (∀ x : Principal, x.mspId ≠ mspId → (x ∈ a.granted ↔ x ∈ b.granted)) ∧
    p.evaluate a ≠ p.evaluate b

/-- A policy that does not list an organisation means something else than one that depends on it. -/
theorem DependsOn.exists_evaluate_ne {p q : Policy} {mspId : String} (h : p.DependsOn mspId)
    (hq : ∀ x ∈ q.identities, x.mspId ≠ mspId) : ∃ a, q.evaluate a ≠ p.evaluate a := by
  obtain ⟨a, b, hagree, hne⟩ := h
  have hsame : q.evaluate a = q.evaluate b := evaluate_congr fun x hx => hagree x (hq x hx)
  by_cases ha : q.evaluate a = p.evaluate a
  · refine ⟨b, fun hb => hne ?_⟩
    rw [← ha, hsame, hb]
  · exact ⟨a, ha⟩

end Policy

end Fabric

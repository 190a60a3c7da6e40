import Fabric.Proofs.Policy.Lexing
import Fabric.Proofs.Policy.Naming
import Fabric.Proofs.Policy.Renumbering

namespace Fabric.Compact

inductive Demand
  | all
  | any
  | outOf (n : UInt32)

def Demand.count : Demand → Nat → UInt32
  | .all, k => UInt32.ofNat k
  | .any, _ => 1
  | .outOf n, _ => n

def Demand.Fits : Demand → Nat → Prop
  | .outOf n, k => 1 ≤ n.toNat ∧ n.toNat ≤ k
  | _, _ => True

inductive Expr
  | principal (x : Principal)
  | group (d : Demand) (args : List Expr)

namespace Expr

mutual
def principals : Expr → List Principal
  | .principal x => [x]
  | .group _ args => principalsOf args
def principalsOf : List Expr → List Principal
  | [] => []
  | e :: rest => principals e ++ principalsOf rest
end

mutual
def nesting : Expr → Nat
  | .principal _ => 0
  | .group _ args => nestingOf args + 1
def nestingOf : List Expr → Nat
  | [] => 0
  | e :: rest => max (nesting e) (nestingOf rest)
end

mutual
def rule (identities : List Principal) : Expr → Rule
  | .principal x => .signedBy (UInt32.ofNat (identities.idxOf x))
  | .group d args => .nOutOf (d.count args.length) (rules identities args)
def rules (identities : List Principal) : List Expr → List Rule
  | [] => []
  | e :: rest => rule identities e :: rules identities rest
end

mutual
def Countable : Expr → Prop
  | .principal _ => True
  | .group _ args => args.length < UInt32.size ∧ AllCountable args
def AllCountable : List Expr → Prop
  | [] => True
  | e :: rest => Countable e ∧ AllCountable rest
end

def policy (e : Expr) : Policy := ⟨0, e.principals.eraseDups, e.rule e.principals.eraseDups⟩

end Expr

/-- What a group begins with: its keyword in any letter case and a parenthesis, and the number that is
written in it. -/
inductive Opens : Demand → List Token → Prop
  | all {s : String} (h : s.toUpper = "AND") : Opens .all [.word s, .openParen]
  | any {s : String} (h : s.toUpper = "OR") : Opens .any [.word s, .openParen]
  | outOf {s digits : String} {n : UInt32} (h : s.toUpper = "OUTOF")
      (hn : Nat.ofDigitChars 10 digits.toList 0 = n.toNat) :
      Opens (.outOf n) [.word s, .openParen, .number digits, .comma]

mutual
/-- The tokens derive the expression: a principal, or a group around arguments. -/
inductive Derives : Expr → List Token → Prop
  | word {x : Principal} {s : String} (h : x.NamedBy s) : Derives (.principal x) [.word s]
  | quoted {x : Principal} {s : String} (h : x.NamedBy s) : Derives (.principal x) [.quoted s]
  | group {d : Demand} {args : List Expr} {opening inner : List Token} (ho : Opens d opening)
      (ha : DerivesArgs args inner) (hd : d.Fits args.length) :
      Derives (.group d args) (opening ++ (inner ++ [.closeParen]))
inductive DerivesArgs : List Expr → List Token → Prop
  | one {e : Expr} {ts : List Token} (h : Derives e ts) : DerivesArgs [e] ts
  | more {e : Expr} {es : List Expr} {ts us : List Token} (h : Derives e ts) (hs : DerivesArgs es us) :
      DerivesArgs (e :: es) (ts ++ .comma :: us)
end

def Reads (s : String) (e : Expr) : Prop := ∃ ts, Lexes s.toList ts ∧ Derives e ts

namespace Expr

theorem rules_eq_map (identities : List Principal) (args : List Expr) :
    rules identities args = args.map (rule identities) := by
  induction args with
  | nil => rfl
  | cons e rest ih => rw [rules, ih, List.map_cons]

theorem length_rules (identities : List Principal) (args : List Expr) :
    (rules identities args).length = args.length := by
  rw [rules_eq_map, List.length_map]

mutual
theorem nesting_rule (identities : List Principal) : ∀ e : Expr, (e.rule identities).nesting = e.nesting
  | .principal _ => rfl
  | .group d args => by rw [rule, Rule.nesting, nesting, nestingList_rules identities args]
theorem nestingList_rules (identities : List Principal) :
    ∀ args, Rule.nestingList (rules identities args) = nestingOf args
  | [] => rfl
  | e :: rest => by
    rw [rules, Rule.nestingList, nestingOf, nesting_rule identities e, nestingList_rules identities rest]
end

end Expr

theorem Demand.count_in_range {d : Demand} {k : Nat} (hd : d.Fits k) (hpos : 1 ≤ k) (hk : k < UInt32.size) :
    1 ≤ (d.count k).toNat ∧ (d.count k).toNat ≤ k := by
  cases d with
  | all => simp only [count, UInt32.toNat_ofNat_of_lt' hk]; omega
  | any => exact ⟨Nat.le_refl _, hpos⟩
  | outOf n => exact hd

theorem DerivesArgs.length_pos {es : List Expr} {ts : List Token} (h : DerivesArgs es ts) : 1 ≤ es.length := by
  cases h <;> simp

mutual
/-- The rule of a derived expression is well-formed once its principals are in the list. -/
theorem Derives.wellFormed {identities : List Principal} {e : Expr} {ts : List Token} :
    Derives e ts → e.Countable → (∀ x ∈ e.principals, x ∈ identities) →
      (e.rule identities).WellFormed identities.length
  | .word _, _, hx | .quoted _, _, hx => toNat_idxOf_lt (hx _ (List.mem_singleton_self _))
  | .group _ ha hd, hc, hx => by
    have hrange := Demand.count_in_range hd ha.length_pos hc.1
    have hall := ha.allWellFormed hc.2 hx
    rw [Expr.rule, Rule.WellFormed, Expr.length_rules]
    exact ⟨hrange.1, hrange.2, hall⟩
theorem DerivesArgs.allWellFormed {identities : List Principal} {es : List Expr} {ts : List Token} :
    DerivesArgs es ts → Expr.AllCountable es → (∀ x ∈ Expr.principalsOf es, x ∈ identities) →
      Rule.AllWellFormed identities.length (Expr.rules identities es)
  | .one h, hc, hx => ⟨h.wellFormed hc.1 fun x hmem => hx x (by simpa [Expr.principalsOf] using hmem), trivial⟩
  | .more h hs, hc, hx => by
    simp only [Expr.principalsOf, List.forall_mem_append] at hx
    exact ⟨h.wellFormed hc.1 hx.1, hs.allWellFormed hc.2 hx.2⟩
end

/-- The policy of a derived expression is valid if its groups are not nested too deep. -/
theorem Derives.validate_policy {e : Expr} {ts : List Token} (h : Derives e ts) (hc : e.Countable) :
    e.policy.validate = .ok () ↔ e.nesting ≤ Policy.maxDepth := by
  rw [Policy.validate_eq_ok_iff, Expr.policy, Expr.nesting_rule]
  exact and_iff_right (h.wellFormed hc fun x hx => List.mem_eraseDups.2 hx)

end Fabric.Compact

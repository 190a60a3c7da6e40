import Fabric.Definition.Document
import Fabric.Proofs.Policy.Canonical

/-!
Policies in documents. The reader of documents stops at a number of arrays and objects around one another that the
reader of policies by themselves does not have. Main statement: a valid policy is read back from its own JSON, alone
or in a collection or a definition, exactly if its groups are nested at most 41 deep.
-/
namespace Fabric

namespace Json

mutual
/-- The reader's limit on documents is a bound on how deeply their arrays and objects are nested. -/
theorem Document.within_iff : ∀ {d : Document} {limit : Nat}, d.within limit = true ↔ d.nesting ≤ limit
  | .null, _ | .bool _, _ | .number _, _ | .string _, _ => by simp [within, nesting]
  | .array items, limit => by
    rw [within, nesting, Bool.and_eq_true, decide_eq_true_iff, itemsWithin_iff]
    omega
  | .object members, limit => by
    rw [within, nesting, Bool.and_eq_true, decide_eq_true_iff, membersWithin_iff]
    omega
theorem Document.itemsWithin_iff : ∀ {items : List Document} {limit : Nat},
    itemsWithin limit items = true ↔ nestingOfItems items ≤ limit
  | [], _ => by simp [itemsWithin, nestingOfItems]
  | d :: rest, limit => by
    rw [itemsWithin, nestingOfItems, Bool.and_eq_true, within_iff, itemsWithin_iff, Nat.max_le]
theorem Document.membersWithin_iff : ∀ {members : List (Option String × Document)} {limit : Nat},
    membersWithin limit members = true ↔ nestingOfMembers members ≤ limit
  | [], _ => by simp [membersWithin, nestingOfMembers]
  | (_, d) :: rest, limit => by
    rw [membersWithin, nestingOfMembers, Bool.and_eq_true, within_iff, membersWithin_iff, Nat.max_le]
end

/-- The document that writes a value out denotes it, unless the value is nested too deep. -/
theorem value?_toDocument {v : Json} (hv : v.Integral) (limit : Nat) :
    (toDocument v).value? limit = if v.nesting ≤ limit then some v.sorted else none := by
  simp only [Document.value?, Document.within_iff, nesting_toDocument, toJson?_toDocument hv]

theorem read?_compact {v : Json} (hv : v.Integral) : Document.read? v.compact = some (toDocument v) := by
  rw [Document.read?, split_compact hv, Document.ofTokens?_tokens]

end Json

open Json (toDocument)

/-- A rule stands for principals, of which there is one at least. -/
theorem Rule.WellFormed.identities_pos {identities : Nat} {r : Rule} (h : r.WellFormed identities) :
    0 < identities := by
  induction r using Rule.induction with
  | signedBy i => exact Nat.lt_of_le_of_lt (Nat.zero_le _) h
  | nOutOf n rules ih =>
    rw [wellFormed_nOutOf] at h
    obtain ⟨hpos, hle, hrules⟩ := h
    obtain ⟨r, hr⟩ := List.exists_mem_of_length_pos (Nat.le_trans hpos hle)
    exact ih r hr (hrules r hr)

namespace Policy

theorem nestingOfItems_rulesToJson {rules : List Rule} (hne : rules ≠ [])
    (h : ∀ r ∈ rules, (ruleToJson r).nesting = 3 * r.nesting + 1) :
    Json.nestingOfItems (rulesToJson rules) = 3 * Rule.nestingList rules + 1 := by
  induction rules with
  | nil => exact absurd rfl hne
  | cons r rest ih =>
    rw [List.forall_mem_cons] at h
    rw [rulesToJson, Json.nestingOfItems, Rule.nestingList, h.1]
    cases rest with
    | nil => simp [rulesToJson, Json.nestingOfItems, Rule.nestingList]
    | cons r' rest =>
      rw [ih (List.cons_ne_nil _ _) h.2]
      omega

/-- A rule without empty groups takes three levels of JSON for each of its deepest groups, and one. -/
theorem nesting_ruleToJson_eq {identities : Nat} {r : Rule} (h : r.WellFormed identities) :
    (ruleToJson r).nesting = 3 * r.nesting + 1 := by
  induction r using Rule.induction with
  | signedBy i => rfl
  | nOutOf n rules ih =>
    rw [Rule.wellFormed_nOutOf] at h
    obtain ⟨hpos, hle, hrules⟩ := h
    have hne : rules ≠ [] := List.ne_nil_of_length_pos (Nat.le_trans hpos hle)
    have hitems := nestingOfItems_rulesToJson hne fun r hr => ih r hr (hrules r hr)
    simp only [ruleToJson, Json.nesting, Json.nestingOfMembers, Json.ofNat, hitems, Rule.nesting]
    omega

def documentDepth : Nat := (Json.Document.maxNesting - 2) / 3

section Valid

variable {p : Policy} (h : p.validate = .ok ())
include h

/-- Four levels for a principal, or two around the rule. -/
theorem nesting_toJson_eq : p.toJson.nesting = max 4 (3 * p.rule.nesting + 2) := by
  obtain ⟨hwell, -⟩ := validate_eq_ok_iff.1 h
  have hrule := nesting_ruleToJson_eq hwell
  have hidentities : Json.nestingOfItems (p.identities.map principalToJson) = 2 := by
    obtain ⟨x, rest, hx⟩ := List.exists_cons_of_length_pos hwell.identities_pos
    have hrest : Json.nestingOfItems (rest.map principalToJson) ≤ 2 := by
      rw [Json.nestingOfItems_le_iff, List.forall_mem_map]
      exact fun x _ => Nat.le_refl 2
    rw [hx, List.map_cons, Json.nestingOfItems]
    exact Nat.max_eq_left hrest
  simp only [toJson, Json.nesting, Json.nestingOfMembers, Json.ofInt, hidentities, hrule]
  omega

/-- One or two levels around the policy leave room for as many groups as none. -/
theorem nesting_toJson_le_iff {around : Nat} (haround : around ≤ 2) :
    p.toJson.nesting ≤ Json.Document.maxNesting - around ↔ p.rule.nesting ≤ documentDepth := by
  rw [nesting_toJson_eq h]
  simp only [documentDepth, Json.Document.maxNesting]
  omega

/-- What becomes of the policy's document where levels of another stand around it. -/
theorem value?_toJson {around : Nat} (haround : around ≤ 2) :
    (toDocument p.toJson).value? (Json.Document.maxNesting - around) =
      if p.rule.nesting ≤ documentDepth then some p.toJson.sorted else none := by
  simp only [Json.value?_toDocument (integral_toJson p), nesting_toJson_le_iff h haround]

theorem input_ofDocument?_toJson {around : Nat} (haround : around ≤ 2) :
    PolicyInput.ofDocument? (Json.Document.maxNesting - around) (toDocument p.toJson) =
      if p.rule.nesting ≤ documentDepth then some (.json p.toJson.sorted) else none := by
  rw [PolicyInput.ofDocument?, value?_toJson h haround]
  split
  · rw [Option.map_some, sorted_toJson]
    rfl
  · rfl

theorem parse?_toJson :
    parse? p.toJson.compact = if p.rule.nesting ≤ documentDepth then some p else none := by
  have hvalue := value?_toJson h (Nat.zero_le 2)
  rw [Nat.sub_zero] at hvalue
  rw [parse?, Json.read?_compact (integral_toJson p), Option.bind_eq_bind, Option.bind_some, ofDocument?, hvalue]
  split
  · simp [ofJson_sorted_of_valid p h, Except.toOption]
  · rfl

theorem input_parse?_toJson :
    PolicyInput.parse? p.toJson.compact =
      if p.rule.nesting ≤ documentDepth then some (.json p.toJson.sorted) else none := by
  rw [PolicyInput.parse?, Json.read?_compact (integral_toJson p)]
  exact input_ofDocument?_toJson h (Nat.zero_le 2)

end Valid

end Policy

namespace Json

section Numbers

theorem integral_ofInt32 (n : Int32) : (ofInt n.toInt).Integral := by
  have hrange := Policy.toInt_mem_range n
  have hmin : Int64.minValue.toInt ≤ Int32.minValue.toInt := by decide
  have hmax : Int32.maxValue.toInt < UInt64.size := by decide
  exact ⟨by omega, by omega⟩

theorem toInt64_mem_range (n : Int64) : Int64.minValue.toInt ≤ n.toInt ∧ n.toInt ≤ Int64.maxValue.toInt := by
  have hmin : Int64.minValue.toInt = -9223372036854775808 := rfl
  have hmax : Int64.maxValue.toInt = 9223372036854775807 := rfl
  have hle := n.le_toInt
  have hlt := n.toInt_lt
  omega

theorem integral_ofInt64 (n : Int64) : (ofInt n.toInt).Integral := by
  have hrange := toInt64_mem_range n
  have hmax : Int64.maxValue.toInt < UInt64.size := by decide
  exact ⟨hrange.1, by omega⟩

theorem integral_ofNat64 (n : UInt64) : (ofNat n.toNat).Integral := by
  have hlt : n.toNat < UInt64.size := n.toNat_lt_size
  have hmin : Int64.minValue.toInt ≤ 0 := by decide
  exact ⟨by omega, by omega⟩

end Numbers

namespace Document

theorem orDefault_some {α : Type} (fallback : α) (read : Document → Option α) (d : Document) :
    orDefault fallback read (some d) = read d := rfl

theorem int?_ofInt {n : Int} (h : (ofInt n).Integral) : (toDocument (.ofInt n)).int? = some n := by
  simp only [ofInt, toDocument, int?, toNumber?_literal h]

theorem int32?_ofInt (n : Int32) : (toDocument (.ofInt n.toInt)).int32? = some n := by
  rw [int32?, int?_ofInt (integral_ofInt32 n)]
  exact Policy.int32?_toInt n

theorem int64?_ofInt (n : Int64) : (toDocument (.ofInt n.toInt)).int64? = some n := by
  rw [int64?, int?_ofInt (integral_ofInt64 n)]
  exact (if_pos (toInt64_mem_range n)).trans (congrArg some (Int64.ofInt_toInt n))

theorem uint64?_ofNat (n : UInt64) : (toDocument (.ofNat n.toNat)).uint64? = some n := by
  have hint : (toDocument (.ofNat n.toNat)).int? = some (n.toNat : Int) := int?_ofInt (integral_ofNat64 n)
  rw [uint64?, hint]
  exact (if_pos n.toNat_lt_size).trans (congrArg some UInt64.ofNat_toNat)

theorem optional_text? (s : Option String) : optional text? (s.map fun t => .string (some t)) = some s := by
  cases s <;> rfl

end Document

end Json

theorem CollectionDefinition.ofDocument?_toJson {c : CollectionDefinition} (hc : c.endorsementPolicy = none)
    (limit : Nat) :
    ofDocument? limit (toDocument c.toJson) =
      (PolicyInput.ofDocument? (limit - 1) (toDocument c.memberOrgsPolicy.toJson)).map fun input =>
        { c with memberOrgsPolicy := input } := by
  obtain ⟨name, required, maximum, life, read, write, members, endorsement⟩ := c
  cases hc
  have hrecord : Json.Document.record? fields
      (toDocument (toJson ⟨name, required, maximum, life, read, write, members, none⟩)) =
      some [some (.string (some name)), some (toDocument (.ofInt required.toInt)),
        some (toDocument (.ofInt maximum.toInt)), some (toDocument (.ofNat life.toNat)), some (.bool read),
        some (.bool write), some (toDocument members.toJson), none] := rfl
  rw [ofDocument?, hrecord]
  dsimp only
  rw [Json.Document.orDefault_some, Json.Document.int32?_ofInt, Json.Document.orDefault_some,
    Json.Document.int32?_ofInt, Json.Document.orDefault_some, Json.Document.uint64?_ofNat]
  cases PolicyInput.ofDocument? (limit - 1) (toDocument members.toJson) <;> rfl

theorem ValidationParameter.ofDocument?_signaturePolicy (limit : Nat) (v : Json) :
    ofDocument? limit (toDocument (.object [("signaturePolicy", v)])) =
      (PolicyInput.ofDocument? (limit - 1) (toDocument v)).map .signaturePolicy := rfl

theorem ChaincodeDefinition.ofDocument?_toJson {d : ChaincodeDefinition} {input : PolicyInput}
    (hv : d.validation = .signaturePolicy input) (hd : d.collections = []) (limit : Nat) :
    ofDocument? limit (toDocument d.toJson) =
      (PolicyInput.ofDocument? (limit - 2) (toDocument input.toJson)).map fun input =>
        { d with validation := .signaturePolicy input } := by
  obtain ⟨name, version, sequence, init, endorsement, validator, validation, collections⟩ := d
  cases hv
  cases hd
  have hrecord : Json.Document.record? fields
      (toDocument (toJson ⟨name, version, sequence, init, endorsement, validator, .signaturePolicy input, []⟩)) =
      some [some (.string (some name)), some (.string (some version)), some (toDocument (.ofInt sequence.toInt)),
        some (.bool init), endorsement.map fun p => .string (some p), validator.map fun p => .string (some p),
        some (toDocument (.object [("signaturePolicy", input.toJson)])), none] := by
    cases endorsement <;> cases validator <;> rfl
  rw [ofDocument?, hrecord]
  dsimp only
  rw [Json.Document.orDefault_some, Json.Document.optional_text?, Json.Document.optional_text?,
    Json.Document.orDefault_some, ValidationParameter.ofDocument?_signaturePolicy, Nat.sub_sub]
  have hsequence : (some (toDocument (.ofInt sequence.toInt))).bind Json.Document.int64? = some sequence :=
    Json.Document.int64?_ofInt sequence
  rw [hsequence]
  cases PolicyInput.ofDocument? (limit - 2) (toDocument input.toJson) <;> rfl

/-- A collection is read back from its own JSON if the groups of its policy are within the limit, and not otherwise. -/
theorem CollectionDefinition.parse?_toJson {p : Policy} (h : p.validate = .ok ()) {c : CollectionDefinition}
    (hpolicy : c.memberOrgsPolicy = .canonical p) (hc : c.endorsementPolicy = none) :
    parse? c.toJson.compact =
      if p.rule.nesting ≤ Policy.documentDepth then some { c with memberOrgsPolicy := .json p.toJson.sorted }
      else none := by
  have hv : c.toJson.Integral := by
    rw [toJson, hpolicy, hc]
    exact ⟨trivial, Json.integral_ofInt32 _, Json.integral_ofInt32 _, Json.integral_ofNat64 _, trivial, trivial,
      Policy.integral_toJson p, trivial⟩
  have hread := ofDocument?_toJson hc Json.Document.maxNesting
  rw [hpolicy, PolicyInput.toJson, Policy.input_ofDocument?_toJson h (by decide)] at hread
  rw [parse?, Json.read?_compact hv]
  refine hread.trans ?_
  split <;> rfl

/-- So is a definition that is validated by a policy. -/
theorem ChaincodeDefinition.parse?_toJson {p : Policy} (h : p.validate = .ok ()) {d : ChaincodeDefinition}
    (hpolicy : d.validation = .signaturePolicy (.canonical p)) (hd : d.collections = []) :
    parse? d.toJson.compact =
      if p.rule.nesting ≤ Policy.documentDepth then
        some { d with validation := .signaturePolicy (.json p.toJson.sorted) }
      else none := by
  have hv : d.toJson.Integral := by
    obtain ⟨name, version, sequence, init, endorsement, validator, validation, collections⟩ := d
    cases hpolicy
    cases hd
    have hvalidation : (ValidationParameter.signaturePolicy (.canonical p)).toJson.Integral :=
      ⟨Policy.integral_toJson p, trivial⟩
    have hsequence := Json.integral_ofInt64 sequence
    cases endorsement <;> cases validator <;>
      simp [toJson, Json.Integral, Json.MembersIntegral, hvalidation, hsequence]
  have hread := ofDocument?_toJson hpolicy hd Json.Document.maxNesting
  rw [PolicyInput.toJson, Policy.input_ofDocument?_toJson h (by decide)] at hread
  rw [parse?, Json.read?_compact hv]
  refine hread.trans ?_
  split <;> rfl

def Rule.tower : Nat → Rule
  | 0 => .signedBy 0
  | n + 1 => .nOutOf 1 [tower n]

theorem Rule.nesting_tower (n : Nat) : (tower n).nesting = n := by
  induction n with
  | zero => rfl
  | succ n ih => simp [tower, nesting, nestingList, ih]

theorem Rule.wellFormed_tower (n : Nat) : (tower n).WellFormed 1 := by
  induction n with
  | zero => exact Nat.one_pos
  | succ n ih =>
    rw [tower, wellFormed_nOutOf, List.forall_mem_singleton]
    exact ⟨by decide, Nat.le_refl 1, ih⟩

namespace Policy

theorem validate_tower {n : Nat} (hn : n ≤ maxDepth) (x : Principal) :
    validate ⟨0, [x], .tower n⟩ = .ok () := by
  rw [validate_eq_ok_iff, Rule.nesting_tower]
  exact ⟨Rule.wellFormed_tower n, hn⟩

/-- The reader of policies by themselves has room for every valid policy. -/
theorem normalize_parseJson_toJson {p : Policy} (h : p.validate = .ok ()) :
    (PolicyInput.parseJson p.toJson.compact).bind PolicyInput.normalize = .ok p := by
  have hv := integral_toJson p
  exact normalize_parseJson p h (Nat.le_of_eq (Json.bracketNesting_compact hv)) (Json.parse?_compact hv)

/-- A valid policy is read back from its own JSON exactly if its groups are nested no deeper than a document may be,
which is 41 deep; and so it is where it stands in a collection or as the validation of a definition. There it is
read as a value, which stands for the policy. The reader of policies by themselves reads each of them. -/
theorem own_json_read_back {p : Policy} (h : p.validate = .ok ()) :
    parse? p.toJson.compact = (if p.rule.nesting ≤ documentDepth then some p else none) ∧
    PolicyInput.parse? p.toJson.compact =
      (if p.rule.nesting ≤ documentDepth then some (.json p.toJson.sorted) else none) ∧
    (∀ c : CollectionDefinition, c.memberOrgsPolicy = .canonical p → c.endorsementPolicy = none →
      CollectionDefinition.parse? c.toJson.compact =
        if p.rule.nesting ≤ documentDepth then some { c with memberOrgsPolicy := .json p.toJson.sorted } else none) ∧
    (∀ d : ChaincodeDefinition, d.validation = .signaturePolicy (.canonical p) → d.collections = [] →
      ChaincodeDefinition.parse? d.toJson.compact =
        if p.rule.nesting ≤ documentDepth then
          some { d with validation := .signaturePolicy (.json p.toJson.sorted) }
        else none) ∧
    (PolicyInput.json p.toJson.sorted).normalize = .ok p ∧
    (PolicyInput.parseJson p.toJson.compact).bind PolicyInput.normalize = .ok p :=
  ⟨parse?_toJson h, input_parse?_toJson h, fun _ => CollectionDefinition.parse?_toJson h,
    fun _ => ChaincodeDefinition.parse?_toJson h, normalize_sorted p h, normalize_parseJson_toJson h⟩

/-- The deepest groups that are read back. -/
theorem own_json_read_back_deepest :
    let p : Policy := ⟨0, [⟨"A", .member⟩], .tower 41⟩
    p.validate = .ok () ∧ parse? p.toJson.compact = some p ∧
      (PolicyInput.parse? p.toJson.compact).map PolicyInput.normalize = some (.ok p) := by
  intro p
  have h : p.validate = .ok () := validate_tower (by decide) ⟨"A", .member⟩
  have hdepth : p.rule.nesting ≤ documentDepth := by
    rw [Rule.nesting_tower]
    decide
  obtain ⟨hpolicy, hinput, -, -, hstands, -⟩ := own_json_read_back h
  rw [if_pos hdepth] at hpolicy hinput
  rw [hinput, Option.map_some, hstands]
  exact ⟨h, hpolicy, rfl⟩

/-- One group more: the policy is valid and is read by itself, but no longer from a document. -/
theorem own_json_refused :
    let p : Policy := ⟨0, [⟨"A", .member⟩], .tower 42⟩
    p.validate = .ok () ∧ parse? p.toJson.compact = none ∧ PolicyInput.parse? p.toJson.compact = none ∧
      (PolicyInput.parseJson p.toJson.compact).bind PolicyInput.normalize = .ok p := by
  intro p
  have h : p.validate = .ok () := validate_tower (by decide) ⟨"A", .member⟩
  have hdepth : ¬ p.rule.nesting ≤ documentDepth := by
    rw [Rule.nesting_tower]
    decide
  refine ⟨h, ?_, ?_, normalize_parseJson_toJson h⟩
  · rw [parse?_toJson h, if_neg hdepth]
  · rw [input_parse?_toJson h, if_neg hdepth]

end Policy

end Fabric

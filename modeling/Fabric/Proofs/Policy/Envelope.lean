import Fabric.Policy.Envelope
import Fabric.Proofs.Message.Policy
import Fabric.Proofs.Policy.GroupTree

namespace Fabric

def signedSize : Nat := 2147483648

namespace Rule

mutual
def Unsigned : Rule → Prop
  | .signedBy i => i.toNat < signedSize
  | .nOutOf n rules => n.toNat < signedSize ∧ AllUnsigned rules
def AllUnsigned : List Rule → Prop
  | [] => True
  | r :: rest => Unsigned r ∧ AllUnsigned rest
end

theorem allUnsigned_iff {rules : List Rule} : AllUnsigned rules ↔ ∀ r ∈ rules, r.Unsigned := by
  induction rules with
  | nil => simp [AllUnsigned]
  | cons r rest ih => simp only [AllUnsigned, ih, List.forall_mem_cons]

/-- The numbers of a well-formed rule are bounded by the lengths of lists. -/
theorem WellFormed.unsigned {identities : Nat} (hids : identities ≤ signedSize) {r : Rule}
    (h : r.WellFormed identities) (hgroups : r.GroupsBelow signedSize) : r.Unsigned := by
  induction r using Rule.induction with
  | signedBy i =>
    rw [WellFormed] at h
    exact Nat.lt_of_lt_of_le h hids
  | nOutOf n rules ih =>
    rw [wellFormed_nOutOf] at h
    obtain ⟨-, hn, hrules⟩ := h
    obtain ⟨hlen, hbelow⟩ := hgroups
    rw [Unsigned, allUnsigned_iff]
    exact ⟨by omega, fun r hr => ih r hr (hrules r hr) (allGroupsBelow_iff.1 hbelow r hr)⟩

end Rule

namespace Policy

open Message (SignaturePolicy MspPrincipal MspRole PolicyEnvelope)
open Wire

theorem toInt32_lt_zero_iff (n : UInt32) : n.toInt32 < 0 ↔ ¬ n.toNat < signedSize := by
  have hlt : n.toNat < 4294967296 := n.toNat_lt_size
  have hbits : n.toInt32.toInt = n.toBitVec.toInt := rfl
  have hzero : (0 : Int32).toInt = 0 := rfl
  rw [Int32.lt_iff_toInt_lt, hbits, hzero, BitVec.toInt_eq_toNat_cond, UInt32.toNat_toBitVec, signedSize]
  split <;> omega

theorem unsigned?_toInt32 (n : UInt32) :
    unsigned? n.toInt32 = if n.toNat < signedSize then some n else none := by
  simp only [unsigned?, toInt32_lt_zero_iff, UInt32.toUInt32_toInt32, ite_not]

theorem rulesToMessages_eq (rules : List Rule) : rulesToMessages rules = rules.map ruleToMessage := by
  induction rules with
  | nil => rfl
  | cons r rest ih => rw [rulesToMessages, ih, List.map_cons]

/-- The groups of a message are those of the rule, so they are nested alike. -/
theorem withinLimit_ruleToMessage (r : Rule) :
    messageTree.withinLimit maxDepth [(ruleToMessage r, 0)] = true ↔ r.nesting ≤ maxDepth := by
  apply Rule.withinLimit_image_iff
  intro r
  cases r with
  | signedBy i => rfl
  | nOutOf n rules => exact congrArg some (rulesToMessages_eq rules)

/-- Rules come back from their messages exactly if none of their numbers is written with a sign. -/
theorem rulesOfMessages_eq_ok_iff {rules rs : List Rule}
    (h : ∀ r ∈ rules, ∀ {r'}, ruleOfMessage (ruleToMessage r) = .ok r' ↔ r.Unsigned ∧ r' = r) :
    rulesOfMessages (rulesToMessages rules) = .ok rs ↔ Rule.AllUnsigned rules ∧ rs = rules := by
  induction rules generalizing rs with
  | nil => simp [rulesToMessages, rulesOfMessages, Rule.AllUnsigned, eq_comm]
  | cons r rest ih =>
    rw [List.forall_mem_cons] at h
    rw [rulesToMessages, rulesOfMessages, Rule.AllUnsigned]
    cases hr : ruleOfMessage (ruleToMessage r) with
    | error e =>
      have hno : ¬ r.Unsigned := by
        intro hu
        have hok := h.1.2 ⟨hu, rfl⟩
        rw [hr] at hok
        cases hok
      simp [hno]
    | ok r' =>
      obtain ⟨hu, rfl⟩ := h.1.1 hr
      simp [hu, map_eq_ok_iff, ih h.2, and_assoc, eq_comm (a := rs)]

/-- A rule is read back from its message exactly if no number in it is taken for a negative one. -/
theorem ruleOfMessage_eq_ok_iff {r r' : Rule} :
    ruleOfMessage (ruleToMessage r) = .ok r' ↔ r.Unsigned ∧ r' = r := by
  induction r using Rule.induction generalizing r' with
  | signedBy i =>
    rw [ruleToMessage, ruleOfMessage, unsigned?_toInt32, Rule.Unsigned]
    by_cases hi : i.toNat < signedSize <;> simp [hi, eq_comm]
  | nOutOf n rules ih =>
    have hrules : ∀ rs, rulesOfMessages (rulesToMessages rules) = .ok rs ↔ Rule.AllUnsigned rules ∧ rs = rules :=
      fun rs => rulesOfMessages_eq_ok_iff ih
    rw [ruleToMessage, ruleOfMessage, unsigned?_toInt32, Rule.Unsigned]
    by_cases hn : n.toNat < signedSize
    · simp [hn, map_eq_ok_iff, hrules, and_assoc, eq_comm (a := r')]
    · simp [hn]

/-- A principal is read back from its message if the bytes of its role can be read. -/
theorem principalOfMessage_of_decode {x : Principal}
    (h : Wire.decode (Wire.encode (⟨x.mspId, x.role.code⟩ : MspRole)) = .ok (⟨x.mspId, x.role.code⟩ : MspRole)) :
    principalOfMessage (principalToMessage x) = .ok x := by
  have hcode : Role.ofCode? x.role.code.toInt = some x.role := by
    cases x.role <;> rfl
  simp [principalOfMessage, principalToMessage, h, hcode]

/-- What is read from a policy's message is the policy, if its principals are read back, it is valid and holds no number
that is taken for a negative one. -/
theorem ofMessage_eq_ok_iff_of_principals {p q : Policy}
    (h : ∀ x ∈ p.identities, principalOfMessage (principalToMessage x) = .ok x) :
    ofMessage p.toMessage = .ok q ↔ (p.validate = .ok () ∧ p.rule.Unsigned) ∧ q = p := by
  have hidentities : (p.identities.map principalToMessage).mapM principalOfMessage = .ok p.identities := by
    have hmap := mapM_map_eq_pure (h := id) h
    rwa [List.map_id] at hmap
  have hparts : ofMessage p.toMessage = .ok q ↔ p.rule.nesting ≤ maxDepth ∧
      ∃ r, ruleOfMessage (ruleToMessage p.rule) = .ok r ∧ validated ⟨p.version, p.identities, r⟩ = .ok q := by
    rw [← withinLimit_ruleToMessage, ofMessage, toMessage, hidentities]
    by_cases hwithin : messageTree.withinLimit maxDepth [(ruleToMessage p.rule, 0)] = true
    · cases hrule : ruleOfMessage (ruleToMessage p.rule) <;> simp [hwithin, hrule, bind, Except.bind]
    · simp [hwithin]
  rw [hparts]
  simp only [ruleOfMessage_eq_ok_iff, validated_eq_ok_iff]
  constructor
  · intro h
    obtain ⟨-, r, ⟨hu, rfl⟩, hvalid, rfl⟩ := h
    exact ⟨⟨hvalid, hu⟩, rfl⟩
  · intro h
    obtain ⟨⟨hvalid, hu⟩, rfl⟩ := h
    exact ⟨(validate_eq_ok_iff.1 hvalid).2, _, ⟨hu, rfl⟩, hvalid, rfl⟩

def longestMspId : Nat := 4096

section Principal

variable {x : Principal} (hx : (Bytes.ofText x.mspId).length ≤ longestMspId)
include hx

theorem length_encode_role : (Wire.encode (⟨x.mspId, x.role.code⟩ : MspRole)).length < UInt64.size := by
  have hsize : longestMspId + 22 < UInt64.size := by decide
  have htext : (Value.encodeFields (Fields.putText 1 x.mspId)).length ≤ _ :=
    Value.length_encodeFields_putText_le (by decide) (by omega)
  have hcode : (Value.encodeFields (Fields.putInt32 2 x.role.code)).length ≤ _ :=
    Value.length_encodeFields_putInt32_le (by decide) _
  simp only [Wire.encode, Fields.encode, Codec.toFields, Value.encodeFields_append, List.length_append]
  omega

theorem apparent_role :
    Value.apparentOfFields (Codec.toFields (⟨x.mspId, x.role.code⟩ : MspRole)) ≤ longestMspId / 2 + 1 := by
  have hhalf := blockNesting_le_half (Bytes.ofText x.mspId)
  have htext := Value.apparentOfFields_put_le 1 (.text x.mspId)
  have hcode := Value.apparentOfFields_put_le 2 (.ofInt32 x.role.code)
  have hsum : Value.apparentOfFields (Codec.toFields (⟨x.mspId, x.role.code⟩ : MspRole)) = _ :=
    Value.apparentOfFields_append (Fields.put 1 (.text x.mspId)) (Fields.put 2 (.ofInt32 x.role.code))
  rw [Value.apparent] at htext
  rw [Value.ofInt32, Value.apparent] at hcode
  rw [hsum, Value.ofInt32]
  omega

/-- A principal is read back from its message. -/
theorem principalOfMessage_principalToMessage : principalOfMessage (principalToMessage x) = .ok x := by
  have hsmall : longestMspId / 2 + 1 ≤ maxNesting := by decide
  apply principalOfMessage_of_decode
  rw [(MspRole.faithful _).decode_encode (length_encode_role hx),
    if_pos (Nat.le_trans (apparent_role hx) hsmall)]

theorem apparent_principalToMessage :
    Value.apparentOfFields (Codec.toFields (principalToMessage x)) ≤ longestMspId / 2 + 2 := by
  have hmeasure : blockNesting (Wire.encode (⟨x.mspId, x.role.code⟩ : MspRole)) = _ :=
    blockNesting_encodeFields (MspRole.faithful _).numbered (length_encode_role hx)
  have hrole := apparent_role hx
  have hbytes := Value.apparentOfFields_put_le 2 (.bytes (Wire.encode (⟨x.mspId, x.role.code⟩ : MspRole)))
  have hsum : Value.apparentOfFields (Codec.toFields (principalToMessage x)) = _ :=
    Value.apparentOfFields_append (Fields.put 1 (.ofInt32 roleClassification))
      (Fields.put 2 (.bytes (Wire.encode (⟨x.mspId, x.role.code⟩ : MspRole))))
  have hclass := Value.apparentOfFields_put_le 1 (.ofInt32 roleClassification)
  rw [Value.apparent] at hbytes
  rw [Value.ofInt32, Value.apparent] at hclass
  rw [hsum, Value.ofInt32]
  omega

end Principal

/-- A group takes two levels of messages. -/
theorem apparent_ruleToMessage (r : Rule) :
    Value.apparentOfFields (SignaturePolicy.toFields (ruleToMessage r)) ≤ 2 * r.nesting := by
  induction r using Rule.induction with
  | signedBy i => exact Nat.zero_le _
  | nOutOf n rules ih =>
    have hn := Value.apparentOfFields_put_le 1 (.ofInt32 n.toInt32)
    have hrules : Value.apparentOfFields (SignaturePolicy.ruleFields (rulesToMessages rules)) ≤
        2 * Rule.nestingList rules + 1 := by
      rw [SignaturePolicy.ruleFields_eq, rulesToMessages_eq]
      refine Value.apparentOfFields_putMessages_le ?_
      simp only [List.forall_mem_map]
      intro r hr
      have hle := Rule.nestingList_le_iff.1 (Nat.le_refl _) r hr
      have hr := ih r hr
      simp only [Codec.toFields]
      omega
    rw [Value.ofInt32, Value.apparent] at hn
    rw [ruleToMessage, SignaturePolicy.toFields, Fields.putMessage, Value.apparentOfFields, Value.apparent,
      Value.apparentOfFields_append, Fields.putInt32, Value.ofInt32, Value.apparentOfFields, Rule.nesting]
    omega

section Message

variable {p : Policy} (hnames : ∀ x ∈ p.identities, (Bytes.ofText x.mspId).length ≤ longestMspId)
include hnames

/-- Two levels for each of the deepest groups, and the longest ids, stay within the limit on messages, and leave a
level for a message around them. -/
theorem apparent_toMessage_lt (hdeep : p.rule.nesting ≤ maxDepth) :
    Value.apparentOfFields (Codec.toFields p.toMessage) < maxNesting := by
  have hversion := Value.apparentOfFields_put_le 1 (.ofInt32 p.version)
  have hrule := apparent_ruleToMessage p.rule
  have hidentities : Value.apparentOfFields
      (Fields.putMessages 3 ((p.identities.map principalToMessage).map Codec.toFields)) ≤ longestMspId / 2 + 3 := by
    refine Value.apparentOfFields_putMessages_le ?_
    simp only [List.forall_mem_map]
    exact fun x hx => Nat.succ_le_succ (apparent_principalToMessage (hnames x hx))
  have hsum : Value.apparentOfFields (Codec.toFields p.toMessage) =
      max (max (Value.apparentOfFields (Fields.putInt32 1 p.version))
        (Value.apparentOfFields (Fields.putMessage 2 (SignaturePolicy.toFields (ruleToMessage p.rule)))))
        (Value.apparentOfFields
          (Fields.putMessages 3 ((p.identities.map principalToMessage).map Codec.toFields))) := by
    rw [← Value.apparentOfFields_append, ← Value.apparentOfFields_append]
    rfl
  rw [Value.ofInt32, Value.apparent] at hversion
  rw [hsum, Fields.putInt32, Value.ofInt32, Fields.putMessage, Value.apparentOfFields, Value.apparent,
    Value.apparentOfFields]
  simp only [maxDepth, longestMspId, maxNesting] at *
  omega

theorem apparent_toMessage (hdeep : p.rule.nesting ≤ maxDepth) :
    Value.apparentOfFields (Codec.toFields p.toMessage) ≤ maxNesting :=
  Nat.le_of_lt (apparent_toMessage_lt hnames hdeep)

theorem ofMessage_toMessage_eq_ok_iff {q : Policy} :
    ofMessage p.toMessage = .ok q ↔ (p.validate = .ok () ∧ p.rule.Unsigned) ∧ q = p :=
  ofMessage_eq_ok_iff_of_principals fun x hx => principalOfMessage_principalToMessage (hnames x hx)

/-- A valid policy is read back from its encoding. -/
theorem decode_encode (hvalid : p.validate = .ok ()) (hidentities : p.identities.length ≤ signedSize)
    (hgroups : p.rule.GroupsBelow signedSize) (hlen : (encode p).length < UInt64.size) :
    decode (encode p) = .ok p := by
  obtain ⟨hwell, hdeep⟩ := validate_eq_ok_iff.1 hvalid
  have hmessage : (Wire.decode (encode p) : Except DecodeError PolicyEnvelope) = .ok p.toMessage := by
    rw [encode, (PolicyEnvelope.faithful _).decode_encode hlen, if_pos (apparent_toMessage hnames hdeep)]
  rw [decode, hmessage]
  exact (ofMessage_toMessage_eq_ok_iff hnames).2 ⟨⟨hvalid, hwell.unsigned hidentities hgroups⟩, rfl⟩

/-- A policy that was encoded decodes to itself if it is valid, and is refused otherwise. -/
theorem decode_encoded (hidentities : p.identities.length ≤ signedSize) (hgroups : p.rule.GroupsBelow signedSize)
    (hlen : (encode p).length < UInt64.size) :
    (p.validate = .ok () → decode (encode p) = .ok p) ∧
    (∀ e, p.validate = .error e → ∃ e', decode (encode p) = .error e') := by
  have hmessage : (Wire.decode (Wire.encode p.toMessage) : Except DecodeError PolicyEnvelope) =
      if Value.apparentOfFields (Codec.toFields p.toMessage) ≤ maxNesting then .ok p.toMessage
      else .error (.tooDeep maxNesting) :=
    (PolicyEnvelope.faithful _).decode_encode hlen
  constructor
  · intro hvalid
    exact decode_encode hnames hvalid hidentities hgroups hlen
  · intro e he
    cases hread : decode (encode p) with
    | error e' => exact ⟨e', rfl⟩
    | ok q =>
      -- only the message of a valid policy is read
      rw [decode, encode, hmessage] at hread
      split at hread
      · next m hm =>
        split at hm
        · cases hm
          obtain ⟨⟨hvalid, -⟩, -⟩ := (ofMessage_toMessage_eq_ok_iff hnames).1 hread
          rw [he] at hvalid
          cases hvalid
        · cases hm
      · cases hread

end Message

/-- A negative version, an empty id and one that reads as a message come back; an index that is written as a
negative number is refused. -/
theorem decode_encoded_wrapped :
    let p : Rule → Policy := fun r => ⟨-3, [⟨"", .member⟩, ⟨"\n\x00", .orderer⟩], r⟩
    decode (encode (p (.nOutOf 1 [.signedBy 1, .nOutOf 2 [.signedBy 0, .signedBy 1]]))) =
      .ok (p (.nOutOf 1 [.signedBy 1, .nOutOf 2 [.signedBy 0, .signedBy 1]])) ∧
    ∃ e, decode (encode (p (.nOutOf 1 [.signedBy 0, .signedBy 4294967295]))) = .error e := by
  intro p
  have hnames : ∀ r, ∀ x ∈ (p r).identities, (Bytes.ofText x.mspId).length ≤ longestMspId := by
    intro r
    simp only [p, List.forall_mem_cons]
    exact ⟨by decide, by decide, nofun⟩
  constructor
  · refine (decode_encoded (hnames _) (by decide) ?_ (by decide +kernel)).1 ?_
    · simp [p, Rule.GroupsBelow, Rule.AllGroupsBelow, signedSize]
    · rw [validate_eq_ok_iff]
      simp [p, Rule.WellFormed, Rule.AllWellFormed, Rule.nesting, Rule.nestingList, maxDepth]
  · refine (decode_encoded (hnames _) (by decide) ?_ (by decide +kernel)).2 (.signedByOutOfRange 4294967295 2) ?_
    · simp [p, Rule.GroupsBelow, Rule.AllGroupsBelow, signedSize]
    · simp [p, validate, checkRules, maxDepth]

end Policy

end Fabric

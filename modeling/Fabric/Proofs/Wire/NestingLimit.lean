import Fabric.Proofs.Wire.Concealed

/-!
What the limit on nesting is worth to decoded messages. It holds where the decoder enters legible levels
only. Elsewhere the check adds nothing to what a message type keeps by itself, and the types that may hold a
signature policy keep no limit.
-/
namespace Fabric.Wire

theorem checkNesting_eq_ok_iff {limit : Nat} {b : Bytes} :
    checkNesting limit b = .ok () ↔ blockNesting b ≤ limit := by
  rw [← nestedWithin_iff, checkNesting]
  split <;> simp_all

theorem Fields.decode_eq_ok_iff {t : MessageType} {b : Bytes} {m : Fields} :
    Fields.decode t b = .ok m ↔ checkNesting maxNesting b = .ok () ∧ Fields.decode? t b = some m := by
  cases hc : checkNesting maxNesting b with
  | error e => simp [Fields.decode, hc, bind, Except.bind]
  | ok u => cases hd : Fields.decode? t b <;> simp [Fields.decode, hc, hd, bind, Except.bind]

theorem nesting_le_of_legible {t : MessageType} {limit : Nat} {b : Bytes} {m : Fields}
    (hl : LegibleThroughout t.slots b) (hc : checkNesting limit b = .ok ())
    (hm : Fields.decode? t b = some m) : Value.nestingOfFields m ≤ limit :=
  nesting_decode_le descending_blockNesting ⟨hl, checkNesting_eq_ok_iff.1 hc⟩ hm

theorem checkNesting_emptyGroup (limit : Nat) (b : Bytes) : checkNesting limit (emptyGroup ++ b) = .ok () := by
  rw [checkNesting_eq_ok_iff, blockNesting_emptyGroup]
  omega

/-- Behind a group in front, a message of any nesting is decoded under the limit. -/
theorem decode_concealed {t : MessageType} (ht : t.policyField?.isSome = true) {n : Nat}
    (hn : 11 * n < UInt64.size) :
    ∃ m, Fields.decode t (emptyGroup ++ nestedBlocks n t) = .ok m ∧ Value.nestingOfFields m = n := by
  obtain ⟨m, hm, hnest⟩ := decode?_nestedBlocks n t hn ht
  exact ⟨m, Fields.decode_eq_ok_iff.2 ⟨checkNesting_emptyGroup _ _, Fields.decode?_emptyGroup hm⟩, hnest⟩

/-- What the check of nesting is worth for a message type. Where every level that the decoder enters is
legible, the message keeps the limit. Otherwise the check adds nothing: the type keeps a limit with it exactly
if it keeps it without; and it keeps the limit of `Fields.decode` exactly if it holds no signature policy. -/
theorem decoded_nesting_limit (t : MessageType) :
    (∀ (limit : Nat) (b : Bytes) (m : Fields), LegibleThroughout t.slots b →
      checkNesting limit b = .ok () → Fields.decode? t b = some m → Value.nestingOfFields m ≤ limit) ∧
    (∀ limit : Nat,
      (∀ b m, checkNesting limit b = .ok () → Fields.decode? t b = some m →
        Value.nestingOfFields m ≤ limit) ↔
      ∀ b m, Fields.decode? t b = some m → Value.nestingOfFields m ≤ limit) ∧
    ((∀ b m, Fields.decode t b = .ok m → Value.nestingOfFields m ≤ maxNesting) ↔
      ¬ t.Holds .signaturePolicy) := by
  refine ⟨?_, ?_, ?_⟩
  · intro limit b m hl hc hm
    exact nesting_le_of_legible hl hc hm
  · intro limit
    constructor
    · -- the same message with a group in front passes the check
      intro h b m hm
      have hc : checkNesting limit (emptyGroup ++ b) = .ok () := checkNesting_emptyGroup limit b
      have hsame : Fields.decode? t (emptyGroup ++ b) = some m := Fields.decode?_emptyGroup hm
      exact h (emptyGroup ++ b) m hc hsame
    · intro h b m _ hm
      exact h b m hm
  · constructor
    · intro h hholds
      have ht : t.policyField?.isSome = true := MessageType.holds_signaturePolicy_iff.1 hholds
      obtain ⟨m, hm, hnest⟩ := decode_concealed ht (n := maxNesting + 1) (by decide)
      have hle : Value.nestingOfFields m ≤ maxNesting := h _ m hm
      omega
    · -- the check is of no use here either, but the schema has an end
      intro hno b m hm
      have hnone : t.policyField? = none := by
        rw [MessageType.holds_signaturePolicy_iff] at hno
        simpa using hno
      have hschema : schemaWithin 6 t.slots = true := MessageType.schemaWithin_of_policyField?_eq_none hnone
      calc
        Value.nestingOfFields m ≤ 6 :=
          nesting_decode_le descending_schemaWithin hschema (Fields.decode_eq_ok_iff.1 hm).2
        _ ≤ maxNesting := by decide

def concealedEnvelope : Bytes := emptyGroup ++ nestedBlocks (maxNesting + 1) .signaturePolicyEnvelope

theorem decode_concealedEnvelope : ∃ m, Fields.decode .signaturePolicyEnvelope concealedEnvelope = .ok m ∧
    maxNesting < Value.nestingOfFields m := by
  have hn : 11 * (maxNesting + 1) < UInt64.size := by decide
  obtain ⟨m, hm, hnest⟩ := decode_concealed (t := .signaturePolicyEnvelope) rfl hn
  exact ⟨m, hm, by omega⟩

end Fabric.Wire

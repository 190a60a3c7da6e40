import Fabric.Proofs.Message.Lifecycle
import Fabric.Proofs.Message.Proposal
import Fabric.Proofs.Wire.Decoded

/-!
A message of any type that is written is either read back as it was or refused for its nesting, and it is refused
wherever it is nested beyond the limit. The messages of a type are those that the reader can give
(`MessageType.admits_iff`), and each Lean type of a message has its fields there (its theorem `faithful`).
-/
namespace Fabric.Message

open Wire

/-- Messages of all types are read back if the bytes pass the check of nesting, and those that are nested too deep
do not pass it; and so it is for the values of Lean types that stand for messages. -/
theorem decode_written :
    (∀ (t : MessageType) (m : Fields), t.Admits m → m.encode.length < UInt64.size →
      (checkNesting maxNesting m.encode = .ok () → Fields.decode t m.encode = .ok m) ∧
      (maxNesting < Value.nestingOfFields m → Fields.decode t m.encode = .error (.tooDeep maxNesting))) ∧
    ∀ {α : Type} [Codec α] (a : α), Faithful a → (encode a).length < UInt64.size →
      (checkNesting maxNesting (encode a) = .ok () → decode (encode a) = .ok a) ∧
      (maxNesting < Value.nestingOfFields (Codec.toFields a) →
        decode (encode a) = (.error (.tooDeep maxNesting) : Except DecodeError α)) := by
  refine ⟨fun t m hm hlen => ⟨Fields.decode_encode_of_check hm hlen, Fields.decode_encode_of_deep hm hlen⟩, ?_⟩
  intro α _ a ha hlen
  constructor
  · intro hcheck
    have hok : Fields.decode (Codec.type α) (Codec.toFields a).encode = .ok (Codec.toFields a) :=
      Fields.decode_encode_of_check ha.admits hlen hcheck
    rw [encode, decode, hok, Except.map, ha.restored]
  · intro hdeep
    have herror : Fields.decode (Codec.type α) (Codec.toFields a).encode = .error (.tooDeep maxNesting) :=
      Fields.decode_encode_of_deep ha.admits hlen hdeep
    rw [encode, decode, herror, Except.map]

def SignaturePolicy.nested : Nat → SignaturePolicy
  | 0 => .unset
  | n + 1 => .nOutOf 0 [nested n]

namespace SignaturePolicy

theorem nestingOfFields_nested (n : Nat) : Value.nestingOfFields (toFields (nested n)) = 2 * n := by
  induction n with
  | zero => rfl
  | succ n ih =>
    have hfields : toFields (nested (n + 1)) = [(2, .message [(2, .message (toFields (nested n)))])] := rfl
    simp only [hfields, Value.nestingOfFields, Value.nesting, ih]
    omega

theorem length_encode_nested (n : Nat) (hn : 22 * n < UInt64.size) : (encode (nested n)).length ≤ 22 * n := by
  induction n with
  | zero => exact Nat.zero_le _
  | succ n ih =>
    have hbytes : encode (nested (n + 1)) =
        Record.encodeBlock 2 (Record.encodeBlock 2 (encode (nested n)) ++ []) ++ [] := rfl
    have hblock : ∀ body : Bytes, body.length < UInt64.size →
        (Record.encodeBlock 2 body).length ≤ body.length + 11 :=
      fun body => Record.length_encodeBlock_le (by decide)
    have hle := ih (by omega)
    have hrule := hblock (encode (nested n)) (by omega)
    have hgroup := hblock (Record.encodeBlock 2 (encode (nested n))) (by omega)
    rw [hbytes, List.append_nil, List.append_nil]
    omega

end SignaturePolicy

/-- An empty argument, an empty key and an empty value come back; groups in one another take two levels each, so
1101 of them are too many. -/
theorem decode_written_decorated :
    let i : ChaincodeInput := ⟨[[1], []], [("", []), ("k", [7])], true⟩
    let p : SignaturePolicy := .nested 1101
    (Fields.decode .chaincodeInput (Codec.toFields i).encode = .ok (Codec.toFields i) ∧
      Fields.decode .signaturePolicy p.toFields.encode = .error (.tooDeep maxNesting)) ∧
    decode (encode i) = .ok i ∧
      decode (encode p) = (.error (.tooDeep maxNesting) : Except DecodeError SignaturePolicy) := by
  intro i p
  have hi : Faithful i := ChaincodeInput.faithful (by decide)
  have hwithin : nestedWithin maxNesting (encode i) = true := by decide +kernel
  have hcheck : checkNesting maxNesting (encode i) = .ok () := by rw [checkNesting, hwithin, if_pos rfl]
  have hshort : (encode i).length < UInt64.size := by decide +kernel
  have hp : Faithful p := p.faithful
  have hdeep : maxNesting < Value.nestingOfFields p.toFields := by
    rw [SignaturePolicy.nestingOfFields_nested]
    decide
  have hlen : (encode p).length < UInt64.size :=
    Nat.lt_of_le_of_lt (SignaturePolicy.length_encode_nested 1101 (by decide)) (by decide)
  exact ⟨⟨(decode_written.1 _ _ hi.admits hshort).1 hcheck, (decode_written.1 _ _ hp.admits hlen).2 hdeep⟩,
    (decode_written.2 i hi hshort).1 hcheck, (decode_written.2 p hp hlen).2 hdeep⟩

end Fabric.Message

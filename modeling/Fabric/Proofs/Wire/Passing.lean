import Fabric.Proofs.Wire.Faithful
import Fabric.Proofs.Wire.NestingLimit

namespace Fabric.Wire

/-- The bytes may stand in a block, and pass the check of nesting. -/
structure Passes (b : Bytes) : Prop where
  short : b.length < UInt64.size
  checked : checkNesting maxNesting b = .ok ()

theorem passes_iff {b : Bytes} : Passes b ↔ b.length < UInt64.size ∧ nestedWithin maxNesting b = true := by
  have hchecked : checkNesting maxNesting b = .ok () ↔ nestedWithin maxNesting b = true := by
    rw [checkNesting]
    split <;> simp [*]
  exact ⟨fun h => ⟨h.short, hchecked.1 h.checked⟩, fun h => ⟨h.1, hchecked.2 h.2⟩⟩

instance (b : Bytes) : Decidable (Passes b) := decidable_of_iff _ passes_iff.symm

theorem Passes.of_nestedWithin {b : Bytes} (hshort : b.length < UInt64.size)
    (hwithin : nestedWithin maxNesting b = true) : Passes b :=
  passes_iff.2 ⟨hshort, hwithin⟩

theorem Passes.of_innerBlocks {b body : Bytes} (h : Passes b) (hbody : body ∈ innerBlocks b) : Passes body := by
  have hlt := innerBlocks_length hbody
  have hbelow := blockNesting_lt hbody
  have hshort := h.short
  have hwithin := checkNesting_eq_ok_iff.1 h.checked
  exact ⟨by omega, checkNesting_eq_ok_iff.2 (by omega)⟩

theorem blockNesting_nil : blockNesting [] = 0 :=
  blockNesting_of_innerBlocks (by simp [innerBlocks, blocks_nil])

theorem Passes.nil : Passes [] := by
  refine ⟨by decide, checkNesting_eq_ok_iff.2 ?_⟩
  rw [blockNesting_nil]
  exact Nat.zero_le _

namespace Faithful

variable {α : Type} [Codec α] {a : α} (ha : Faithful a) (h : Passes (encode a))
include ha h

theorem decode_of_passes : decode (encode a) = .ok a := by
  have hread : Fields.decode (Codec.type α) (Codec.toFields a).encode = .ok (Codec.toFields a) :=
    Fields.decode_encode_of_check ha.admits h.short h.checked
  rw [encode, decode, hread, Except.map, ha.restored]

/-- What a field of a message is written as passes with the message. -/
theorem passes_of_mem {f : Nat × Value} (hf : f ∈ Codec.toFields a) {body : Bytes} (hbody : f.2.payload = .block body) :
    Passes body := by
  exact h.of_innerBlocks ((mem_innerBlocks_encodeFields ha.numbered h.short).2 ⟨f, hf, hbody⟩)

/-- Bytes that are left out of a message, being none, pass too. -/
theorem passes_bytes {number : Nat} {b : Bytes} (hb : Fields.putBytes number b ⊆ Codec.toFields a) : Passes b := by
  cases b with
  | nil => exact .nil
  | cons x rest => exact ha.passes_of_mem h (hb (List.mem_singleton_self _)) rfl

theorem passes_message {β : Type} [Codec β] {number : Nat} {b : β}
    (hb : (number, .message (Codec.toFields b)) ∈ Codec.toFields a) : Passes (encode b) :=
  ha.passes_of_mem h hb rfl

end Faithful

end Fabric.Wire

import Fabric.Proofs.Wire.Passing

namespace Fabric.Wire

namespace Value

variable {n number : Nat}

theorem apparentOfFields_append_le_iff {fields more : Fields} :
    apparentOfFields (fields ++ more) ≤ n ↔ apparentOfFields fields ≤ n ∧ apparentOfFields more ≤ n := by
  rw [apparentOfFields_append, Nat.max_le]

/-- What is left out has no level, and no more than it has when it is put. -/
theorem apparentOfFields_put_le_iff {v : Value} (h : v.isDefault = true → v.apparent ≤ n) :
    apparentOfFields (Fields.put number v) ≤ n ↔ v.apparent ≤ n := by
  rw [Fields.put]
  split
  · next hdefault =>
    constructor
    · intro _
      exact h hdefault
    · intro _
      exact Nat.zero_le _
  · rw [apparentOfFields, apparentOfFields, Nat.max_zero]

theorem apparentOfFields_putBytes_le_iff {b : Bytes} :
    apparentOfFields (Fields.putBytes number b) ≤ n + 1 ↔ blockNesting b ≤ n := by
  have hdefault : (Value.bytes b).isDefault = true → (Value.bytes b).apparent ≤ n + 1 := by
    intro h
    rw [List.isEmpty_iff.1 h, apparent, blockNesting_nil]
    exact Nat.succ_le_succ (Nat.zero_le _)
  rw [Fields.putBytes, apparentOfFields_put_le_iff hdefault, apparent, Nat.add_le_add_iff_right]

theorem apparentOfFields_putText_le_iff {s : String} :
    apparentOfFields (Fields.putText number s) ≤ n + 1 ↔ blockNesting (Bytes.ofText s) ≤ n := by
  have hdefault : (Value.text s).isDefault = true → (Value.text s).apparent ≤ n + 1 := by
    intro h
    have hempty : Bytes.ofText "" = [] := rfl
    rw [String.isEmpty_iff.1 h, apparent, hempty, blockNesting_nil]
    exact Nat.succ_le_succ (Nat.zero_le _)
  rw [Fields.putText, apparentOfFields_put_le_iff hdefault, apparent, Nat.add_le_add_iff_right]

theorem apparentOfFields_put_varint {w : UInt64} : apparentOfFields (Fields.put number (.varint w)) ≤ n :=
  (apparentOfFields_put_le_iff fun _ => Nat.zero_le _).2 (Nat.zero_le _)

theorem apparentOfFields_putInt32 {i : Int32} : apparentOfFields (Fields.putInt32 number i) ≤ n :=
  apparentOfFields_put_varint

theorem apparentOfFields_putInt64 {i : Int64} : apparentOfFields (Fields.putInt64 number i) ≤ n :=
  apparentOfFields_put_varint

theorem apparentOfFields_putWord {w : UInt64} : apparentOfFields (Fields.putWord number w) ≤ n :=
  apparentOfFields_put_varint

theorem apparentOfFields_putBool {b : Bool} : apparentOfFields (Fields.putBool number b) ≤ n :=
  apparentOfFields_put_varint

theorem apparentOfFields_putMessage?_le_iff {α : Type} [Codec α] {m : Option α} :
    apparentOfFields (Fields.putMessage? number (m.map Codec.toFields)) ≤ n + 1 ↔
      ∀ a ∈ m, apparentOfFields (Codec.toFields a) ≤ n := by
  cases m with
  | none => simp [Fields.putMessage?, apparentOfFields]
  | some a => simp [Fields.putMessage?, Fields.putMessage, apparentOfFields, apparent]

theorem apparentOfFields_putBlobs_le_iff {bs : List Bytes} :
    apparentOfFields (Fields.putBlobs number bs) ≤ n + 1 ↔ ∀ b ∈ bs, blockNesting b ≤ n := by
  simp only [Fields.putBlobs, apparentOfFields_le_iff, List.forall_mem_map, apparent, Nat.add_le_add_iff_right]

/-- An entry is a message of its key and its value. -/
theorem apparentOfFields_putEntries_le_iff {es : List (String × Fields)} (h : Keyed.Ordered es) :
    apparentOfFields (Fields.putEntries number es) ≤ n + 2 ↔
      ∀ e ∈ es, blockNesting (Bytes.ofText e.1) ≤ n ∧ apparentOfFields e.2 ≤ n + 1 := by
  rw [Fields.putEntries_eq h, apparentOfFields_le_iff, List.forall_mem_map]
  simp only [apparent, Nat.add_le_add_iff_right, apparentOfFields_append_le_iff, apparentOfFields_putText_le_iff]

end Value

section

variable {α : Type} [Codec α] {a : α}

/-- The measure of what is written is that of its fields. -/
theorem Faithful.blockNesting_encode (ha : Faithful a) (hlen : (encode a).length < UInt64.size) :
    blockNesting (encode a) = Value.apparentOfFields (Codec.toFields a) :=
  blockNesting_encodeFields ha.numbered hlen

/-- What is written is read exactly if it is not nested too deep. -/
theorem Faithful.decode_encode_eq (ha : Faithful a) (hlen : (encode a).length < UInt64.size) :
    decode (encode a) = if blockNesting (encode a) ≤ maxNesting then .ok a else .error (.tooDeep maxNesting) := by
  rw [ha.blockNesting_encode hlen]
  exact ha.decode_encode hlen

theorem Varint.length_encode_mono {m n : Nat} (h : m ≤ n) : (Varint.encode m).length ≤ (Varint.encode n).length := by
  induction m using Varint.encode.induct generalizing n with
  | case1 m hm =>
    rw [Varint.encode_of_lt hm, Varint.encode]
    split <;> simp
  | case2 m hm ih =>
    have hle : 128 ≤ m := Nat.le_of_not_lt hm
    rw [Varint.encode_of_le hle, Varint.encode_of_le (Nat.le_trans hle h), List.length_cons, List.length_cons]
    exact Nat.succ_le_succ (ih (Nat.div_le_div_right h))

theorem Value.length_encodeField_mono {m n : Nat} (h : m ≤ n) (v : Value) :
    (encodeField m v).length ≤ (encodeField n v).length := by
  have hkey : ∀ type, (Key.encode ⟨m, type⟩).length ≤ (Key.encode ⟨n, type⟩).length := by
    intro type
    apply Varint.length_encode_mono
    exact Nat.add_le_add_right (Nat.mul_le_mul_left 8 h) _
  have hblock : ∀ body, (Record.encodeBlock m body).length ≤ (Record.encodeBlock n body).length := by
    intro body
    simp only [Record.encodeBlock, List.length_append, Nat.add_le_add_iff_right]
    exact hkey .block
  cases v with
  | varint w =>
    simp only [encodeField, Record.encodeVarint, List.length_append, Nat.add_le_add_iff_right]
    exact hkey .varint
  | text s => exact hblock _
  | bytes b => exact hblock _
  | message fields => exact hblock _

def Fields.shifted (fields : Fields) : Fields := fields.map fun f => (f.1 + 1, f.2)

@[simp] theorem Fields.shifted_append (fields more : Fields) :
    Fields.shifted (fields ++ more) = fields.shifted ++ more.shifted :=
  List.map_append

@[simp] theorem Fields.shifted_put (number : Nat) (v : Value) : (put number v).shifted = put (number + 1) v := by
  rw [put, put]
  split <;> rfl

@[simp] theorem Fields.shifted_putMessage? (number : Nat) (m : Option Fields) :
    (putMessage? number m).shifted = putMessage? (number + 1) m := by
  cases m <;> rfl

theorem Value.length_encodeFields_shifted (fields : Fields) :
    (encodeFields fields).length ≤ (encodeFields fields.shifted).length := by
  induction fields with
  | nil => exact Nat.le_refl _
  | cons f rest ih =>
    simp only [Fields.shifted, List.map_cons, encodeFields, List.length_append]
    exact Nat.add_le_add (length_encodeField_mono (Nat.le_succ _) _) ih

/-- A message passes if another one does that has its fields, under the next numbers, behind others. -/
theorem Faithful.passes_of_shifted {β : Type} [Codec β] {b : β} (ha : Faithful a) (hb : Faithful b) {front : Fields}
    (hfields : Codec.toFields b = front ++ (Codec.toFields a).shifted) (h : Passes (encode b)) :
    Passes (encode a) := by
  have hlength : (encode a).length ≤ (encode b).length := by
    have hshifted := Value.length_encodeFields_shifted (Codec.toFields a)
    rw [encode, encode, Fields.encode, Fields.encode, hfields, Value.encodeFields_append, List.length_append]
    omega
  have hshort := Nat.lt_of_le_of_lt hlength h.short
  refine ⟨hshort, checkNesting_eq_ok_iff.2 ?_⟩
  have hwithin := checkNesting_eq_ok_iff.1 h.checked
  rw [hb.blockNesting_encode h.short, hfields, Value.apparentOfFields_append_le_iff] at hwithin
  rw [ha.blockNesting_encode hshort, Value.apparentOfFields_le_iff]
  intro f hf
  have hmem : (f.1 + 1, f.2) ∈ (Codec.toFields a).shifted := List.mem_map_of_mem hf
  exact Value.apparentOfFields_le_iff.1 hwithin.2 (f.1 + 1, f.2) hmem

/-- What stands encoded in a message is not longer than it. -/
theorem length_le_of_putBytes {number : Nat} {b : Bytes} (hb : Fields.putBytes number b ⊆ Codec.toFields a) :
    b.length ≤ (encode a).length := by
  cases b with
  | nil => exact Nat.zero_le _
  | cons x rest =>
    have hmem : (number, Value.bytes (x :: rest)) ∈ Codec.toFields a := hb (List.mem_singleton_self _)
    have hrecord : (⟨number, .block (x :: rest)⟩ : Record) ∈ (Codec.toFields a).records :=
      List.mem_map_of_mem hmem
    have hlt := Fields.length_body_lt hrecord
    exact Nat.le_trans (Nat.le_add_right _ 2) hlt

end

end Fabric.Wire

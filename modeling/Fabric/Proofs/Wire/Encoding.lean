import Fabric.Proofs.Wire.MessageNesting

namespace Fabric.Wire

def IsFieldNumber (number : Nat) : Prop := 0 < number ∧ 8 * number + 8 ≤ UInt32.size

namespace Value

def payload : Value → Payload
  | .varint n => .varint n.toNat
  | .text s => .block (Bytes.ofText s)
  | .bytes b => .block b
  | .message fields => .block (encodeFields fields)

/-- Proofs about values go by the fields of a message. -/
@[elab_as_elim]
theorem induction {motive : Value → Prop} (varint : ∀ n, motive (.varint n)) (text : ∀ s, motive (.text s))
    (bytes : ∀ b, motive (.bytes b)) (message : ∀ fields, (∀ f ∈ fields, motive f.2) → motive (.message fields)) :
    ∀ v, motive v
  | .varint n => varint n
  | .text s => text s
  | .bytes b => bytes b
  | .message fields => message fields fun f _ => induction varint text bytes message f.2
decreasing_by
  obtain ⟨number, v⟩ := f
  have hlt := List.sizeOf_lt_of_mem ‹_›
  simp only [Prod.mk.sizeOf_spec] at hlt
  simp only [Value.message.sizeOf_spec]
  omega

mutual
def Numbered : Value → Prop
  | .message fields => FieldsNumbered fields
  | _ => True
def FieldsNumbered : List (Nat × Value) → Prop
  | [] => True
  | (number, v) :: rest => IsFieldNumber number ∧ Numbered v ∧ FieldsNumbered rest
end

theorem fieldsNumbered_iff {fields : Fields} :
    FieldsNumbered fields ↔ ∀ f ∈ fields, IsFieldNumber f.1 ∧ Numbered f.2 := by
  induction fields with
  | nil => simp [FieldsNumbered]
  | cons f rest ih => simp only [FieldsNumbered, ih, List.forall_mem_cons, and_assoc]

theorem fieldsNumbered_append {fields more : Fields} :
    FieldsNumbered (fields ++ more) ↔ FieldsNumbered fields ∧ FieldsNumbered more := by
  simp only [fieldsNumbered_iff, List.forall_mem_append]

theorem fieldsNumbered_put {number : Nat} {v : Value} (hnumber : IsFieldNumber number) (hv : v.Numbered) :
    FieldsNumbered (Fields.put number v) := by
  rw [Fields.put]
  split
  · trivial
  · exact ⟨hnumber, hv, trivial⟩

theorem nestingOfFields_append_le_iff {fields more : Fields} {n : Nat} :
    nestingOfFields (fields ++ more) ≤ n ↔ nestingOfFields fields ≤ n ∧ nestingOfFields more ≤ n := by
  simp only [nestingOfFields_le_iff, List.forall_mem_append]

mutual
/-- How deeply a value seems nested to the measure, which takes texts and bytes for messages if it can. -/
def apparent : Value → Nat
  | .varint _ => 0
  | .text s => blockNesting (Bytes.ofText s) + 1
  | .bytes b => blockNesting b + 1
  | .message fields => apparentOfFields fields + 1
def apparentOfFields : List (Nat × Value) → Nat
  | [] => 0
  | (_, v) :: rest => max (apparent v) (apparentOfFields rest)
end

theorem apparentOfFields_le_iff {fields : Fields} {n : Nat} :
    apparentOfFields fields ≤ n ↔ ∀ f ∈ fields, f.2.apparent ≤ n := by
  induction fields with
  | nil => simp [apparentOfFields]
  | cons f rest ih => rw [apparentOfFields, Nat.max_le, ih, List.forall_mem_cons]

theorem apparentOfFields_append (fields more : Fields) :
    apparentOfFields (fields ++ more) = max (apparentOfFields fields) (apparentOfFields more) := by
  induction fields with
  | nil => simp [apparentOfFields]
  | cons f rest ih => rw [List.cons_append, apparentOfFields, apparentOfFields, ih, Nat.max_assoc]

theorem apparentOfFields_put_le (number : Nat) (v : Value) :
    apparentOfFields (Fields.put number v) ≤ v.apparent := by
  rw [Fields.put]
  split <;> simp [apparentOfFields]

theorem apparentOfFields_putMessages_le {number n : Nat} {ms : List Fields}
    (h : ∀ m ∈ ms, apparentOfFields m + 1 ≤ n) : apparentOfFields (Fields.putMessages number ms) ≤ n := by
  rw [apparentOfFields_le_iff, Fields.putMessages, List.forall_mem_map]
  exact h

/-- Messages never seem less nested than they are. -/
theorem nesting_le_apparent (v : Value) : v.nesting ≤ v.apparent := by
  induction v using Value.induction with
  | message fields ih =>
    rw [nesting, apparent, Nat.add_le_add_iff_right, nestingOfFields_le_iff]
    intro f hf
    exact Nat.le_trans (ih f hf) (apparentOfFields_le_iff.1 (Nat.le_refl _) f hf)
  | _ => exact Nat.zero_le _

theorem nestingOfFields_le_apparent (fields : Fields) : nestingOfFields fields ≤ apparentOfFields fields :=
  Nat.le_of_succ_le_succ (nesting_le_apparent (.message fields))

theorem encodeFields_append (fields more : Fields) :
    encodeFields (fields ++ more) = encodeFields fields ++ encodeFields more := by
  induction fields with
  | nil => rfl
  | cons f rest ih => rw [List.cons_append, encodeFields, encodeFields, ih, List.append_assoc]

end Value

def Fields.records (fields : Fields) : List Record := fields.map fun f => ⟨f.1, f.2.payload⟩

theorem Fields.records_append (fields more : Fields) :
    (fields ++ more).records = fields.records ++ more.records := List.map_append

namespace Record

/-- A written number is one record, unless its field is one that is always read as a block. -/
theorem decodeAll_encodeVarint {number n : Nat} {always : List Nat} (h0 : 0 < number)
    (h : 8 * number + 8 ≤ UInt32.size) (hn : n < UInt64.size) (halways : number ∉ always) (rest : Bytes) :
    decodeAll always (encodeVarint number n ++ rest) =
      (decodeAll always rest).map (⟨number, .varint n⟩ :: ·) := by
  have hk : Key.decode (encodeVarint number n ++ rest) = some (⟨number, .varint⟩, Varint.encode n ++ rest) := by
    rw [encodeVarint, List.append_assoc]
    exact Key.decode_encode ⟨number, .varint⟩ h0 h _
  have ht : payloadType always [] ⟨number, .varint⟩ = .varint := by simp [payloadType, halways]
  rw [decodeAll, scan_plain hk (by rw [ht]; rfl), ht]
  simp [Payload.take?, Varint.decode_encode hn, keep, decodeAll]

end Record

/-- A value is written as the record of its payload. -/
theorem Value.encodeField_eq (number : Nat) (v : Value) :
    encodeField number v =
      match v.payload with
      | .varint n => Record.encodeVarint number n
      | .block body => Record.encodeBlock number body
      | _ => [] := by
  cases v <;> rfl

theorem Record.length_encodeBlock (number : Nat) (body : Bytes) :
    body.length + 2 ≤ (encodeBlock number body).length := by
  have hpos : ∀ n, 0 < (Varint.encode n).length := by
    intro n
    rw [Varint.encode]
    split <;> simp
  have hkey := hpos (8 * number + WireType.block.code)
  have hsize := hpos body.length
  simp only [encodeBlock, Key.encode, List.length_append]
  omega

theorem Record.encodeBlock_ne_nil (number : Nat) (body : Bytes) : encodeBlock number body ≠ [] := by
  have hlength := length_encodeBlock number body
  exact List.ne_nil_of_length_pos (by omega)

theorem Record.encodeVarint_ne_nil (number n : Nat) : encodeVarint number n ≠ [] := by
  rw [encodeVarint, Key.encode, Varint.encode]
  split <;> simp

theorem Value.encodeField_ne_nil (number : Nat) (v : Value) : encodeField number v ≠ [] := by
  cases v with
  | varint n => exact Record.encodeVarint_ne_nil number _
  | text s => exact Record.encodeBlock_ne_nil number _
  | bytes b => exact Record.encodeBlock_ne_nil number b
  | message fields => exact Record.encodeBlock_ne_nil number _

/-- No field is written as nothing. -/
theorem Value.encodeFields_eq_nil_iff {fields : Fields} : encodeFields fields = [] ↔ fields = [] := by
  cases fields with
  | nil => exact iff_of_true rfl rfl
  | cons f rest =>
    refine iff_of_false ?_ (List.cons_ne_nil f rest)
    exact List.append_ne_nil_of_left_ne_nil (encodeField_ne_nil f.1 f.2) _

/-- A block says where it ends. -/
theorem Record.encodeBlock_append_injective {number : Nat} {a b x y : Bytes}
    (h : encodeBlock number a ++ x = encodeBlock number b ++ y) : a = b ∧ x = y := by
  simp only [encodeBlock, List.append_assoc] at h
  obtain ⟨hlength, h⟩ := Varint.encode_append_injective (List.append_cancel_left h)
  exact List.append_inj h hlength

/-- A byte string that is left out is empty. -/
theorem Value.encodeFields_putBytes_injective {number : Nat} {a b : Bytes}
    (h : encodeFields (Fields.putBytes number a) = encodeFields (Fields.putBytes number b)) : a = b := by
  have hput (x : Bytes) : encodeFields (Fields.putBytes number x) =
      if x.isEmpty then [] else Record.encodeBlock number x := by
    rw [Fields.putBytes, Fields.put, isDefault]
    cases x.isEmpty with
    | true => rfl
    | false => exact List.append_nil _
  rw [hput, hput] at h
  cases a with
  | nil =>
    cases b with
    | nil => rfl
    | cons y b => exact absurd h.symm (Record.encodeBlock_ne_nil number _)
  | cons x a =>
    cases b with
    | nil => exact absurd h (Record.encodeBlock_ne_nil number _)
    | cons y b => exact (Record.encodeBlock_append_injective (congrArg (· ++ []) h)).1

/-- A key of a small field number takes a byte. -/
theorem Key.length_encode_le {number : Nat} (hnumber : number < 15) (t : WireType) :
    (encode ⟨number, t⟩).length ≤ 1 := by
  have hcode : t.code ≤ 5 := by cases t <;> decide
  apply Varint.encode_length_le 0
  simp only [Varint.room]
  omega

/-- A number of 64 bits takes ten bytes at most. -/
theorem Varint.length_encode_le {n : Nat} (hn : n < UInt64.size) : (encode n).length ≤ 10 := by
  have hroom : UInt64.size ≤ room 128 9 := by decide
  apply encode_length_le 9
  omega

theorem Record.length_encodeBlock_le {number : Nat} (hnumber : number < 15) {body : Bytes}
    (hlen : body.length < UInt64.size) : (encodeBlock number body).length ≤ body.length + 11 := by
  have hkey := Key.length_encode_le hnumber .block
  have hsize := Varint.length_encode_le hlen
  simp only [encodeBlock, List.length_append]
  omega

theorem Record.length_encodeVarint_le {number n : Nat} (hnumber : number < 15) (hn : n < UInt64.size) :
    (encodeVarint number n).length ≤ 11 := by
  have hkey := Key.length_encode_le hnumber .varint
  have hsize := Varint.length_encode_le hn
  simp only [encodeVarint, List.length_append]
  omega

/-- What is left out takes no bytes. -/
theorem Value.length_encodeFields_put_le {number k : Nat} {v : Value} (h : (encodeField number v).length ≤ k) :
    (encodeFields (Fields.put number v)).length ≤ k := by
  rw [Fields.put]
  split
  · exact Nat.zero_le _
  · simpa [encodeFields] using h

theorem Value.length_encodeFields_putInt32_le {number : Nat} (hnumber : number < 15) (i : Int32) :
    (encodeFields (Fields.putInt32 number i)).length ≤ 11 :=
  length_encodeFields_put_le (Record.length_encodeVarint_le hnumber (UInt64.toNat_lt_size _))

theorem Value.length_encodeFields_putText_le {number : Nat} (hnumber : number < 15) {s : String}
    (hlen : (Bytes.ofText s).length < UInt64.size) :
    (encodeFields (Fields.putText number s)).length ≤ (Bytes.ofText s).length + 11 :=
  length_encodeFields_put_le (Record.length_encodeBlock_le hnumber hlen)

theorem Value.length_encodeFields_putBytes_le {number : Nat} (hnumber : number < 15) {b : Bytes}
    (hlen : b.length < UInt64.size) : (encodeFields (Fields.putBytes number b)).length ≤ b.length + 11 :=
  length_encodeFields_put_le (Record.length_encodeBlock_le hnumber hlen)

/-- What stands in the blocks of a message is shorter than the message. -/
theorem Fields.length_body_lt {fields : Fields} {number : Nat} {body : Bytes}
    (h : ⟨number, .block body⟩ ∈ fields.records) : body.length + 2 ≤ (Value.encodeFields fields).length := by
  induction fields with
  | nil => cases h
  | cons f rest ih =>
    rw [Value.encodeFields, List.length_append]
    rcases List.mem_cons.1 h with h | h
    · obtain ⟨rfl, hp⟩ := Record.mk.inj h
      have hb := Record.length_encodeBlock f.1 body
      rw [Value.encodeField_eq, ← hp]
      exact Nat.le_trans hb (Nat.le_add_right ..)
    · have hle := ih h
      omega

/-- Written fields are read as their records. -/
theorem Record.decodeAll_encodeFields {always : List Nat} {fields : Fields}
    (hnumbers : ∀ f ∈ fields, IsFieldNumber f.1)
    (halways : ∀ f ∈ fields, f.1 ∈ always → ∃ body, f.2.payload = .block body)
    (hlen : (Value.encodeFields fields).length < UInt64.size) :
    decodeAll always (Value.encodeFields fields) = some fields.records := by
  induction fields with
  | nil => exact decodeAll_nil always
  | cons f rest ih =>
    obtain ⟨number, v⟩ := f
    rw [List.forall_mem_cons] at hnumbers halways
    obtain ⟨⟨h0, hmax⟩, hrest⟩ := hnumbers
    -- a body is shorter than the message, so its length can be written
    have hbody : ∀ body, v.payload = .block body → body.length < UInt64.size := by
      intro body hp
      have hmem : (⟨number, .block body⟩ : Record) ∈ Fields.records ((number, v) :: rest) := by
        rw [← hp]
        exact List.mem_cons_self ..
      have hle := Fields.length_body_lt hmem
      omega
    rw [Value.encodeFields, List.length_append] at hlen
    have hread := ih hrest halways.2 (by omega)
    rw [Value.encodeFields]
    cases v with
    | varint n =>
      have hno : number ∉ always := by
        intro hmem
        obtain ⟨body, hb⟩ := halways.1 hmem
        cases hb
      rw [Value.encodeField, decodeAll_encodeVarint h0 hmax n.toNat_lt_size hno, hread]
      rfl
    | text s => rw [Value.encodeField, decodeAll_encodeBlock always h0 hmax (hbody _ rfl), hread]; rfl
    | bytes b => rw [Value.encodeField, decodeAll_encodeBlock always h0 hmax (hbody _ rfl), hread]; rfl
    | message inner => rw [Value.encodeField, decodeAll_encodeBlock always h0 hmax (hbody _ rfl), hread]; rfl

section Measure

variable {fields : Fields}

theorem Fields.records_ne_group : ∀ r ∈ fields.records, r.payload ≠ .group := by
  intro r hr
  obtain ⟨⟨number, v⟩, -, rfl⟩ := List.mem_map.1 hr
  cases v <;> exact nofun

/-- The measure sees the blocks of written fields, and no others. -/
theorem mem_innerBlocks_encodeFields (hnumbers : Value.FieldsNumbered fields)
    (hlen : (Value.encodeFields fields).length < UInt64.size) {body : Bytes} :
    body ∈ innerBlocks (Value.encodeFields fields) ↔ ∃ f ∈ fields, f.2.payload = .block body := by
  have hread : Record.decodeAll [] (Value.encodeFields fields) = some fields.records :=
    Record.decodeAll_encodeFields (fun f hf => (Value.fieldsNumbered_iff.1 hnumbers f hf).1) nofun hlen
  rw [innerBlocks, blocks_of_decodeAll hread Fields.records_ne_group, Option.getD_some, Record.bodies,
    List.mem_filterMap]
  have hbody : ∀ p : Payload, p.body? = some body ↔ p = .block body := by
    intro p
    cases p <;> simp [Payload.body?]
  simp only [hbody, Fields.records, List.mem_map]
  constructor
  · intro h
    obtain ⟨r, ⟨f, hf, rfl⟩, hp⟩ := h
    exact ⟨f, hf, hp⟩
  · intro h
    obtain ⟨f, hf, hp⟩ := h
    exact ⟨_, ⟨f, hf, rfl⟩, hp⟩

/-- What the measure takes a value for is how it measures the block that the value is written as. -/
theorem blockNesting_of_payload {v : Value} (hnumbers : v.Numbered) {body : Bytes} (hp : v.payload = .block body)
    (hlen : body.length < UInt64.size) : blockNesting body + 1 = v.apparent := by
  induction v using Value.induction generalizing body with
  | varint n => cases hp
  | text s => cases hp; rfl
  | bytes b => cases hp; rfl
  | message fields ih =>
    cases hp
    rw [Value.apparent, Nat.add_right_cancel_iff]
    have hfield : ∀ f ∈ fields, ∀ body, f.2.payload = .block body → blockNesting body + 1 = f.2.apparent := by
      intro f hf body hp
      have hin : body ∈ innerBlocks (Value.encodeFields fields) :=
        (mem_innerBlocks_encodeFields hnumbers hlen).2 ⟨f, hf, hp⟩
      have hlt := innerBlocks_length hin
      exact ih f hf (Value.fieldsNumbered_iff.1 hnumbers f hf).2 hp (by omega)
    apply Nat.le_antisymm
    · rw [blockNesting_le_iff]
      intro body hbody
      obtain ⟨f, hf, hp⟩ := (mem_innerBlocks_encodeFields hnumbers hlen).1 hbody
      rw [hfield f hf body hp]
      exact Value.apparentOfFields_le_iff.1 (Nat.le_refl _) f hf
    · rw [Value.apparentOfFields_le_iff]
      intro f hf
      cases hp : f.2.payload with
      | block body =>
        rw [← hfield f hf body hp]
        exact blockNesting_lt ((mem_innerBlocks_encodeFields hnumbers hlen).2 ⟨f, hf, hp⟩)
      | _ =>
        -- only numbers are no blocks, and nothing is nested in them
        obtain ⟨number, v⟩ := f
        cases v with
        | varint n => exact Nat.zero_le _
        | _ => cases hp

theorem blockNesting_encodeFields (hnumbers : Value.FieldsNumbered fields)
    (hlen : (Value.encodeFields fields).length < UInt64.size) :
    blockNesting (Value.encodeFields fields) = Value.apparentOfFields fields :=
  Nat.succ.inj (blockNesting_of_payload (v := .message fields) hnumbers rfl hlen)

end Measure

/-- A block takes a byte for its key and one for its length at least. -/
theorem length_of_mem_blocks {b : Bytes} {bodies : List Bytes} (h : blocks b = some bodies) :
    ∀ body ∈ bodies, body.length + 2 ≤ b.length := by
  fun_induction blocks b generalizing bodies with
  | case1 =>
    cases h
    exact List.forall_mem_nil _
  | case4 b hb key rest hk hlen ht n rest' hv hlen' ih =>
    intro body hbody
    have := ih h body hbody
    omega
  | case6 b hb key rest hk hlen ht front rest' hs hlen' ih =>
    intro body hbody
    have := ih h body hbody
    omega
  | case8 b hb key rest hk hlen ht front rest' hs hlen' ih =>
    intro body hbody
    have := ih h body hbody
    omega
  | case10 b hb key rest hk hlen ht front rest' hbl hlen' ih =>
    obtain ⟨more, hm, rfl⟩ := Option.map_eq_some_iff.1 h
    rw [List.forall_mem_cons]
    refine ⟨by omega, fun body hbody => ?_⟩
    have := ih hm body hbody
    omega
  | _ => cases h

/-- Any bytes look like messages inside one another at most half as often as there are bytes. -/
theorem blockNesting_le_half (b : Bytes) : blockNesting b ≤ b.length / 2 := by
  induction hn : b.length using Nat.strongRecOn generalizing b with
  | ind n ih =>
    rw [blockNesting_le_iff]
    intro body hbody
    have hlen : body.length + 2 ≤ b.length := by
      cases hb : blocks b with
      | none => simp [innerBlocks, hb] at hbody
      | some bodies => exact length_of_mem_blocks hb body (by simpa [innerBlocks, hb] using hbody)
    have hle := ih body.length (by omega) body rfl
    omega

end Fabric.Wire

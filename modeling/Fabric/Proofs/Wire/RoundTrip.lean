import Fabric.Proofs.Wire.NestingLimit
import Fabric.Proofs.Wire.Typing

/-!
What is written is read back. A slot reads only the records of its own fields, and reads from those of a
message of the type exactly what was written; so the message is restored, from the inside out. The measure of
nesting never sees less than the message holds, so one that is nested too deep is refused.
-/
namespace Fabric.Wire

/-- The reader restores messages that are nested less deep than this from their records. -/
def RestoresBelow (depth : Nat) (read : MessageReader) : Prop :=
  ∀ (t : MessageType) (fields : Fields), t.Admits fields → Value.nestingOfFields fields < depth →
    (Value.encodeFields fields).length < UInt64.size → read t fields.records = some fields

/-- Written fields are read as their records, also where the entries of keyed fields are always read as
blocks. -/
theorem SlotsAdmit.decodeAll {slots : List Slot} {fields : Fields} {always : List Nat} (h : SlotsAdmit slots fields)
    (hnumbers : ∀ slot ∈ slots, ∀ number ∈ slot.numbers, IsFieldNumber number)
    (halways : ∀ slot ∈ slots, ∀ number ∈ slot.numbers, number ∈ always → slot.isKeyed = true)
    (hlen : (Value.encodeFields fields).length < UInt64.size) :
    Record.decodeAll always (Value.encodeFields fields) = some fields.records := by
  refine Record.decodeAll_encodeFields (fun f hf => ?_) (fun f hf hmem => ?_) hlen
  · obtain ⟨slot, hslot, part, hpart, hf⟩ := h.exists_slot f hf
    exact hnumbers slot hslot f.1 (hpart.number_mem f hf)
  · obtain ⟨slot, hslot, part, hpart, hf⟩ := h.exists_slot f hf
    exact hpart.block_of_isKeyed (halways slot hslot f.1 (hpart.number_mem f hf) hmem) f hf

theorem MessageType.Admits.decodeAll {t : MessageType} {fields : Fields} (h : t.Admits fields)
    (hlen : (Value.encodeFields fields).length < UInt64.size) :
    Record.decodeAll t.keyedNumbers (Value.encodeFields fields) = some fields.records :=
  SlotsAdmit.decodeAll h t.isFieldNumber t.isKeyed_of_mem hlen

/-- The bytes in a block of a message are fewer than those of the message. -/
theorem Fields.body_lt_size {fields : Fields} (hlen : (Value.encodeFields fields).length < UInt64.size)
    {f : Nat × Value} (hf : f ∈ fields) : ∀ body, f.2.payload = .block body → body.length < UInt64.size := by
  intro body hp
  have hmem : (⟨f.1, .block body⟩ : Record) ∈ fields.records := by
    rw [← hp]
    exact List.mem_map_of_mem hf
  have hle := Fields.length_body_lt hmem
  omega

theorem payloads_records_append {number : Nat} {fields more : Fields} :
    payloads number (fields ++ more).records = payloads number fields.records ++ payloads number more.records := by
  simp [payloads, Fields.records_append]

theorem payloads_records_map {α : Type} (number : Nat) (g : α → Value) (l : List α) :
    payloads number (Fields.records (l.map fun a => (number, g a))) = l.map fun a => (g a).payload := by
  induction l with
  | nil => rfl
  | cons a l ih => simpa [payloads, Fields.records] using ih

theorem payloads_put_self (number : Nat) (v : Value) :
    payloads number (Fields.put number v).records = if v.isDefault then [] else [v.payload] := by
  rw [Fields.put]
  split <;> simp [payloads, Fields.records]

theorem payloads_put_of_ne {number number' : Nat} (h : number' ≠ number) (v : Value) :
    payloads number (Fields.put number' v).records = [] := by
  rw [Fields.put]
  split <;> simp [payloads, Fields.records, h]

theorem entryKey_put (key : String) : entryKey (Fields.put 1 (.text key)) = key := by
  rw [Fields.put]
  split
  · next hempty =>
    have hkey : key = "" := by simpa [Value.isDefault] using hempty
    rw [hkey]
    rfl
  · rfl

/-- A slot reads only the records of its own fields. -/
theorem readSlot_filter (read : MessageReader) (slot : Slot) (rs : List Record) :
    readSlot read (rs.filter fun r => slot.numbers.contains r.number) slot = readSlot read rs slot := by
  have hown (number : Nat) : payloads number (rs.filter fun r => [number].contains r.number) =
      payloads number rs := by
    simp [payloads, List.filter_filter]
  cases slot with
  | plain number kind => simp only [readSlot, readPlain, Slot.numbers, hown]
  | optional number kind => simp only [readSlot, Slot.numbers, hown]
  | repeated number kind => simp only [readSlot, Slot.numbers, hown]
  | keyed number kind => simp only [readSlot, Slot.numbers, hown]
  | oneOf choices =>
    have hsame : ((rs.filter fun r => (Slot.oneOf choices).numbers.contains r.number).filter
        fun r => choices.any fun c => c.1 = r.number) =
          rs.filter fun r => choices.any fun c => c.1 = r.number := by
      rw [List.filter_filter]
      refine List.filter_congr fun r _ => ?_
      rw [Bool.eq_iff_iff]
      simp [Slot.numbers]
    simp only [readSlot, hsame]

section Restoring

variable {depth : Nat} {read : MessageReader} (hread : RestoresBelow depth read)
include hread

/-- A value is read back from the one record that it is written as. -/
theorem readValue_payload {kind : Kind} {v : Value} (h : Kind.Admits kind v) (hn : v.nesting ≤ depth)
    (hlen : ∀ body, v.payload = .block body → body.length < UInt64.size) :
    readValue read kind [v.payload] = some v := by
  cases h with
  | bool b => cases b <;> rfl
  | int32 n => simp [readValue, Value.ofInt32, Value.payload, Kind.scalar?, toInt32_toUInt32_extended]
  | int64 n => simp [readValue, Value.ofInt64, Value.payload, Kind.scalar?]
  | uint64 n => simp [readValue, Value.payload, Kind.scalar?]
  | text s => simp [readValue, Value.payload, Kind.scalar?, Bytes.toText?_ofText]
  | bytes b => rfl
  | @message t fields h =>
    have hbytes : (Value.encodeFields fields).length < UInt64.size := hlen _ rfl
    have hin : Value.nestingOfFields fields < depth := hn
    have hrecords : Record.decodeAll t.keyedNumbers (Value.encodeFields fields) = some fields.records :=
      MessageType.Admits.decodeAll h hbytes
    simp [readValue, Value.payload, Kind.inner?, hrecords, hread t fields h hin hbytes]

/-- A plain field comes back from the records under its number, whatever stands around them. -/
theorem readPlain_put {number : Nat} {kind : Kind} {v : Value} {rs : List Record} (h : Kind.Admits kind v)
    (hn : Value.nestingOfFields (Fields.put number v) ≤ depth)
    (hlen : (Value.encodeFields (Fields.put number v)).length < UInt64.size)
    (hrs : payloads number rs = payloads number (Fields.put number v).records) :
    readPlain read rs number kind = some (Fields.put number v) := by
  rw [readPlain, hrs, payloads_put_self]
  by_cases hv : v.isDefault = true
  · simp [Fields.put, hv]
  · have hput : Fields.put number v = [(number, v)] := by simp [Fields.put, hv]
    rw [hput] at hn hlen ⊢
    have hvalue : readValue read kind [v.payload] = some v :=
      readValue_payload hread h (Value.nestingOfFields_le_iff.1 hn _ (List.mem_singleton_self _))
        (Fields.body_lt_size hlen (List.mem_singleton_self _))
    simp [hv, hvalue]

/-- An entry of a keyed field is read back under its key. -/
theorem readEntry_payload {kind : Kind} {key : String} {v : Value} (h : Kind.Admits kind v)
    (hn : Value.nestingOfFields (Fields.put 1 (.text key) ++ Fields.put 2 v) ≤ depth)
    (hlen : (Value.encodeFields (Fields.put 1 (.text key) ++ Fields.put 2 v)).length < UInt64.size) :
    readEntry read kind (Value.payload (.message (Fields.put 1 (.text key) ++ Fields.put 2 v))) =
      some (key, Fields.put 1 (.text key) ++ Fields.put 2 v) := by
  -- an entry is a message of two plain slots, for the key and the value
  have hslots : SlotsAdmit (entrySlots kind) (Fields.put 1 (.text key) ++ (Fields.put 2 v ++ [])) :=
    .cons (.plain (.text key)) (.cons (.plain h) .nil)
  rw [List.append_nil] at hslots
  have hrecords : Record.decodeAll [] (Value.encodeFields (Fields.put 1 (.text key) ++ Fields.put 2 v)) =
      some (Fields.put 1 (.text key) ++ Fields.put 2 v).records := by
    refine hslots.decodeAll ?_ (fun _ _ _ _ => nofun) hlen
    simp [entrySlots, Slot.numbers, IsFieldNumber, UInt32.size]
  rw [Value.encodeFields_append, List.length_append] at hlen
  obtain ⟨hnkey, hnvalue⟩ := Value.nestingOfFields_append_le_iff.1 hn
  have hkey : readPlain read (Fields.put 1 (.text key) ++ Fields.put 2 v).records 1 .text =
      some (Fields.put 1 (.text key)) := by
    refine readPlain_put hread (.text key) hnkey (by omega) ?_
    rw [payloads_records_append, payloads_put_of_ne (by decide : 2 ≠ 1), List.append_nil]
  have hvalue : readPlain read (Fields.put 1 (.text key) ++ Fields.put 2 v).records 2 kind =
      some (Fields.put 2 v) := by
    refine readPlain_put hread h hnvalue (by omega) ?_
    rw [payloads_records_append, payloads_put_of_ne (by decide : 1 ≠ 2), List.nil_append]
  simp [readEntry, Value.payload, Kind.inner?, hrecords, hkey, hvalue, entryKey_put]

/-- A slot reads from its own records the fields that were written. -/
theorem readSlot_records {slot : Slot} {part : Fields} (h : slot.Admits part) (hnodup : slot.numbers.Nodup)
    (hn : Value.nestingOfFields part ≤ depth) (hlen : (Value.encodeFields part).length < UInt64.size) :
    readSlot read part.records slot = some part := by
  have hvalue : ∀ f ∈ part, ∀ kind : Kind, kind.Admits f.2 → readValue read kind [f.2.payload] = some f.2 :=
    fun f hf kind hv => readValue_payload hread hv (Value.nestingOfFields_le_iff.1 hn f hf)
      (Fields.body_lt_size hlen hf)
  cases h with
  | plain hv => exact readPlain_put hread hv hn hlen rfl
  | unset number kind => rfl
  | @set number kind v hv =>
    have hv := hvalue _ (List.mem_singleton_self _) kind hv
    simp [readSlot, payloads, Fields.records, hv]
  | @repeated number kind vs hvs =>
    rw [readSlot, payloads_records_map number (fun v => v)]
    refine mapM_map_eq_pure fun v hv => ?_
    rw [hvalue (number, v) (List.mem_map_of_mem hv) kind (hvs v hv), Option.map_some]
    rfl
  | @keyed number kind entries hkeys hentries =>
    have hentry : ∀ e ∈ entries,
        readEntry read kind (Value.payload (.message (Fields.put 1 (.text e.1) ++ Fields.put 2 e.2))) =
          some (e.1, Fields.put 1 (.text e.1) ++ Fields.put 2 e.2) := by
      intro e he
      have hmem := List.mem_map_of_mem (f := fun e : String × Value =>
        (number, Value.message (Fields.put 1 (.text e.1) ++ Fields.put 2 e.2))) he
      have hnest := Value.nestingOfFields_le_iff.1 hn _ hmem
      rw [Value.nesting] at hnest
      exact readEntry_payload hread (hentries e he) (by omega) (Fields.body_lt_size hlen hmem _ rfl)
    have hordered : Keyed.Ordered (entries.map fun e => (e.1, Fields.put 1 (.text e.1) ++ Fields.put 2 e.2)) :=
      (Keyed.ordered_map _).2 hkeys
    rw [readSlot, payloads_records_map number fun e => .message _, mapM_map_eq_pure hentry]
    simp [hordered.ofList_eq]
  | unchosen choices => rfl
  | @chosen choices number kind v hchoice hv =>
    have hv := hvalue _ (List.mem_singleton_self _) kind hv
    -- no number is there twice among the choices, so the one that is found is the one that was written
    have hfind : choices.find? (fun c => c.1 = number) = some (number, kind) := find?_of_nodup hnodup hchoice
    have hany : (choices.any fun c => c.1 = number) = true := List.any_eq_true.2 ⟨_, hchoice, by simp⟩
    simp [readSlot, Fields.records, hany, runs, readChoice, hfind, hv]

/-- The slots of a message read it back from its records, each its own part, whatever records of other fields
stand around them. -/
theorem mapM_readSlot {slots : List Slot} {fields : Fields} (h : SlotsAdmit slots fields)
    (hdisjoint : slots.Pairwise fun slot slot' => ∀ number ∈ slot.numbers, number ∉ slot'.numbers)
    (hnodup : ∀ slot ∈ slots, slot.numbers.Nodup) (hn : Value.nestingOfFields fields ≤ depth)
    (hlen : (Value.encodeFields fields).length < UInt64.size) {rs : List Record}
    (hrs : ∀ slot ∈ slots, rs.filter (fun r => slot.numbers.contains r.number) =
      fields.records.filter fun r => slot.numbers.contains r.number) :
    ∃ parts, slots.mapM (readSlot read rs) = some parts ∧ parts.flatten = fields := by
  match h with
  | .nil => exact ⟨[], rfl, rfl⟩
  | @SlotsAdmit.cons slot slots part rest hpart hrest =>
    rw [List.forall_mem_cons] at hnodup hrs
    rw [List.pairwise_cons] at hdisjoint
    rw [Value.nestingOfFields_append_le_iff] at hn
    rw [Value.encodeFields_append, List.length_append] at hlen
    -- the slot sees its own records and none of the others, since no two slots share a number
    have hown : part.records.filter (fun r => slot.numbers.contains r.number) = part.records := by
      rw [List.filter_eq_self]
      intro r hr
      obtain ⟨f, hf, rfl⟩ := List.mem_map.1 hr
      simpa using hpart.number_mem f hf
    have hothers : rest.records.filter (fun r => slot.numbers.contains r.number) = [] := by
      rw [List.filter_eq_nil_iff]
      intro r hr
      obtain ⟨f, hf, rfl⟩ := List.mem_map.1 hr
      obtain ⟨slot', hslot', part', hpart', hf⟩ := hrest.exists_slot f hf
      intro hmem
      exact hdisjoint.1 slot' hslot' f.1 (by simpa using hmem) (hpart'.number_mem f hf)
    have hfirst : readSlot read rs slot = some part := by
      rw [← readSlot_filter, hrs.1, Fields.records_append, List.filter_append, hown, hothers, List.append_nil]
      exact readSlot_records hread hpart hnodup.1 hn.1 (by omega)
    have hlater : ∀ slot' ∈ slots, rs.filter (fun r => slot'.numbers.contains r.number) =
        rest.records.filter fun r => slot'.numbers.contains r.number := by
      intro slot' hslot'
      have hnone : part.records.filter (fun r => slot'.numbers.contains r.number) = [] := by
        rw [List.filter_eq_nil_iff]
        intro r hr
        obtain ⟨f, hf, rfl⟩ := List.mem_map.1 hr
        intro hmem
        exact hdisjoint.1 slot' hslot' f.1 (hpart.number_mem f hf) (by simpa using hmem)
      rw [hrs.2 slot' hslot', Fields.records_append, List.filter_append, hnone, List.nil_append]
    obtain ⟨parts, hparts, hflat⟩ := mapM_readSlot hrest hdisjoint.2 hnodup.2 hn.2 (by omega) hlater
    exact ⟨part :: parts, mapM_cons_eq_some.2 ⟨_, _, hfirst, hparts, rfl⟩, by rw [List.flatten_cons, hflat]⟩

end Restoring

/-- The reader of messages restores those that it has the depth for. -/
theorem restoresBelow_readMessage (depth : Nat) : RestoresBelow depth (readMessage depth) := by
  induction depth with
  | zero => exact fun t fields _ hn _ => absurd hn (Nat.not_lt_zero _)
  | succ depth ih =>
    intro t fields h hn hlen
    obtain ⟨parts, hparts, hflat⟩ := mapM_readSlot ih h t.disjoint_numbers t.nodup_numbers
      (Nat.le_of_lt_succ hn) hlen fun _ _ => rfl
    simp [readMessage, readSlots, hparts, hflat]

/-- The check measures what is written by what it seems to be. -/
theorem checkNesting_encode {t : MessageType} {m : Fields} (h : t.Admits m) (hlen : m.encode.length < UInt64.size)
    (limit : Nat) : checkNesting limit m.encode =
      if Value.apparentOfFields m ≤ limit then .ok () else .error (.tooDeep limit) := by
  have hmeasure : blockNesting m.encode = Value.apparentOfFields m :=
    blockNesting_encodeFields (SlotsAdmit.numbered h t.isFieldNumber) hlen
  simp only [checkNesting, nestedWithin_iff, hmeasure]

/-- Whatever the limit, what is written is read back. -/
theorem Fields.decode?_encode {t : MessageType} {m : Fields} (h : t.Admits m)
    (hlen : m.encode.length < UInt64.size) : Fields.decode? t m.encode = some m := by
  -- each level takes two bytes, so the reader has the depth
  have hdepth : Value.nestingOfFields m < m.encode.length + 1 := by
    have hhalf := blockNesting_le_half m.encode
    have hmeasure : blockNesting m.encode = Value.apparentOfFields m :=
      blockNesting_encodeFields (SlotsAdmit.numbered h t.isFieldNumber) hlen
    have hle := Value.nestingOfFields_le_apparent m
    omega
  rw [decode?, encode, h.decodeAll hlen]
  exact restoresBelow_readMessage _ t m h hdepth hlen

/-- The decoder restores a message exactly if it does not seem nested too deep, and refuses it otherwise. -/
theorem Fields.decode_encode {t : MessageType} {m : Fields} (h : t.Admits m) (hlen : m.encode.length < UInt64.size) :
    Fields.decode t m.encode =
      if Value.apparentOfFields m ≤ maxNesting then .ok m else .error (.tooDeep maxNesting) := by
  rw [Fields.decode, checkNesting_encode h hlen, Fields.decode?_encode h hlen]
  split <;> rfl

theorem Fields.decode_encode_of_check {t : MessageType} {m : Fields} (h : t.Admits m)
    (hlen : m.encode.length < UInt64.size) (hcheck : checkNesting maxNesting m.encode = .ok ()) :
    Fields.decode t m.encode = .ok m := by
  rw [checkNesting_encode h hlen] at hcheck
  rw [Fields.decode_encode h hlen]
  split at hcheck
  · next hwithin => rw [if_pos hwithin]
  · cases hcheck

/-- The check takes a message for nested at least as deep as it is. -/
theorem Fields.decode_encode_of_deep {t : MessageType} {m : Fields} (h : t.Admits m)
    (hlen : m.encode.length < UInt64.size) (hdeep : maxNesting < Value.nestingOfFields m) :
    Fields.decode t m.encode = .error (.tooDeep maxNesting) := by
  have hle := Value.nestingOfFields_le_apparent m
  rw [Fields.decode_encode h hlen, if_neg (by omega)]

end Fabric.Wire

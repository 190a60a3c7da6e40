import Fabric.Proofs.Wire.Encoding
import Fabric.Proofs.Wire.Reading

namespace Fabric.Wire

mutual
inductive Kind.Admits : Kind → Value → Prop
  | bool (b : Bool) : Kind.Admits .bool (.ofBool b)
  | int32 (n : Int32) : Kind.Admits .int32 (.ofInt32 n)
  | int64 (n : Int64) : Kind.Admits .int64 (.ofInt64 n)
  | uint64 (n : UInt64) : Kind.Admits .uint64 (.varint n)
  | text (s : String) : Kind.Admits .text (.text s)
  | bytes (b : Bytes) : Kind.Admits .bytes (.bytes b)
  | message {t : MessageType} {fields : Fields} (h : SlotsAdmit t.slots fields) :
      Kind.Admits (.message t) (.message fields)
inductive Slot.Admits : Slot → Fields → Prop
  | plain {number : Nat} {kind : Kind} {v : Value} (hv : Kind.Admits kind v) :
      Slot.Admits (.plain number kind) (Fields.put number v)
  | unset (number : Nat) (kind : Kind) : Slot.Admits (.optional number kind) []
  | set {number : Nat} {kind : Kind} {v : Value} (hv : Kind.Admits kind v) :
      Slot.Admits (.optional number kind) [(number, v)]
  | repeated {number : Nat} {kind : Kind} {vs : List Value} (hvs : ∀ v ∈ vs, Kind.Admits kind v) :
      Slot.Admits (.repeated number kind) (vs.map fun v => (number, v))
  | keyed {number : Nat} {kind : Kind} {entries : List (String × Value)}
      (hkeys : Keyed.Ordered entries) (hentries : ∀ e ∈ entries, Kind.Admits kind e.2) :
      Slot.Admits (.keyed number kind)
        (entries.map fun e => (number, .message (Fields.put 1 (.text e.1) ++ Fields.put 2 e.2)))
  | unchosen (choices : List (Nat × Kind)) : Slot.Admits (.oneOf choices) []
  | chosen {choices : List (Nat × Kind)} {number : Nat} {kind : Kind} {v : Value}
      (hchoice : (number, kind) ∈ choices) (hv : Kind.Admits kind v) :
      Slot.Admits (.oneOf choices) [(number, v)]
inductive SlotsAdmit : List Slot → Fields → Prop
  | nil : SlotsAdmit [] []
  | cons {slot : Slot} {slots : List Slot} {part rest : Fields} (hpart : Slot.Admits slot part)
      (hrest : SlotsAdmit slots rest) : SlotsAdmit (slot :: slots) (part ++ rest)
end

def MessageType.Admits (t : MessageType) (fields : Fields) : Prop := SlotsAdmit t.slots fields

def Slot.isKeyed : Slot → Bool
  | .keyed .. => true
  | _ => false

namespace MessageType

theorem isFieldNumber (t : MessageType) : ∀ slot ∈ t.slots, ∀ number ∈ slot.numbers, IsFieldNumber number := by
  have hsmall : ∀ slot ∈ t.slots, ∀ number ∈ slot.numbers, 0 < number ∧ number < 15 := by
    cases t <;> decide
  have hsize : 8 * 15 + 8 ≤ UInt32.size := by decide
  intro slot hslot number hnumber
  obtain ⟨h0, hlt⟩ := hsmall slot hslot number hnumber
  exact ⟨h0, by omega⟩

theorem disjoint_numbers (t : MessageType) :
    t.slots.Pairwise fun slot slot' => ∀ number ∈ slot.numbers, number ∉ slot'.numbers := by
  cases t <;> decide

theorem isKeyed_of_mem (t : MessageType) :
    ∀ slot ∈ t.slots, ∀ number ∈ slot.numbers, number ∈ t.keyedNumbers → slot.isKeyed = true := by
  cases t <;> decide

theorem nodup_numbers (t : MessageType) : ∀ slot ∈ t.slots, slot.numbers.Nodup := by
  cases t <;> decide

end MessageType

theorem Slot.Admits.number_mem {slot : Slot} {part : Fields} (h : slot.Admits part) :
    ∀ f ∈ part, f.1 ∈ slot.numbers := by
  cases h with
  | plain hv =>
    rw [Fields.put]
    split <;> simp [numbers]
  | keyed =>
    rw [List.forall_mem_map]
    exact fun _ _ => List.mem_singleton_self _
  | chosen hchoice hv => simpa [numbers] using ⟨_, hchoice⟩
  | _ => simp [numbers]

/-- The entries of a keyed field are blocks. -/
theorem Slot.Admits.block_of_isKeyed {slot : Slot} {part : Fields} (h : slot.Admits part)
    (hkeyed : slot.isKeyed = true) : ∀ f ∈ part, ∃ body, f.2.payload = .block body := by
  cases h with
  | keyed =>
    rw [List.forall_mem_map]
    exact fun _ _ => ⟨_, rfl⟩
  | _ => cases hkeyed

/-- Every field is one of some slot. -/
theorem SlotsAdmit.exists_slot {slots : List Slot} {fields : Fields} (h : SlotsAdmit slots fields) :
    ∀ f ∈ fields, ∃ slot ∈ slots, ∃ part, slot.Admits part ∧ f ∈ part := by
  match h with
  | .nil => exact nofun
  | .cons hpart hrest =>
    intro f hf
    rcases List.mem_append.1 hf with hf | hf
    · exact ⟨_, List.mem_cons_self .., _, hpart, hf⟩
    · obtain ⟨slot, hslot, h⟩ := hrest.exists_slot f hf
      exact ⟨slot, List.mem_cons_of_mem _ hslot, h⟩

mutual
theorem Kind.Admits.numbered {kind : Kind} {v : Value} : Kind.Admits kind v → v.Numbered
  | .bool _ | .int32 _ | .int64 _ | .uint64 _ | .text _ | .bytes _ => trivial
  | .message (t := t) h => h.numbered t.isFieldNumber
theorem Slot.Admits.numbered {slot : Slot} {part : Fields} :
    Slot.Admits slot part → (∀ number ∈ slot.numbers, IsFieldNumber number) → Value.FieldsNumbered part
  | .plain hv, hn => Value.fieldsNumbered_put (hn _ (List.mem_singleton_self _)) hv.numbered
  | .unset .., _ => trivial
  | .set hv, hn => ⟨hn _ (List.mem_singleton_self _), hv.numbered, trivial⟩
  | .repeated hvs, hn => by
    rw [Value.fieldsNumbered_iff, List.forall_mem_map]
    exact fun v hv => ⟨hn _ (List.mem_singleton_self _), (hvs v hv).numbered⟩
  | .keyed hkeys hentries, hn => by
    rw [Value.fieldsNumbered_iff, List.forall_mem_map]
    refine fun e he => ⟨hn _ (List.mem_singleton_self _), ?_⟩
    -- an entry is a message with the fields 1 and 2
    rw [Value.Numbered, Value.fieldsNumbered_append]
    exact ⟨Value.fieldsNumbered_put ⟨by decide, by decide⟩ trivial,
      Value.fieldsNumbered_put ⟨by decide, by decide⟩ (hentries e he).numbered⟩
  | .unchosen .., _ => trivial
  | .chosen hchoice hv, hn => ⟨hn _ (List.mem_map.2 ⟨_, hchoice, rfl⟩), hv.numbered, trivial⟩
theorem SlotsAdmit.numbered {slots : List Slot} {fields : Fields} : SlotsAdmit slots fields →
    (∀ slot ∈ slots, ∀ number ∈ slot.numbers, IsFieldNumber number) → Value.FieldsNumbered fields
  | .nil, _ => trivial
  | .cons hpart hrest, hn => by
    rw [List.forall_mem_cons] at hn
    exact Value.fieldsNumbered_append.2 ⟨hpart.numbered hn.1, hrest.numbered hn.2⟩
end

end Fabric.Wire

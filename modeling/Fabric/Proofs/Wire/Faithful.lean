import Fabric.Proofs.Wire.RoundTrip

namespace Fabric.Wire

namespace Fields

variable {fields more : Fields} {number : Nat}

theorem get?_append : (fields ++ more).get? number = (fields.get? number).or (more.get? number) := by
  rw [get?, List.find?_append, Option.map_or]
  rfl

@[simp] theorem get?_append_eq_none :
    (fields ++ more).get? number = none ↔ fields.get? number = none ∧ more.get? number = none := by
  rw [get?_append, Option.or_eq_none_iff]

@[simp] theorem get?_map_of_ne {α : Type} {g : α → Value} {l : List α} {number' : Nat} (h : number' ≠ number) :
    Fields.get? (l.map fun a => (number', g a)) number = none := by
  simp [get?, h]

@[simp] theorem get?_put_of_ne {v : Value} {number' : Nat} (h : number' ≠ number) :
    (put number' v).get? number = none := by
  rw [put]
  split <;> simp [get?, h]

@[simp] theorem get?_putMessages_of_ne {ms : List Fields} {number' : Nat} (h : number' ≠ number) :
    (putMessages number' ms).get? number = none :=
  get?_map_of_ne h

@[simp] theorem get?_putBlobs_of_ne {bs : List Bytes} {number' : Nat} (h : number' ≠ number) :
    (putBlobs number' bs).get? number = none :=
  get?_map_of_ne h

@[simp] theorem get?_putEntries_of_ne {es : List (String × Fields)} {number' : Nat} (h : number' ≠ number) :
    (putEntries number' es).get? number = none :=
  get?_map_of_ne h

@[simp] theorem get?_putMessage?_of_ne {m : Option Fields} {number' : Nat} (h : number' ≠ number) :
    (putMessage? number' m).get? number = none := by
  cases m <;> simp [putMessage?, putMessage, get?, h]

section Absent

@[simp] theorem word_append_right (h : fields.get? number = none) :
    (fields ++ more).word number = more.word number := by
  simp only [word, get?_append, h, Option.none_or]

@[simp] theorem word_append_left (h : more.get? number = none) :
    (fields ++ more).word number = fields.word number := by
  simp only [word, get?_append, h, Option.or_none]

@[simp] theorem text_append_right (h : fields.get? number = none) :
    (fields ++ more).text number = more.text number := by
  simp only [text, get?_append, h, Option.none_or]

@[simp] theorem text_append_left (h : more.get? number = none) :
    (fields ++ more).text number = fields.text number := by
  simp only [text, get?_append, h, Option.or_none]

@[simp] theorem bytes_append_right (h : fields.get? number = none) :
    (fields ++ more).bytes number = more.bytes number := by
  simp only [bytes, get?_append, h, Option.none_or]

@[simp] theorem bytes_append_left (h : more.get? number = none) :
    (fields ++ more).bytes number = fields.bytes number := by
  simp only [bytes, get?_append, h, Option.or_none]

@[simp] theorem message?_append_right (h : fields.get? number = none) :
    (fields ++ more).message? number = more.message? number := by
  simp only [message?, get?_append, h, Option.none_or]

@[simp] theorem message?_append_left (h : more.get? number = none) :
    (fields ++ more).message? number = fields.message? number := by
  simp only [message?, get?_append, h, Option.or_none]

end Absent

section Self

/-- A truth value is found in its word. -/
@[simp] theorem ite_bne_zero (b : Bool) : ((if b = true then 1 else 0 : UInt64) != 0) = b := by
  cases b <;> rfl

@[simp] theorem word_put (number : Nat) (n : UInt64) : (put number (.varint n)).word number = n := by
  by_cases h : n = 0 <;> simp [put, Value.isDefault, word, get?, h]

@[simp] theorem text_put (number : Nat) (s : String) : (put number (.text s)).text number = s := by
  by_cases h : s = "" <;> simp [put, Value.isDefault, text, get?, h]

@[simp] theorem bytes_put (number : Nat) (b : Bytes) : (put number (.bytes b)).bytes number = b := by
  by_cases h : b = [] <;> simp [put, Value.isDefault, bytes, get?, h]

@[simp] theorem message?_putMessage? (number : Nat) (m : Option Fields) :
    (putMessage? number m).message? number = m := by
  cases m <;> simp [putMessage?, putMessage, message?, get?]

end Self

section Values

theorem values_eq_nil (h : fields.get? number = none) : fields.values number = [] := by
  simpa [get?, values, List.find?_eq_none] using h

theorem values_append : (fields ++ more).values number = fields.values number ++ more.values number := by
  simp [values]

@[simp] theorem messages_append_right (h : fields.get? number = none) :
    (fields ++ more).messages number = more.messages number := by
  rw [messages, values_append, values_eq_nil h, List.nil_append, messages]

@[simp] theorem messages_append_left (h : more.get? number = none) :
    (fields ++ more).messages number = fields.messages number := by
  rw [messages, values_append, values_eq_nil h, List.append_nil, messages]

@[simp] theorem messages_putMessages (number : Nat) (ms : List Fields) :
    (putMessages number ms).messages number = ms := by
  induction ms with
  | nil => rfl
  | cons m rest ih => simpa [messages, values, putMessages] using ih

@[simp] theorem blobs_append_left (h : more.get? number = none) :
    (fields ++ more).blobs number = fields.blobs number := by
  rw [blobs, values_append, values_eq_nil h, List.append_nil, blobs]

@[simp] theorem blobs_putBlobs (number : Nat) (bs : List Bytes) : (putBlobs number bs).blobs number = bs := by
  induction bs with
  | nil => rfl
  | cons b rest ih => simpa [blobs, values, putBlobs] using ih

@[simp] theorem entries_append_right (h : fields.get? number = none) :
    (fields ++ more).entries number = more.entries number := by
  rw [entries, messages_append_right h, entries]

@[simp] theorem entries_append_left (h : more.get? number = none) :
    (fields ++ more).entries number = fields.entries number := by
  rw [entries, messages_append_left h, entries]

theorem putEntries_eq {es : List (String × Fields)} (hes : Keyed.Ordered es) {number : Nat} :
    putEntries number es = es.map fun e => (number, .message (putText 1 e.1 ++ e.2)) := by
  have hordered : Keyed.Ordered (es.map fun e => (e.1, putText 1 e.1 ++ e.2)) := (Keyed.ordered_map _).2 hes
  have hput : putEntries number es =
      (Keyed.ofList (es.map fun e => (e.1, putText 1 e.1 ++ e.2))).map fun e => (number, .message e.2) := rfl
  rw [hput, hordered.ofList_eq, List.map_map]
  rfl

/-- Entries that are in order of their keys are found as they were put. -/
theorem entries_putEntries {es : List (String × Fields)} (hes : Keyed.Ordered es)
    (hkey : ∀ e ∈ es, e.2.get? 1 = none) (number : Nat) :
    (putEntries number es).entries number = es.map fun e => (e.1, putText 1 e.1 ++ e.2) := by
  have hput : putEntries number es = putMessages number (es.map fun e => putText 1 e.1 ++ e.2) := by
    rw [putEntries_eq hes, putMessages, List.map_map]
    rfl
  rw [hput, entries, messages_putMessages, List.map_map]
  refine List.map_congr_left fun e he => ?_
  simp [putText, hkey e he]

end Values

end Fields

theorem SlotsAdmit.last {slot : Slot} {part : Fields} (h : slot.Admits part) : SlotsAdmit [slot] part := by
  have hslots : SlotsAdmit [slot] (part ++ []) := .cons h .nil
  rwa [List.append_nil] at hslots

theorem SlotsAdmit.append {slots slots' : List Slot} {fields more : Fields} (hmore : SlotsAdmit slots' more) :
    SlotsAdmit slots fields → SlotsAdmit (slots ++ slots') (fields ++ more)
  | .nil => hmore
  | .cons hpart hrest => by
    rw [List.append_assoc]
    exact .cons hpart (append hmore hrest)

theorem Slot.Admits.blobs (bs : List Bytes) (number : Nat) :
    Slot.Admits (.repeated number .bytes) (Fields.putBlobs number bs) := by
  have hvs : ∀ v ∈ bs.map Value.bytes, Kind.Admits .bytes v := List.forall_mem_map.2 fun b _ => .bytes b
  have hslot : Slot.Admits (.repeated number .bytes) _ := .repeated hvs
  rwa [List.map_map] at hslot

section Entries

variable {α : Type} {m : List (String × α)} (hm : Keyed.Ordered m) (toValue : α → Value)
include hm

/-- Values under texts are entries of a keyed field. -/
theorem Slot.Admits.entries {kind : Kind} (hv : ∀ e ∈ m, Kind.Admits kind (toValue e.2)) (number : Nat) :
    Slot.Admits (.keyed number kind)
      (Fields.putEntries number (m.map fun e => (e.1, Fields.put 2 (toValue e.2)))) := by
  have hentries : Keyed.Ordered (m.map fun e => (e.1, toValue e.2)) := (Keyed.ordered_map _).2 hm
  have hslot : Slot.Admits (.keyed number kind) _ := .keyed hentries (List.forall_mem_map.2 hv)
  rw [List.map_map] at hslot
  rw [Fields.putEntries_eq ((Keyed.ordered_map _).2 hm), List.map_map]
  exact hslot

/-- A value under texts is read back from its entries if each value in it is. -/
theorem entries_restored (read : Fields → α)
    (hread : ∀ e ∈ m, read (Fields.putText 1 e.1 ++ Fields.put 2 (toValue e.2)) = e.2) (number : Nat) :
    ((Fields.putEntries number (m.map fun e => (e.1, Fields.put 2 (toValue e.2)))).entries number).map
      (fun e => (e.1, read e.2)) = m := by
  have hentries : Keyed.Ordered (m.map fun e => (e.1, Fields.put 2 (toValue e.2))) :=
    (Keyed.ordered_map _).2 hm
  have hkey : ∀ e ∈ m.map fun e => (e.1, Fields.put 2 (toValue e.2)), e.2.get? 1 = none := by
    rw [List.forall_mem_map]
    exact fun e _ => Fields.get?_put_of_ne (by decide)
  rw [Fields.entries_putEntries hentries hkey, List.map_map, List.map_map]
  refine (List.map_congr_left fun e he => ?_).trans (List.map_id m)
  exact Prod.ext rfl (hread e he)

end Entries

structure Faithful {α : Type} [Codec α] (a : α) : Prop where
  admits : (Codec.type α).Admits (Codec.toFields a)
  restored : Codec.ofFields (Codec.toFields a) = a

section Codec

variable {α : Type} [Codec α]

theorem Faithful.numbered {a : α} (h : Faithful a) : Value.FieldsNumbered (Codec.toFields a) :=
  SlotsAdmit.numbered h.admits (Codec.type α).isFieldNumber

theorem Slot.Admits.message? {o : Option α} (h : ∀ a ∈ o, Faithful a) (number : Nat) :
    Slot.Admits (.optional number (.message (Codec.type α))) (Fields.putMessage? number (o.map Codec.toFields)) := by
  cases o with
  | none => exact .unset number _
  | some a => exact .set (.message (h a rfl).admits)

theorem Slot.Admits.choice? {choices : List (Nat × Kind)} {number : Nat} {o : Option α}
    (hchoice : (number, .message (Codec.type α)) ∈ choices) (h : ∀ a ∈ o, Faithful a) :
    Slot.Admits (.oneOf choices) (Fields.putMessage? number (o.map Codec.toFields)) := by
  cases o with
  | none => exact .unchosen choices
  | some a => exact .chosen hchoice (.message (h a rfl).admits)

theorem Slot.Admits.messages {l : List α} (h : ∀ a ∈ l, Faithful a) (number : Nat) :
    Slot.Admits (.repeated number (.message (Codec.type α))) (Fields.putMessages number (l.map Codec.toFields)) := by
  have hvs : ∀ v ∈ l.map fun a => Value.message (Codec.toFields a), Kind.Admits (.message (Codec.type α)) v := by
    rw [List.forall_mem_map]
    exact fun a ha => .message (h a ha).admits
  have hslot : Slot.Admits (.repeated number _) _ := .repeated hvs
  rw [List.map_map] at hslot
  rw [Fields.putMessages, List.map_map]
  exact hslot

theorem option_restored {o : Option α} (h : ∀ a ∈ o, Faithful a) :
    o.map (Codec.ofFields ∘ Codec.toFields) = o := by
  cases o with
  | none => rfl
  | some a => simp [(h a rfl).restored]

theorem list_restored {l : List α} (h : ∀ a ∈ l, Faithful a) : l.map (Codec.ofFields ∘ Codec.toFields) = l :=
  calc
    l.map (Codec.ofFields ∘ Codec.toFields) = l.map id := List.map_congr_left fun a ha => (h a ha).restored
    _ = l := List.map_id l

/-- A value is restored exactly if it does not seem nested too deep, and refused otherwise. -/
theorem Faithful.decode_encode {a : α} (h : Faithful a) (hlen : (encode a).length < UInt64.size) :
    decode (encode a) =
      if Value.apparentOfFields (Codec.toFields a) ≤ maxNesting then .ok a else .error (.tooDeep maxNesting) := by
  rw [decode, encode, Fields.decode_encode h.admits hlen]
  split
  · rw [Except.map, h.restored]
  · rfl

end Codec

end Fabric.Wire

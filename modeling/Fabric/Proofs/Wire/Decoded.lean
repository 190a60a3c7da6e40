import Fabric.Proofs.Wire.RoundTrip

/-!
What is decoded is a message of its type, whatever the bytes were: unknown fields are gone, and defaults, the
order of the fields and that of entries are as they are written. So what is decoded once is a message that is
written and decoded to itself.
-/
namespace Fabric.Wire

theorem SlotsAdmit.empty {slots : List Slot} (h : ∀ slot ∈ slots, slot.Admits []) : SlotsAdmit slots [] := by
  induction slots with
  | nil => exact .nil
  | cons slot slots ih =>
    rw [List.forall_mem_cons] at h
    exact .cons h.1 (ih h.2)

def Kind.isScalar : Kind → Bool
  | .message _ => false
  | _ => true

/-- Each kind but that of messages has a default. -/
theorem Kind.exists_default {kind : Kind} (h : kind.isScalar = true) :
    ∃ v, Kind.Admits kind v ∧ v.isDefault = true := by
  cases kind with
  | bool => exact ⟨_, .bool false, rfl⟩
  | int32 => exact ⟨_, .int32 0, rfl⟩
  | int64 => exact ⟨_, .int64 0, rfl⟩
  | uint64 => exact ⟨_, .uint64 0, rfl⟩
  | text => exact ⟨_, .text "", rfl⟩
  | bytes => exact ⟨_, .bytes [], rfl⟩
  | message t => cases h

def Slot.isScalar : Slot → Bool
  | .plain _ kind => kind.isScalar
  | _ => true

theorem Slot.Admits.empty {slot : Slot} (h : slot.isScalar = true) : slot.Admits [] := by
  cases slot with
  | plain number kind =>
    obtain ⟨v, hv, hdefault⟩ := Kind.exists_default h
    have hslot : Slot.Admits (.plain number kind) (Fields.put number v) := .plain hv
    simpa [Fields.put, hdefault] using hslot
  | optional number kind => exact .unset number kind
  | repeated number kind =>
    have hslot : Slot.Admits (.repeated number kind) (List.map _ []) := .repeated (List.forall_mem_nil _)
    exact hslot
  | keyed number kind =>
    have hslot : Slot.Admits (.keyed number kind) (List.map _ []) :=
      .keyed .nil (List.forall_mem_nil _)
    exact hslot
  | oneOf choices => exact .unchosen choices

/-- A message of any type may be empty. -/
theorem MessageType.admits_nil (t : MessageType) : t.Admits [] := by
  have hscalar : ∀ slot ∈ t.slots, slot.isScalar = true := by
    cases t <;> decide
  exact .empty fun slot hslot => .empty (hscalar slot hslot)

theorem Kind.exists_isDefault (kind : Kind) : ∃ v, Kind.Admits kind v ∧ v.isDefault = true := by
  cases kind with
  | message t => exact ⟨_, .message t.admits_nil, rfl⟩
  | _ => exact Kind.exists_default rfl

theorem Kind.admits_of_scalar? {kind : Kind} {p : Payload} {v : Value} (h : kind.scalar? p = some v) :
    Kind.Admits kind v := by
  cases kind <;> cases p <;> simp only [Kind.scalar?, Option.some.injEq, Option.map_eq_some_iff, reduceCtorEq] at h
  case bool.varint n => exact h ▸ .bool _
  case int32.varint n => exact h ▸ .int32 _
  case int64.varint n =>
    have hword : Value.ofInt64 (UInt64.ofNat n).toInt64 = v := h
    exact hword ▸ .int64 _
  case uint64.varint n => exact h ▸ .uint64 _
  case text.block body =>
    obtain ⟨s, -, rfl⟩ := h
    exact .text s
  case bytes.block body => exact h ▸ .bytes body

def Typed (read : MessageReader) : Prop := ∀ t rs fields, read t rs = some fields → t.Admits fields

section Reading

variable {read : MessageReader} (hread : Typed read) {kind : Kind} {rs : List Record} {number : Nat}
include hread

theorem readValue_admits {ps : List Payload} {v : Value} (h : readValue read kind ps = some v) :
    Kind.Admits kind v := by
  cases kind with
  | message t =>
    simp only [readValue, Option.bind_eq_bind, Option.bind_eq_some_iff, Option.pure_def,
      Option.some.injEq] at h
    obtain ⟨parts, -, fields, hfields, rfl⟩ := h
    exact .message (hread t _ fields hfields)
  | _ =>
    simp only [readValue, Option.bind_eq_bind, Option.bind_eq_some_iff] at h
    obtain ⟨values, hvalues, hlast⟩ := h
    obtain ⟨p, -, hp⟩ := exists_mem_of_mapM hvalues (List.mem_of_getLast? hlast)
    exact Kind.admits_of_scalar? hp

/-- A plain field that is not there is one that holds the default. -/
theorem readPlain_admits {fields : Fields} (h : readPlain read rs number kind = some fields) :
    ∃ v, Kind.Admits kind v ∧ fields = Fields.put number v := by
  rw [readPlain] at h
  split at h
  · obtain ⟨v, hv, hdefault⟩ := kind.exists_isDefault
    have hfields : fields = [] := by simpa using h.symm
    exact ⟨v, hv, by simp [Fields.put, hdefault, hfields]⟩
  · obtain ⟨v, hv, rfl⟩ := Option.map_eq_some_iff.1 h
    exact ⟨v, readValue_admits hread hv, rfl⟩

theorem readEntry_admits {p : Payload} {e : String × Fields} (h : readEntry read kind p = some e) :
    ∃ v, Kind.Admits kind v ∧ e.2 = Fields.put 1 (.text e.1) ++ Fields.put 2 v := by
  simp only [readEntry, Option.bind_eq_bind, Option.bind_eq_some_iff, Option.pure_def,
    Option.some.injEq] at h
  obtain ⟨rs, -, key, hkey, value, hvalue, rfl⟩ := h
  obtain ⟨w, hw, rfl⟩ := readPlain_admits hread hkey
  obtain ⟨v, hv, rfl⟩ := readPlain_admits hread hvalue
  cases hw with
  | text s => exact ⟨v, hv, by simp only [entryKey_put]⟩

/-- A slot is read as it may be held, from any records. -/
theorem readSlot_admits {slot : Slot} {part : Fields} (h : readSlot read rs slot = some part) :
    slot.Admits part := by
  cases slot with
  | plain number kind =>
    obtain ⟨v, hv, rfl⟩ := readPlain_admits hread h
    exact .plain hv
  | optional number kind =>
    rw [readSlot] at h
    split at h
    · have hpart : part = [] := by simpa using h.symm
      exact hpart ▸ .unset number kind
    · obtain ⟨v, hv, rfl⟩ := Option.map_eq_some_iff.1 h
      exact .set (readValue_admits hread hv)
  | repeated number kind =>
    have hpart : ∀ f ∈ part, ∃ v, Kind.Admits kind v ∧ (number, v) = f := by
      intro f hf
      obtain ⟨p, -, hp⟩ := exists_mem_of_mapM h hf
      obtain ⟨v, hv, rfl⟩ := Option.map_eq_some_iff.1 hp
      exact ⟨v, readValue_admits hread hv, rfl⟩
    obtain ⟨vs, hvs, rfl⟩ := exists_map_eq hpart
    exact .repeated hvs
  | keyed number kind =>
    simp only [readSlot, Option.bind_eq_bind, Option.bind_eq_some_iff, Option.pure_def,
      Option.some.injEq] at h
    obtain ⟨es, hes, rfl⟩ := h
    -- the entries that remain when keys are given twice are still entries that were read
    have hentries : ∀ e ∈ Keyed.ofList es, ∃ entry : String × Value, Kind.Admits kind entry.2 ∧
        (entry.1, Fields.put 1 (.text entry.1) ++ Fields.put 2 entry.2) = e := by
      intro e he
      obtain ⟨p, -, hp⟩ := exists_mem_of_mapM hes (Keyed.mem_of_mem_ofList he)
      obtain ⟨v, hv, hfields⟩ := readEntry_admits hread hp
      exact ⟨(e.1, v), hv, Prod.ext rfl hfields.symm⟩
    obtain ⟨entries, hadmits, hmap⟩ := exists_map_eq hentries
    have hordered := Keyed.ordered_ofList es
    rw [← hmap, Keyed.ordered_map _] at hordered
    rw [← hmap, List.map_map]
    exact .keyed hordered hadmits
  | oneOf choices =>
    simp only [readSlot, Option.bind_eq_bind, Option.bind_eq_some_iff, Option.pure_def,
      Option.some.injEq] at h
    obtain ⟨values, hvalues, rfl⟩ := h
    -- the last choice that was read is the one that is set
    cases hlast : values.getLast? with
    | none => exact .unchosen choices
    | some f =>
      obtain ⟨run, -, hrun⟩ := exists_mem_of_mapM hvalues (List.mem_of_getLast? hlast)
      simp only [readChoice, Option.bind_eq_bind, Option.bind_eq_some_iff, Option.pure_def,
        Option.some.injEq] at hrun
      obtain ⟨⟨number, kind⟩, hfind, v, hv, rfl⟩ := hrun
      have hnumber : number = run.1 := by simpa using List.find?_some hfind
      exact .chosen (hnumber ▸ List.mem_of_find?_eq_some hfind) (readValue_admits hread hv)

theorem readSlots_admits {slots : List Slot} {fields : Fields} (h : readSlots read slots rs = some fields) :
    SlotsAdmit slots fields := by
  simp only [readSlots, Option.bind_eq_bind, Option.bind_eq_some_iff, Option.pure_def, Option.some.injEq] at h
  obtain ⟨parts, hparts, rfl⟩ := h
  induction slots generalizing parts with
  | nil =>
    have hnil : parts = [] := by simpa using hparts.symm
    exact hnil ▸ .nil
  | cons slot slots ih =>
    obtain ⟨part, rest, hpart, hrest, rfl⟩ := mapM_cons_eq_some.1 hparts
    exact .cons (readSlot_admits hread hpart) (ih rest hrest)

end Reading

theorem typed_readMessage (depth : Nat) : Typed (readMessage depth) := by
  induction depth with
  | zero => exact fun t rs fields h => by simp [readMessage] at h
  | succ depth ih => exact fun t rs fields h => readSlots_admits ih h

theorem Fields.admits_of_decode? {t : MessageType} {b : Bytes} {m : Fields} (h : Fields.decode? t b = some m) :
    t.Admits m := by
  obtain ⟨rs, -, hm⟩ := Option.bind_eq_some_iff.1 h
  exact typed_readMessage _ t rs m hm

/-- The messages of a type are those that some bytes encode. -/
theorem MessageType.admits_iff {t : MessageType} {m : Fields} (hlen : m.encode.length < UInt64.size) :
    t.Admits m ↔ ∃ b, Fields.decode? t b = some m :=
  ⟨fun h => ⟨m.encode, Fields.decode?_encode h hlen⟩, fun ⟨_, h⟩ => Fields.admits_of_decode? h⟩

end Fabric.Wire

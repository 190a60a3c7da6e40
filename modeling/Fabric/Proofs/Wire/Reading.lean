import Fabric.Proofs.Traverse
import Fabric.Proofs.Wire.Scanning
import Fabric.Wire.Message

namespace Fabric.Wire

def Extends (read read' : MessageReader) : Prop := ∀ t rs m, read t rs = some m → read' t rs = some m

section Depth

variable {read read' : MessageReader} (he : Extends read read')
include he

theorem readValue_mono {kind : Kind} {ps : List Payload} {v : Value}
    (h : readValue read kind ps = some v) : readValue read' kind ps = some v := by
  cases kind with
  | message t =>
    simp only [readValue, Option.bind_eq_bind, Option.bind_eq_some_iff, Option.pure_def,
      Option.some.injEq] at h ⊢
    obtain ⟨parts, hparts, fields, hfields, rfl⟩ := h
    exact ⟨parts, hparts, fields, he t _ fields hfields, rfl⟩
  | _ => exact h

theorem readPlain_mono {rs : List Record} {number : Nat} {kind : Kind} {fields : Fields}
    (h : readPlain read rs number kind = some fields) : readPlain read' rs number kind = some fields := by
  rw [readPlain] at h ⊢
  split at h
  · exact h
  · obtain ⟨v, hv, rfl⟩ := Option.map_eq_some_iff.1 h
    rw [readValue_mono he hv]
    rfl

theorem readEntry_mono {kind : Kind} {p : Payload} {e : String × Fields}
    (h : readEntry read kind p = some e) : readEntry read' kind p = some e := by
  simp only [readEntry, Option.bind_eq_bind, Option.bind_eq_some_iff, Option.pure_def,
    Option.some.injEq] at h ⊢
  obtain ⟨rs, hrs, key, hkey, value, hvalue, rfl⟩ := h
  exact ⟨rs, hrs, key, readPlain_mono he hkey, value, readPlain_mono he hvalue, rfl⟩

theorem readChoice_mono {choices : List (Nat × Kind)} {run : Nat × List Payload} {f : Nat × Value}
    (h : readChoice read choices run = some f) : readChoice read' choices run = some f := by
  simp only [readChoice, Option.bind_eq_bind, Option.bind_eq_some_iff, Option.pure_def,
    Option.some.injEq] at h ⊢
  obtain ⟨choice, hfind, v, hv, rfl⟩ := h
  exact ⟨choice, hfind, v, readValue_mono he hv, rfl⟩

/-- A reader that reads more messages reads a slot to the same fields. -/
theorem readSlot_mono {rs : List Record} {slot : Slot} {fields : Fields}
    (h : readSlot read rs slot = some fields) : readSlot read' rs slot = some fields := by
  cases slot with
  | plain number kind => exact readPlain_mono he h
  | optional number kind =>
    simp only [readSlot] at h ⊢
    split at h
    · exact h
    · obtain ⟨v, hv, rfl⟩ := Option.map_eq_some_iff.1 h
      rw [readValue_mono he hv]
      rfl
  | repeated number kind =>
    refine mapM_mono (fun p _ f hf => ?_) h
    obtain ⟨v, hv, rfl⟩ := Option.map_eq_some_iff.1 hf
    rw [readValue_mono he hv]
    rfl
  | keyed number kind =>
    simp only [readSlot, Option.bind_eq_bind, Option.bind_eq_some_iff] at h ⊢
    obtain ⟨entries, hentries, hf⟩ := h
    exact ⟨entries, mapM_mono (fun p _ e => readEntry_mono he) hentries, hf⟩
  | oneOf choices =>
    simp only [readSlot, Option.bind_eq_bind, Option.bind_eq_some_iff] at h ⊢
    obtain ⟨values, hvalues, hf⟩ := h
    exact ⟨values, mapM_mono (fun run _ f => readChoice_mono he) hvalues, hf⟩

theorem readSlots_mono {slots : List Slot} {rs : List Record} {fields : Fields}
    (h : readSlots read slots rs = some fields) : readSlots read' slots rs = some fields := by
  simp only [readSlots, Option.bind_eq_bind, Option.bind_eq_some_iff] at h ⊢
  obtain ⟨parts, hparts, hf⟩ := h
  exact ⟨parts, mapM_mono (fun slot _ f => readSlot_mono he) hparts, hf⟩

end Depth

theorem extends_succ (depth : Nat) : Extends (readMessage depth) (readMessage (depth + 1)) := by
  induction depth with
  | zero => exact fun t rs m h => by simp [readMessage] at h
  | succ depth ih => exact fun t rs m h => readSlots_mono ih h

/-- A message that is read at one depth is read to the same fields at any greater depth. -/
theorem readMessage_mono {depth depth' : Nat} (hle : depth ≤ depth') :
    Extends (readMessage depth) (readMessage depth') := by
  induction hle with
  | refl => exact fun t rs m h => h
  | step _ ih => exact fun t rs m h => extends_succ _ t rs m (ih t rs m h)

def Slot.numbers : Slot → List Nat
  | .plain number _ => [number]
  | .optional number _ => [number]
  | .repeated number _ => [number]
  | .keyed number _ => [number]
  | .oneOf choices => choices.map (·.1)

/-- Without records no slot holds anything. -/
theorem readSlot_nil (read : MessageReader) (slot : Slot) : readSlot read [] slot = some [] := by
  cases slot <;> rfl

theorem readSlots_nil (read : MessageReader) (slots : List Slot) : readSlots read slots [] = some [] := by
  have hmap : slots.mapM (readSlot read []) = some (slots.map fun _ => []) := by
    induction slots with
    | nil => rfl
    | cons slot slots ih => simp [List.mapM_cons, readSlot_nil, ih]
  simp [readSlots, hmap]

theorem Fields.decode?_nil (t : MessageType) : Fields.decode? t [] = some [] := by
  simp only [Fields.decode?, Record.decodeAll_nil]
  exact readSlots_nil (readMessage 0) t.slots

theorem payloads_cons_of_ne {number : Nat} {r : Record} {rs : List Record} (h : r.number ≠ number) :
    payloads number (r :: rs) = payloads number rs := by
  simp [payloads, h]

/-- A record whose number is not one of the slot's is passed over. -/
theorem readSlot_cons_of_notMem {read : MessageReader} {slot : Slot} {r : Record} {rs : List Record}
    (h : r.number ∉ slot.numbers) : readSlot read (r :: rs) slot = readSlot read rs slot := by
  cases slot with
  | oneOf choices =>
    have hany : (choices.any fun c => c.1 = r.number) = false := by
      simp only [List.any_eq_false, decide_eq_true_eq]
      exact fun c hc hn => h (List.mem_map.2 ⟨c, hc, hn⟩)
    simp [readSlot, hany]
  | plain number kind =>
    have hne : r.number ≠ number := by simpa [Slot.numbers] using h
    simp [readSlot, readPlain, payloads_cons_of_ne hne]
  | _ number kind =>
    have hne : r.number ≠ number := by simpa [Slot.numbers] using h
    simp [readSlot, payloads_cons_of_ne hne]

theorem readSlots_cons_of_notMem {read : MessageReader} {slots : List Slot} {r : Record} {rs : List Record}
    (h : ∀ slot ∈ slots, r.number ∉ slot.numbers) :
    readSlots read slots (r :: rs) = readSlots read slots rs := by
  have hmap : slots.mapM (readSlot read (r :: rs)) = slots.mapM (readSlot read rs) := by
    induction slots with
    | nil => rfl
    | cons slot slots ih =>
      rw [List.mapM_cons, List.mapM_cons, readSlot_cons_of_notMem (h slot (List.mem_cons_self ..)),
        ih fun s hs => h s (List.mem_cons_of_mem _ hs)]
  rw [readSlots, readSlots, hmap]

end Fabric.Wire

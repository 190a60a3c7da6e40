import Fabric.Proofs.Traverse
import Fabric.Proofs.Wire.BlockNesting
import Fabric.Proofs.Wire.Scanning
import Fabric.Wire.Message

/-!
How deeply a decoded message is nested. A bound on levels, which falls by one wherever a decoder goes
from a block to a message inside it, bounds the message; the nesting of blocks is such a bound if the
measure sees every level as the decoder does, and so is the nesting of the message types.
-/
namespace Fabric.Wire

namespace Slot

def inner : Slot → List (Nat × List Slot)
  | .plain number (.message t) => [(number, t.slots)]
  | .optional number (.message t) => [(number, t.slots)]
  | .repeated number (.message t) => [(number, t.slots)]
  | .keyed number kind => [(number, entrySlots kind)]
  | .oneOf choices => choices.filterMap fun
    | (number, .message t) => some (number, t.slots)
    | _ => none
  | _ => []

def keyedNumbers (slots : List Slot) : List Nat :=
  slots.filterMap fun
    | .keyed number _ => some number
    | _ => none

theorem mem_inner_oneOf {number : Nat} {t : MessageType} {choices : List (Nat × Kind)}
    (h : (number, .message t) ∈ choices) : (number, t.slots) ∈ (oneOf choices).inner :=
  List.mem_filterMap.2 ⟨_, h, rfl⟩

end Slot

theorem mem_payloads {number : Nat} {rs : List Record} {p : Payload} :
    p ∈ payloads number rs ↔ ⟨number, p⟩ ∈ rs := by
  simp only [payloads, List.mem_map, List.mem_filter, decide_eq_true_eq]
  constructor
  · intro h
    obtain ⟨⟨_, _⟩, ⟨hr, rfl⟩, rfl⟩ := h
    exact hr
  · exact fun h => ⟨_, ⟨h, rfl⟩, rfl⟩

/-- A run is not empty, and holds payloads of records. -/
theorem mem_runs {rs : List Record} {run : Nat × List Payload} (h : run ∈ runs rs) :
    run.2 ≠ [] ∧ ∀ p ∈ run.2, ⟨run.1, p⟩ ∈ rs := by
  induction rs generalizing run with
  | nil => simp [runs] at h
  | cons r rest ih =>
    have hrest : ∀ q ∈ runs rest, q.2 ≠ [] ∧ ∀ p ∈ q.2, (⟨q.1, p⟩ : Record) ∈ r :: rest :=
      fun q hq => ⟨(ih hq).1, fun p hp => List.mem_cons_of_mem _ ((ih hq).2 p hp)⟩
    rw [runs] at h
    split at h
    · next number ps more hmore =>
      rw [hmore] at hrest
      have hhead := hrest (number, ps) (List.mem_cons_self ..)
      -- the record goes on with the run behind it, or begins one of its own
      split at h
      · next hnum =>
        rcases List.mem_cons.1 h with rfl | h
        · refine ⟨List.cons_ne_nil _ _, ?_⟩
          intro p hp
          rcases List.mem_cons.1 hp with rfl | hp
          · exact hnum ▸ List.mem_cons_self ..
          · exact hhead.2 p hp
        · exact hrest run (List.mem_cons_of_mem _ h)
      · rcases List.mem_cons.1 h with rfl | h
        · exact ⟨List.cons_ne_nil _ _, by simp⟩
        · exact hrest run h
    · rcases List.mem_singleton.1 h with rfl
      exact ⟨List.cons_ne_nil _ _, by simp⟩

namespace Value

theorem nestingOfFields_le_iff {fields : Fields} {n : Nat} :
    nestingOfFields fields ≤ n ↔ ∀ f ∈ fields, nesting f.2 ≤ n := by
  induction fields with
  | nil => simp [nestingOfFields]
  | cons f rest ih => rw [nestingOfFields, Nat.max_le, ih, List.forall_mem_cons]

theorem nesting_scalar {kind : Kind} {p : Payload} {v : Value} (h : kind.scalar? p = some v) :
    nesting v = 0 := by
  cases kind <;> cases p <;>
    simp only [Kind.scalar?, Option.some.injEq, Option.map_eq_some_iff, reduceCtorEq] at h
  case text.block =>
    obtain ⟨s, -, rfl⟩ := h
    rfl
  all_goals
    subst h
    rfl

end Value

def InnerBound (P : Nat → List Slot → Bytes → Prop) (n : Nat) (slots : List Slot) (rs : List Record) : Prop :=
  ∀ number body, ⟨number, .block body⟩ ∈ rs → ∀ slot ∈ slots, ∀ inner, (number, inner) ∈ slot.inner →
    ∃ k, n = k + 1 ∧ P k inner body

def PayloadBound (P : Nat → List Slot → Bytes → Prop) (n : Nat) (kind : Kind) (ps : List Payload) : Prop :=
  ∀ body, .block body ∈ ps → ∀ t, kind = .message t → ∃ k, n = k + 1 ∧ P k t.slots body

theorem InnerBound.payloadBound {P : Nat → List Slot → Bytes → Prop} {n number : Nat} {slots : List Slot}
    {rs : List Record} {slot : Slot} {kind : Kind} {ps : List Payload} (hb : InnerBound P n slots rs)
    (hslot : slot ∈ slots) (hkind : ∀ t, kind = .message t → (number, t.slots) ∈ slot.inner)
    (hps : ∀ p ∈ ps, ⟨number, p⟩ ∈ rs) : PayloadBound P n kind ps := by
  intro body hbody t ht
  exact hb number body (hps _ hbody) slot hslot t.slots (hkind t ht)

/-- A bound on levels, each with its slots and bytes, that falls with every level a decoder goes down. -/
def Descending (P : Nat → List Slot → Bytes → Prop) : Prop :=
  ∀ n slots b rs, P n slots b → Record.decodeAll (Slot.keyedNumbers slots) b = some rs → InnerBound P n slots rs

section Bound

variable {P : Nat → List Slot → Bytes → Prop}

def KeepsBound (P : Nat → List Slot → Bytes → Prop) (read : MessageReader) : Prop :=
  ∀ t rs m n, InnerBound P n t.slots rs → read t rs = some m → Value.nestingOfFields m ≤ n

variable {read : MessageReader} (hP : Descending P) (hread : KeepsBound P read) {n : Nat}
include hP hread

/-- The value of a field is nested one deeper than the records in its payloads. -/
theorem nesting_readValue {kind : Kind} {ps : List Payload} {v : Value} (hne : ps ≠ [])
    (hp : PayloadBound P n kind ps) (h : readValue read kind ps = some v) : Value.nesting v ≤ n := by
  cases kind with
  | message t =>
    simp only [readValue, Option.bind_eq_bind, Option.bind_eq_some_iff, Option.pure_def,
      Option.some.injEq] at h
    obtain ⟨parts, hparts, fields, hfields, rfl⟩ := h
    have hinner : ∀ p ∈ ps, ∀ rs, Kind.inner? t.keyedNumbers p = some rs →
        ∃ k, n = k + 1 ∧ InnerBound P k t.slots rs := by
      intro p hmem rs hrs
      cases p with
      | block body =>
        obtain ⟨k, hk, hbody⟩ := hp body hmem t rfl
        exact ⟨k, hk, hP k t.slots body rs hbody hrs⟩
      | _ => simp [Kind.inner?] at hrs
    -- there is a payload, so the bound leaves room for a level
    obtain ⟨k, hk⟩ : ∃ k, n = k + 1 := by
      obtain ⟨p, hpm⟩ := List.exists_mem_of_ne_nil ps hne
      cases hpi : Kind.inner? t.keyedNumbers p with
      | some rs => exact (hinner p hpm rs hpi).imp fun _ h => h.1
      | none =>
        obtain ⟨l, r, rfl⟩ := List.append_of_mem hpm
        simp [hpi] at hparts
    have hflat : InnerBound P k t.slots parts.flatten := by
      intro number body hmem
      obtain ⟨rs, hrs, hmem⟩ := List.mem_flatten.1 hmem
      obtain ⟨p, hpm, hpi⟩ := exists_mem_of_mapM hparts hrs
      obtain ⟨k', hk', hbound⟩ := hinner p hpm rs hpi
      obtain rfl : k' = k := by omega
      exact hbound number body hmem
    have hle : Value.nestingOfFields fields ≤ k := hread t _ fields k hflat hfields
    rw [Value.nesting]
    omega
  | _ =>
    simp only [readValue, Option.bind_eq_bind, Option.bind_eq_some_iff] at h
    obtain ⟨values, hvalues, hlast⟩ := h
    obtain ⟨p, -, hs⟩ := exists_mem_of_mapM hvalues (List.mem_of_getLast? hlast)
    simp [Value.nesting_scalar hs]

theorem nesting_readPlain {kind : Kind} {rs : List Record} {number : Nat} {fields : Fields}
    (hp : PayloadBound P n kind (payloads number rs)) (h : readPlain read rs number kind = some fields) :
    Value.nestingOfFields fields ≤ n := by
  rw [readPlain] at h
  split at h
  · cases h
    exact Nat.zero_le n
  · next ps hps =>
    obtain ⟨v, hv, hf⟩ := Option.map_eq_some_iff.1 h
    have hle : Value.nesting v ≤ n := nesting_readValue hP hread hps hp hv
    rw [Value.nestingOfFields_le_iff, ← hf]
    split
    · simp
    · simpa using hle

/-- An entry is nested within the bound that its block has. -/
theorem nesting_readEntry {kind : Kind} {p : Payload} {e : String × Fields}
    (hp : ∀ body, p = .block body → ∃ k, n = k + 1 ∧ P k (entrySlots kind) body)
    (h : readEntry read kind p = some e) : Value.nesting (.message e.2) ≤ n := by
  simp only [readEntry, Option.bind_eq_bind, Option.bind_eq_some_iff, Option.pure_def,
    Option.some.injEq] at h
  obtain ⟨rs, hrs, key, hkey, value, hvalue, rfl⟩ := h
  cases p with
  | block body =>
    obtain ⟨k, rfl, hbody⟩ := hp body rfl
    have hb : InnerBound P k (entrySlots kind) rs := hP k (entrySlots kind) body rs hbody hrs
    have hk : Value.nestingOfFields key ≤ k :=
      nesting_readPlain hP hread (fun _ _ t ht => by cases ht) hkey
    have hv : Value.nestingOfFields value ≤ k := by
      have hslot : Slot.plain 2 kind ∈ entrySlots kind := by simp [entrySlots]
      refine nesting_readPlain hP hread (hb.payloadBound hslot ?_ fun p => mem_payloads.1) hvalue
      intro t ht
      subst ht
      exact List.mem_singleton_self _
    have hkv : Value.nestingOfFields (key ++ value) ≤ k := by
      rw [Value.nestingOfFields_le_iff] at hk hv ⊢
      exact List.forall_mem_append.2 ⟨hk, hv⟩
    rw [Value.nesting]
    exact Nat.succ_le_succ hkv
  | _ => simp [Kind.inner?] at hrs

/-- A slot keeps to the bound of the records, whichever way it holds its values. -/
theorem nesting_readSlot {slots : List Slot} {rs : List Record} {slot : Slot} {fields : Fields}
    (hb : InnerBound P n slots rs) (hslot : slot ∈ slots) (h : readSlot read rs slot = some fields) :
    Value.nestingOfFields fields ≤ n := by
  cases slot with
  | plain number kind =>
    refine nesting_readPlain hP hread (hb.payloadBound hslot ?_ fun p => mem_payloads.1) h
    intro t ht
    subst ht
    exact List.mem_singleton_self _
  | optional number kind =>
    simp only [readSlot] at h
    split at h
    · cases h
      exact Nat.zero_le n
    · next ps hps =>
      obtain ⟨v, hv, rfl⟩ := Option.map_eq_some_iff.1 h
      rw [Value.nestingOfFields_le_iff, List.forall_mem_singleton]
      refine nesting_readValue hP hread hps (hb.payloadBound hslot ?_ fun p => mem_payloads.1) hv
      intro t ht
      subst ht
      exact List.mem_singleton_self _
  | repeated number kind =>
    rw [Value.nestingOfFields_le_iff]
    intro f hf
    -- every payload is a value by itself
    obtain ⟨p, hp, hf⟩ := exists_mem_of_mapM h hf
    obtain ⟨v, hv, rfl⟩ := Option.map_eq_some_iff.1 hf
    have hone : ∀ p' ∈ [p], (⟨number, p'⟩ : Record) ∈ rs := by
      rw [List.forall_mem_singleton]
      exact mem_payloads.1 hp
    refine nesting_readValue hP hread (List.cons_ne_nil p []) (hb.payloadBound hslot ?_ hone) hv
    intro t ht
    subst ht
    exact List.mem_singleton_self _
  | keyed number kind =>
    simp only [readSlot, Option.bind_eq_bind, Option.bind_eq_some_iff, Option.pure_def,
      Option.some.injEq] at h
    obtain ⟨entries, hentries, rfl⟩ := h
    rw [Value.nestingOfFields_le_iff, List.forall_mem_map]
    intro e he
    obtain ⟨p, hp, hentry⟩ := exists_mem_of_mapM hentries (Keyed.mem_of_mem_ofList he)
    refine nesting_readEntry hP hread ?_ hentry
    intro body hbody
    have hrec : ⟨number, .block body⟩ ∈ rs := mem_payloads.1 (hbody ▸ hp)
    exact hb number body hrec _ hslot _ (List.mem_singleton_self _)
  | oneOf choices =>
    simp only [readSlot, Option.bind_eq_bind, Option.bind_eq_some_iff, Option.pure_def,
      Option.some.injEq] at h
    obtain ⟨values, hvalues, rfl⟩ := h
    rw [Value.nestingOfFields_le_iff]
    intro f hf
    have hlast : values.getLast? = some f := by simpa using hf
    obtain ⟨⟨number, ps⟩, hrun, hchoice⟩ := exists_mem_of_mapM hvalues (List.mem_of_getLast? hlast)
    obtain ⟨hne, hps⟩ := mem_runs hrun
    simp only [readChoice, Option.bind_eq_bind, Option.bind_eq_some_iff, Option.pure_def,
      Option.some.injEq] at hchoice
    obtain ⟨⟨number', kind⟩, hfind, v, hv, rfl⟩ := hchoice
    have hnum : number' = number := by simpa using List.find?_some hfind
    have hmem : (number, kind) ∈ choices := hnum ▸ List.mem_of_find?_eq_some hfind
    have hrecs : ∀ p ∈ ps, (⟨number, p⟩ : Record) ∈ rs := by
      intro p hp
      exact (List.mem_filter.1 (hps p hp)).1
    refine nesting_readValue hP hread hne (hb.payloadBound hslot ?_ hrecs) hv
    intro t ht
    exact Slot.mem_inner_oneOf (ht ▸ hmem)

omit hread

/-- The reader of messages keeps to the bound at any depth, by that of the messages inside. -/
theorem keepsBound_readMessage (depth : Nat) : KeepsBound P (readMessage depth) := by
  induction depth with
  | zero => exact fun t rs m n _ h => by simp [readMessage] at h
  | succ depth ih =>
    intro t rs m n hb h
    simp only [readMessage, readSlots, Option.bind_eq_bind, Option.bind_eq_some_iff, Option.pure_def,
      Option.some.injEq] at h
    obtain ⟨parts, hparts, rfl⟩ := h
    rw [Value.nestingOfFields_le_iff]
    intro f hf
    obtain ⟨fields, hfields, hf⟩ := List.mem_flatten.1 hf
    obtain ⟨slot, hslot, hs⟩ := exists_mem_of_mapM hparts hfields
    exact Value.nestingOfFields_le_iff.1 (nesting_readSlot hP ih hb hslot hs) f hf

/-- A decoded message is nested no deeper than a bound that falls with every level. -/
theorem nesting_decode_le {t : MessageType} {b : Bytes} {m : Fields} (hb : P n t.slots b)
    (h : Fields.decode? t b = some m) : Value.nestingOfFields m ≤ n := by
  simp only [Fields.decode?, Option.bind_eq_bind, Option.bind_eq_some_iff] at h
  obtain ⟨rs, hrs, hm⟩ := h
  exact keepsBound_readMessage hP _ t rs m n (hP n t.slots b rs hb hrs) hm

end Bound

inductive Entered : List Slot → Bytes → List Slot → Bytes → Prop
  | here (slots : List Slot) (b : Bytes) : Entered slots b slots b
  | inside {slots inner slots' : List Slot} {b body b' : Bytes} {rs : List Record} {slot : Slot}
      {number : Nat} (hrs : Record.decodeAll (Slot.keyedNumbers slots) b = some rs)
      (hmem : ⟨number, .block body⟩ ∈ rs) (hslot : slot ∈ slots) (hinner : (number, inner) ∈ slot.inner)
      (h : Entered inner body slots' b') : Entered slots b slots' b'

/-- At this level a decoder takes every record as its key says, and none is a group. -/
def Legible (slots : List Slot) (b : Bytes) : Prop :=
  ∀ rs, Record.decodeAll (Slot.keyedNumbers slots) b = some rs →
    Record.decodeAll [] b = some rs ∧ ∀ r ∈ rs, r.payload ≠ .group

def LegibleThroughout (slots : List Slot) (b : Bytes) : Prop :=
  ∀ slots' b', Entered slots b slots' b' → Legible slots' b'

/-- The nesting of blocks falls with every level, where all levels are legible. -/
theorem descending_blockNesting :
    Descending fun n slots b => LegibleThroughout slots b ∧ blockNesting b ≤ n := by
  intro n slots b rs h hrs number body hmem slot hslot inner hinner
  obtain ⟨hl, hle⟩ := h
  obtain ⟨hown, hgroup⟩ := hl slots b (.here slots b) rs hrs
  have hb : innerBlocks b = Record.bodies rs := by
    simp [innerBlocks, blocks_of_decodeAll hown hgroup]
  have hin : body ∈ innerBlocks b := by
    rw [hb, Record.bodies, List.mem_filterMap]
    exact ⟨_, hmem, rfl⟩
  have hlt : blockNesting body + 1 ≤ blockNesting b := blockNesting_lt hin
  have hrest : LegibleThroughout inner body := by
    intro slots' b' he
    exact hl slots' b' (.inside hrs hmem hslot hinner he)
  exact ⟨n - 1, by omega, hrest, by omega⟩

def schemaWithin : Nat → List Slot → Bool
  | 0, slots => slots.all fun slot => slot.inner.isEmpty
  | n + 1, slots => slots.all fun slot => slot.inner.all fun p => schemaWithin n p.2

theorem descending_schemaWithin : Descending fun n slots _ => schemaWithin n slots = true := by
  intro n slots b rs h hrs number body hmem slot hslot inner hinner
  cases n with
  | zero =>
    simp only [schemaWithin, List.all_eq_true] at h
    have hnone : slot.inner = [] := List.isEmpty_iff.1 (h slot hslot)
    rw [hnone] at hinner
    cases hinner
  | succ n =>
    simp only [schemaWithin, List.all_eq_true] at h
    exact ⟨n, rfl, h slot hslot _ hinner⟩

end Fabric.Wire

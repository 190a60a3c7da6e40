import Fabric.Proofs.Wire.Written
import Fabric.Wire.Nesting

namespace Fabric.Wire

namespace WireType

def isPlain : WireType → Bool
  | .startGroup | .endGroup => false
  | _ => true

end WireType

namespace Payload

def take? (t : WireType) (b : Bytes) : Option (Payload × Bytes) :=
  match t with
  | .varint => (Varint.decode b).map fun (n, rest) => (.varint n, rest)
  | .fixed64 => (splitAt? 8 b).map fun (_, rest) => (.fixed64, rest)
  | .fixed32 => (splitAt? 4 b).map fun (_, rest) => (.fixed32, rest)
  | .block => (readBlock b).map fun (body, rest) => (.block body, rest)
  | .startGroup => none
  | .endGroup => none

def body? : Payload → Option Bytes
  | .block body => some body
  | _ => none

theorem take?_length {t : WireType} {b rest : Bytes} {p : Payload} (h : take? t b = some (p, rest)) :
    rest.length ≤ b.length := by
  cases t <;> simp only [take?, Option.map_eq_some_iff, Prod.mk.injEq, Prod.exists, reduceCtorEq] at h
  case varint =>
    obtain ⟨n, r, hr, -, rfl⟩ := h
    exact Nat.le_of_lt (Varint.decode_length hr)
  case block =>
    obtain ⟨body, r, hr, -, rfl⟩ := h
    have := readBlock_length hr
    omega
  all_goals
    obtain ⟨front, r, hr, -, rfl⟩ := h
    rw [(splitAt?_eq_some hr).1, List.length_append]
    omega

end Payload

theorem Key.decode_nil : Key.decode [] = none := rfl

theorem Key.ne_nil_of_decode {b rest : Bytes} {key : Key} (hk : Key.decode b = some (key, rest)) : b ≠ [] := by
  intro heq
  subst heq
  simp [Key.decode_nil] at hk

namespace Record

variable {always groups : List Nat} {b rest : Bytes} {key : Key}

theorem scan_nil (always : List Nat) : scan always [] [] = some [] := by
  rw [scan]
  rfl

theorem decodeAll_nil (always : List Nat) : decodeAll always [] = some [] := scan_nil always

theorem payloadType_nil (groups : List Nat) (key : Key) : payloadType [] groups key = key.type := by
  simp [payloadType]

theorem scan_of_decode_eq_none (hb : b ≠ []) (hk : Key.decode b = none) : scan always groups b = none := by
  rw [scan, if_neg (by simpa using hb)]
  split
  · rfl
  · next hs => simp [hk] at hs

/-- A record is its payload, read by the wire type that goes for its number, unless a group begins or ends
with it. -/
theorem scan_of_decode (hk : Key.decode b = some (key, rest)) :
    scan always groups b =
      match payloadType always groups key with
      | .startGroup => keep groups ⟨key.number, .group⟩ (scan always (key.number :: groups) rest)
      | .endGroup =>
        match groups with
        | [] => none
        | g :: outer => if g = key.number then scan always outer rest else none
      | t => (Payload.take? t rest).bind fun q => keep groups ⟨key.number, q.1⟩ (scan always groups q.2) := by
  have hne : b ≠ [] := Key.ne_nil_of_decode hk
  rw [scan, if_neg (by simpa using hne)]
  split
  · next hn => simp [hk] at hn
  · next key' rest' hk' =>
    obtain ⟨rfl, rfl⟩ : key' = key ∧ rest' = rest := by simpa using hk'.symm.trans hk
    cases payloadType always groups key'
    case startGroup => rfl
    case endGroup => cases groups <;> rfl
    -- each of the other wire types has a reader of its own, which `take?` names
    all_goals
      simp only [Payload.take?]
      split <;> next hr => simp [hr]

theorem scan_plain (hk : Key.decode b = some (key, rest))
    (ht : (payloadType always groups key).isPlain = true) :
    scan always groups b = (Payload.take? (payloadType always groups key) rest).bind fun q =>
      keep groups ⟨key.number, q.1⟩ (scan always groups q.2) := by
  rw [scan_of_decode hk]
  split
  · next hp => simp [hp, WireType.isPlain] at ht
  · next hp => simp [hp, WireType.isPlain] at ht
  · rfl

/-- A written block is one record, also for a number that is always read as a block. -/
theorem decodeAll_encodeBlock {number : Nat} {body : Bytes} (always : List Nat) (h0 : 0 < number)
    (h : 8 * number + 8 ≤ UInt32.size) (hbody : body.length < UInt64.size) (rest : Bytes) :
    decodeAll always (encodeBlock number body ++ rest) =
      (decodeAll always rest).map (⟨number, .block body⟩ :: ·) := by
  have hk : Key.decode (encodeBlock number body ++ rest) =
      some (⟨number, .block⟩, Varint.encode body.length ++ (body ++ rest)) := by
    rw [encodeBlock, List.append_assoc, List.append_assoc]
    exact Key.decode_encode ⟨number, .block⟩ h0 h _
  have ht : payloadType always [] ⟨number, .block⟩ = .block := by
    simp only [payloadType]
    split <;> rfl
  rw [decodeAll, scan_plain hk (by rw [ht]; rfl), ht]
  simp [Payload.take?, readBlock_append hbody, keep, decodeAll]

def bodies (rs : List Record) : List Bytes := rs.filterMap fun r => r.payload.body?

theorem bodies_cons (r : Record) (rs : List Record) :
    bodies (r :: rs) = r.payload.body?.toList ++ bodies rs := by
  cases h : r.payload.body? <;> simp [bodies, h]

end Record

theorem blocks_nil : blocks [] = some [] := by
  rw [blocks]
  rfl

/-- The measure reads a payload as a decoder does, and keeps it if it is a block. It looks no further where
a group begins. -/
theorem blocks_of_decode {b rest : Bytes} {key : Key} (hk : Key.decode b = some (key, rest)) :
    blocks b =
      if key.type.isPlain then
        (Payload.take? key.type rest).bind fun q => (blocks q.2).map fun bodies => q.1.body?.toList ++ bodies
      else none := by
  have hne : b ≠ [] := Key.ne_nil_of_decode hk
  rw [blocks, if_neg (by simpa using hne)]
  split
  · next hn => simp [hk] at hn
  · next key' rest' hk' =>
    obtain ⟨rfl, rfl⟩ : key' = key ∧ rest' = rest := by simpa using hk'.symm.trans hk
    cases key'.type
    case startGroup => rfl
    case endGroup => rfl
    all_goals
      simp only [Payload.take?, WireType.isPlain, if_true]
      split <;> next hr => simp [hr, Payload.body?]

/-- Where every record is read as its key says and none is a group, the measure sees the very blocks
that a decoder takes. -/
theorem blocks_of_decodeAll {b : Bytes} {rs : List Record} (h : Record.decodeAll [] b = some rs)
    (hg : ∀ r ∈ rs, r.payload ≠ .group) : blocks b = some (Record.bodies rs) := by
  -- a record is read from its first bytes, so the induction is on how many bytes there are
  induction hn : b.length using Nat.strongRecOn generalizing b rs with
  | ind n ih =>
    unfold Record.decodeAll at h ih
    cases hk : Key.decode b with
    | none =>
      cases b with
      | nil =>
        rw [Record.scan_nil, Option.some.injEq] at h
        subst h
        exact blocks_nil
      | cons x xs =>
        rw [Record.scan_of_decode_eq_none (by simp) hk] at h
        cases h
    | some q =>
      obtain ⟨key, rest⟩ := q
      have hlen := Key.decode_length hk
      have htype := Record.payloadType_nil [] key
      by_cases ht : key.type.isPlain = true
      · rw [Record.scan_plain hk (by rw [htype]; exact ht), htype] at h
        obtain ⟨⟨p, rest'⟩, hp, h⟩ := Option.bind_eq_some_iff.1 h
        obtain ⟨more, hm, rfl⟩ := Option.map_eq_some_iff.1 h
        have hle := Payload.take?_length hp
        have hgmore : ∀ r ∈ more, r.payload ≠ .group := by
          intro r hr
          exact hg r (List.mem_cons_of_mem _ hr)
        have hmore : blocks rest' = some (Record.bodies more) := ih rest'.length (by omega) hm hgmore rfl
        rw [blocks_of_decode hk, if_pos ht, hp]
        simp [hmore, Record.bodies_cons]
      · -- a group that begins is a record, and one cannot end that did not begin
        rw [Record.scan_of_decode hk, htype] at h
        cases hty : key.type with
        | startGroup =>
          simp only [hty] at h
          obtain ⟨more, -, rfl⟩ := Option.map_eq_some_iff.1 h
          exact absurd rfl (hg _ (List.mem_cons_self ..))
        | endGroup => simp [hty] at h
        | _ => simp [hty, WireType.isPlain] at ht

end Fabric.Wire

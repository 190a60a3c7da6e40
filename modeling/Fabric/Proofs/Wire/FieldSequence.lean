import Fabric.Proofs.Wire.Scanning

namespace Fabric.Wire

namespace Varint

inductive Septets : Bytes → Nat → Prop
  | last {x : UInt8} (h : x.toNat < 128) : Septets [x] x.toNat
  | more {x : UInt8} {v : Bytes} {n : Nat} (h : 128 ≤ x.toNat) (hv : Septets v n) :
      Septets (x :: v) (x.toNat - 128 + 128 * n)

/-- The bytes are a way of writing the number, which need not be the shortest one. -/
structure Writes (v : Bytes) (n : Nat) : Prop where
  septets : Septets v n
  short : v.length ≤ 10
  fits : n < UInt64.size

variable {k n : Nat} {b rest v : Bytes}

theorem not_septets_nil : ¬ Septets [] n := nofun

/-- Of the bytes allowed, the last one holds one bit only, so the number fits the room that they have. -/
theorem decodeUpTo_eq_some_iff : decodeUpTo (k + 1) b = some (n, rest) ↔
    ∃ v, b = v ++ rest ∧ Septets v n ∧ v.length ≤ k + 1 ∧ n < room 2 k := by
  induction k generalizing b n with
  | zero =>
    constructor
    · intro h
      cases b with
      | nil => cases h
      | cons x tail =>
        simp only [decodeUpTo, Option.map_none, true_and] at h
        split at h
        · next hlast =>
          split at h
          · cases h
          · next hbit =>
            cases h
            exact ⟨[x], rfl, .last hlast, Nat.le_refl _, Nat.lt_of_not_le hbit⟩
        · cases h
    · intro h
      obtain ⟨v, rfl, hseptets, hlen, hn⟩ := h
      cases hseptets with
      | @last x hlast =>
        have hbit : ¬ 2 ≤ x.toNat := Nat.not_le.2 hn
        simp [decodeUpTo, hlast, hbit]
      | @more x v n h hv =>
        cases v with
        | nil => exact absurd hv not_septets_nil
        | cons y v => simp at hlen
  | succ k ih =>
    -- every byte but the last takes seven bits of the room away
    have hroom : room 2 (k + 1) = 128 * room 2 k := rfl
    constructor
    · intro h
      cases b with
      | nil => cases h
      | cons x tail =>
        rw [decodeUpTo] at h
        split at h
        · next hlast =>
          rw [if_neg (by omega)] at h
          cases h
          have hpos : 1 ≤ room 2 k := Nat.le_trans (by decide) (room_mono (Nat.zero_le k))
          exact ⟨[x], rfl, .last hlast, by simp, by omega⟩
        · next hmore =>
          obtain ⟨⟨m, r⟩, hm, hr⟩ := Option.map_eq_some_iff.1 h
          cases hr
          obtain ⟨v, rfl, hseptets, hlen, hlt⟩ := ih.1 hm
          have hx : x.toNat < 256 := x.toNat_lt
          exact ⟨x :: v, rfl, .more (Nat.le_of_not_lt hmore) hseptets, Nat.succ_le_succ hlen, by omega⟩
    · intro h
      obtain ⟨v, rfl, hseptets, hlen, hlt⟩ := h
      cases hseptets with
      | last hlast => simp [decodeUpTo, hlast]
      | @more x v n hmore hv =>
        have hdecode : decodeUpTo (k + 1) (v ++ rest) = some (n, rest) :=
          ih.2 ⟨v, rfl, hv, Nat.le_of_succ_le_succ hlen, by omega⟩
        rw [List.cons_append, decodeUpTo, if_neg (Nat.not_lt.2 hmore), hdecode]
        rfl

theorem decode_eq_some_iff : decode b = some (n, rest) ↔ ∃ v, b = v ++ rest ∧ Writes v n := by
  have hroom : room 2 9 = UInt64.size := rfl
  rw [decode, decodeUpTo_eq_some_iff, hroom]
  constructor
  · intro h
    obtain ⟨v, hb, hseptets, hshort, hfits⟩ := h
    exact ⟨v, hb, hseptets, hshort, hfits⟩
  · intro h
    obtain ⟨v, hb, hv⟩ := h
    exact ⟨v, hb, hv.septets, hv.short, hv.fits⟩

end Varint

theorem WireType.ofCode?_eq_some_iff {code : Nat} {t : WireType} : ofCode? code = some t ↔ t.code = code := by
  constructor
  · intro h
    unfold ofCode? at h
    split at h <;> cases h <;> rfl
  · rintro rfl
    exact ofCode?_code t

structure Key.Writes (v : Bytes) (k : Key) : Prop where
  varint : Varint.Writes v (8 * k.number + k.type.code)
  fits : 8 * k.number + k.type.code < UInt32.size
  numbered : 0 < k.number

/-- A key is read from the front of the bytes in any way of writing it. -/
theorem Key.decode_eq_some_iff {b rest : Bytes} {k : Key} :
    Key.decode b = some (k, rest) ↔ ∃ v, b = v ++ rest ∧ Key.Writes v k := by
  constructor
  · intro h
    unfold decode at h
    split at h
    · cases h
    · next n rest' hn =>
      split at h
      · cases h
      · next hrange =>
        obtain ⟨t, ht, heq⟩ := Option.map_eq_some_iff.1 h
        cases heq
        obtain ⟨v, hb, hv⟩ := Varint.decode_eq_some_iff.1 hn
        obtain ⟨hsize, hnumber⟩ := not_or.1 hrange
        have hcode := WireType.ofCode?_eq_some_iff.1 ht
        have hkey : 8 * (n / 8) + t.code = n := by omega
        refine ⟨v, hb, ?_, ?_, Nat.pos_of_ne_zero hnumber⟩
        · rw [hkey]
          exact hv
        · rw [hkey]
          exact Nat.lt_of_not_le hsize
  · intro h
    obtain ⟨v, hb, hv⟩ := h
    have hlt := WireType.code_lt k.type
    have hpos := hv.numbered
    have hdiv : (8 * k.number + k.type.code) / 8 = k.number := by omega
    have hmod : (8 * k.number + k.type.code) % 8 = k.type.code := by omega
    have hrange : ¬ (UInt32.size ≤ 8 * k.number + k.type.code ∨ k.number = 0) := by
      have hfits := hv.fits
      omega
    rw [decode, Varint.decode_eq_some_iff.2 ⟨v, hb, hv.varint⟩]
    simp only [hdiv, hmod, WireType.ofCode?_code, Option.map_some]
    rw [if_neg hrange]

inductive Payload.Spans : WireType → Bytes → Option Bytes → Prop
  | varint {v : Bytes} {n : Nat} (h : Varint.Writes v n) : Spans .varint v none
  | fixed64 {v : Bytes} (h : v.length = 8) : Spans .fixed64 v none
  | fixed32 {v : Bytes} (h : v.length = 4) : Spans .fixed32 v none
  | block {v body : Bytes} (h : Varint.Writes v body.length) : Spans .block (v ++ body) (some body)

theorem splitAt?_eq_some_iff {n : Nat} {b front rest : Bytes} :
    splitAt? n b = some (front, rest) ↔ b = front ++ rest ∧ front.length = n := by
  refine ⟨splitAt?_eq_some, ?_⟩
  rintro ⟨rfl, rfl⟩
  exact splitAt?_append front rest

theorem readBlock_eq_some_iff {b body rest : Bytes} :
    readBlock b = some (body, rest) ↔ ∃ v, b = v ++ (body ++ rest) ∧ Varint.Writes v body.length := by
  constructor
  · intro h
    unfold readBlock at h
    split at h
    · cases h
    · next hn =>
      obtain ⟨v, rfl, hv⟩ := Varint.decode_eq_some_iff.1 hn
      obtain ⟨rfl, rfl⟩ := splitAt?_eq_some h
      exact ⟨v, rfl, hv⟩
  · intro h
    obtain ⟨v, hb, hv⟩ := h
    rw [readBlock, Varint.decode_eq_some_iff.2 ⟨v, hb, hv⟩]
    exact splitAt?_append body rest

/-- A payload is taken from the front of the bytes in any way of writing one of its wire type. -/
theorem Payload.exists_take?_iff {t : WireType} {b rest : Bytes} {body : Option Bytes} :
    (∃ p, take? t b = some (p, rest) ∧ p.body? = body) ↔ ∃ v, b = v ++ rest ∧ Spans t v body := by
  constructor
  · intro h
    obtain ⟨p, hp, rfl⟩ := h
    -- the two wire types of groups have no payload that is taken
    cases t <;> simp only [take?, Option.map_eq_some_iff, Prod.mk.injEq, Prod.exists, reduceCtorEq] at hp
    case varint =>
      obtain ⟨n, _, hn, rfl, rfl⟩ := hp
      obtain ⟨v, hb, hv⟩ := Varint.decode_eq_some_iff.1 hn
      exact ⟨v, hb, .varint hv⟩
    case block =>
      obtain ⟨body, _, hbody, rfl, rfl⟩ := hp
      obtain ⟨v, hb, hv⟩ := readBlock_eq_some_iff.1 hbody
      exact ⟨v ++ body, by rw [hb, List.append_assoc], .block hv⟩
    case fixed64 =>
      obtain ⟨front, _, hfront, rfl, rfl⟩ := hp
      obtain ⟨hb, hlen⟩ := splitAt?_eq_some hfront
      exact ⟨front, hb, .fixed64 hlen⟩
    case fixed32 =>
      obtain ⟨front, _, hfront, rfl, rfl⟩ := hp
      obtain ⟨hb, hlen⟩ := splitAt?_eq_some hfront
      exact ⟨front, hb, .fixed32 hlen⟩
  · intro h
    obtain ⟨v, rfl, hv⟩ := h
    cases hv with
    | @varint v n h =>
      refine ⟨.varint n, ?_, rfl⟩
      rw [take?, Varint.decode_eq_some_iff.2 ⟨v, rfl, h⟩]
      rfl
    | fixed64 h =>
      refine ⟨.fixed64, ?_, rfl⟩
      rw [take?, splitAt?_eq_some_iff.2 ⟨rfl, h⟩]
      rfl
    | fixed32 h =>
      refine ⟨.fixed32, ?_, rfl⟩
      rw [take?, splitAt?_eq_some_iff.2 ⟨rfl, h⟩]
      rfl
    | @block v body h =>
      refine ⟨.block body, ?_, rfl⟩
      rw [take?, readBlock_eq_some_iff.2 ⟨v, List.append_assoc .., h⟩]
      rfl

/-- Septets have no payload. -/
theorem Payload.Spans.isPlain {t : WireType} {v : Bytes} {body : Option Bytes} (h : Spans t v body) :
    t.isPlain = true := by
  cases h <;> rfl

inductive FieldSequence : Bytes → List Bytes → Prop
  | nil : FieldSequence [] []
  | field {key payload rest : Bytes} {k : Key} {body : Option Bytes} {bodies : List Bytes} (hkey : Key.Writes key k)
      (hpayload : Payload.Spans k.type payload body) (hrest : FieldSequence rest bodies) :
      FieldSequence (key ++ (payload ++ rest)) (body.toList ++ bodies)

theorem FieldSequence.blocks_eq {b : Bytes} {bodies : List Bytes} (h : FieldSequence b bodies) :
    blocks b = some bodies := by
  induction h with
  | nil => exact blocks_nil
  | @field key payload rest k body bodies hkey hpayload _ ih =>
    obtain ⟨p, hp, rfl⟩ := Payload.exists_take?_iff.2 ⟨payload, (rfl : payload ++ rest = _), hpayload⟩
    rw [blocks_of_decode (Key.decode_eq_some_iff.2 ⟨key, rfl, hkey⟩), if_pos hpayload.isPlain, hp]
    simp [ih]

/-- The scan reads all sequences of fields, and nothing else. -/
theorem blocks_eq_some_iff {b : Bytes} {bodies : List Bytes} : blocks b = some bodies ↔ FieldSequence b bodies := by
  refine ⟨?_, FieldSequence.blocks_eq⟩
  intro h
  -- a field is read from the first bytes, so the induction is on how many bytes there are
  induction hn : b.length using Nat.strongRecOn generalizing b bodies with
  | ind n ih =>
    cases hk : Key.decode b with
    | none =>
      cases b with
      | nil =>
        rw [blocks_nil] at h
        cases h
        exact .nil
      | cons x xs =>
        rw [blocks, if_neg (by simp)] at h
        split at h
        · cases h
        · next hs => simp [hk] at hs
    | some q =>
      obtain ⟨k, rest⟩ := q
      have hlen := Key.decode_length hk
      rw [blocks_of_decode hk] at h
      split at h
      · obtain ⟨⟨p, rest'⟩, hp, h⟩ := Option.bind_eq_some_iff.1 h
        obtain ⟨more, hmore, rfl⟩ := Option.map_eq_some_iff.1 h
        have hle := Payload.take?_length hp
        have hrest : FieldSequence rest' more := ih rest'.length (by omega) hmore rfl
        obtain ⟨key, rfl, hkey⟩ := Key.decode_eq_some_iff.1 hk
        obtain ⟨payload, rfl, hpayload⟩ := Payload.exists_take?_iff.1 ⟨p, hp, rfl⟩
        exact .field hkey hpayload hrest
      · cases h

end Fabric.Wire

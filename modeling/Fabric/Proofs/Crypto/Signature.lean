import Fabric.Crypto.Ecdsa
import Fabric.Proofs.Crypto.Der

namespace Fabric.Ecdsa

open P256 (order)

namespace Signature

structure InRange (x : Signature) : Prop where
  r_pos : 1 ≤ x.r
  r_lt : x.r < order
  s_pos : 1 ≤ x.s
  s_lt : x.s < order

def IsDer (x : Signature) (b : Bytes) : Prop :=
  ∃ r s : Bytes, Der.IsInteger x.r r ∧ Der.IsInteger x.s s ∧ r.length + s.length + 4 < 128 ∧
    b = 0x30 :: UInt8.ofNat (r.length + s.length + 4) ::
      (0x02 :: UInt8.ofNat r.length :: r ++ 0x02 :: UInt8.ofNat s.length :: s)

theorem isLow_iff {x : Signature} : x.isLow = true ↔ x.s ≤ (order - 1) / 2 := by
  have hhalf : order / 2 = (order - 1) / 2 := by decide
  rw [isLow, hhalf]
  exact decide_eq_true_iff

theorem lowered_of_isLow {x : Signature} (h : x.isLow = true) : x.lowered = x := by
  rw [lowered, if_pos h]

section Range

variable {x : Signature} (h : x.InRange)
include h

/-- Of the second part and its complement the one in the lower half is taken. -/
theorem InRange.lowered : x.lowered.r = x.r ∧ (x.lowered.s = x.s ∨ x.lowered.s = order - x.s) ∧
    1 ≤ x.lowered.s ∧ x.lowered.s ≤ (order - 1) / 2 := by
  by_cases hlow : x.isLow = true
  · rw [lowered_of_isLow hlow]
    exact ⟨rfl, .inl rfl, h.s_pos, isLow_iff.1 hlow⟩
  · have hlt := h.s_lt
    -- the order is odd, so no number is its own complement
    have hodd : order = 2 * ((order - 1) / 2) + 1 := by decide
    rw [Signature.lowered, if_neg hlow]
    rw [isLow_iff] at hlow
    refine ⟨rfl, .inr rfl, ?_⟩
    show 1 ≤ order - x.s ∧ order - x.s ≤ (order - 1) / 2
    omega

theorem InRange.lowered_lowered : x.lowered.lowered = x.lowered :=
  lowered_of_isLow (isLow_iff.2 h.lowered.2.2.2)

theorem InRange.of_lowered : x.lowered.InRange := by
  obtain ⟨hr, -, hpos, hle⟩ := h.lowered
  have hhalf : (order - 1) / 2 < order := by decide
  constructor
  · rw [hr]
    exact h.r_pos
  · rw [hr]
    exact h.r_lt
  · exact hpos
  · exact Nat.lt_of_le_of_lt hle hhalf

theorem InRange.length_integerContents :
    (Der.integerContents x.r).length ≤ 33 ∧ (Der.integerContents x.s).length ≤ 33 := by
  have horder : order ≤ Bytes.toNat (List.replicate 32 0xff) := by decide
  exact ⟨Der.length_integerContents_le (Nat.le_trans (Nat.le_of_lt h.r_lt) horder),
    Der.length_integerContents_le (Nat.le_trans (Nat.le_of_lt h.s_lt) horder)⟩

theorem InRange.length_encodeInteger : (Der.encodeInteger x.r ++ Der.encodeInteger x.s).length =
    (Der.integerContents x.r).length + (Der.integerContents x.s).length + 4 := by
  obtain ⟨hr, hs⟩ := h.length_integerContents
  rw [List.length_append, Der.length_encodeInteger (by omega), Der.length_encodeInteger (by omega)]
  omega

theorem InRange.toDer_eq : x.toDer = 0x30 ::
    UInt8.ofNat ((Der.integerContents x.r).length + (Der.integerContents x.s).length + 4) ::
      (0x02 :: UInt8.ofNat (Der.integerContents x.r).length :: Der.integerContents x.r ++
        0x02 :: UInt8.ofNat (Der.integerContents x.s).length :: Der.integerContents x.s) := by
  obtain ⟨hr, hs⟩ := h.length_integerContents
  have hlength := h.length_encodeInteger
  rw [toDer, Der.encode_of_short (by omega), hlength, Der.encodeInteger_of_short (n := x.r) (by omega),
    Der.encodeInteger_of_short (n := x.s) (by omega)]
  rfl

/-- What is written is a sequence of two integers, and the only one. -/
theorem InRange.isDer_iff {b : Bytes} : x.IsDer b ↔ b = x.toDer := by
  constructor
  · intro hb
    obtain ⟨r, s, hr, hs, -, rfl⟩ := hb
    rw [h.toDer_eq, ← hr.eq_integerContents, ← hs.eq_integerContents]
  · intro hb
    obtain ⟨hr, hs⟩ := h.length_integerContents
    exact ⟨_, _, Der.isInteger_integerContents _, Der.isInteger_integerContents _, by omega, hb.trans h.toDer_eq⟩

theorem InRange.ofDer?_toDer : ofDer? x.toDer = some x := by
  obtain ⟨hr, hs⟩ := h.length_integerContents
  have hlength : (Der.encodeInteger x.r ++ Der.encodeInteger x.s).length < 128 := by
    have := h.length_encodeInteger
    omega
  have hcontents : Der.readOnly? Der.sequenceTag x.toDer = some (Der.encodeInteger x.r ++ Der.encodeInteger x.s) := by
    have hread := Der.read?_encode hlength (by decide : Der.isTag Der.sequenceTag = true) []
    rw [List.append_nil] at hread
    rw [Der.readOnly?, toDer, hread]
    rfl
  have hlast := Der.readInteger?_encodeInteger (n := x.s) (by omega) []
  rw [List.append_nil] at hlast
  simp [ofDer?, hcontents, Der.readInteger?_encodeInteger (n := x.r) (by omega), hlast]

end Range

end Signature

open Signature (InRange)

theorem inRange_of_signWith? {key : PrivateKey} {secret z : Nat} {x : Signature} (h : signWith? key secret z = some x) :
    x.InRange := by
  have horder : 0 < order := by decide
  simp only [signWith?, Option.bind_eq_bind, Option.bind_eq_some_iff] at h
  obtain ⟨point, -, h⟩ := h
  split at h
  · cases h
  · next hzero =>
    obtain rfl := Option.some.inj h
    rw [not_or] at hzero
    exact ⟨Nat.one_le_iff_ne_zero.2 hzero.1, Nat.mod_lt _ horder, Nat.one_le_iff_ne_zero.2 hzero.2,
      Nat.mod_lt _ horder⟩

/-- The parts of a raw signature are remainders, and not zero. -/
theorem inRange_of_signRaw? {key : PrivateKey} {message : Bytes} {x : Signature} (h : signRaw? key message = some x) :
    x.InRange := by
  simp only [signRaw?, Option.bind_eq_bind, Option.bind_eq_some_iff] at h
  obtain ⟨secret, -, h⟩ := h
  exact inRange_of_signWith? h

/-- Where every key has a raw signature on every message, with both of its parts from 1 to the order, what is signed is
the only encoding of the first part and the lower of the second part and the complement of that; the encoding is read
back, and lowered again it is the same. It is also what comes of the raw signature that the draws lead to. -/
theorem sign_low_strict {raw : PrivateKey → Bytes → Signature} (hrange : ∀ key message, (raw key message).InRange)
    (hraw : ∀ key message x, signRaw? key message = some x → raw key message = x) (key : PrivateKey)
    (message : Bytes) :
    let der : Bytes := signLow (m := Id) raw key message
    (∃ x : Signature, x.r = (raw key message).r ∧
      (x.s = (raw key message).s ∨ x.s = order - (raw key message).s) ∧
      (1 ≤ x.r ∧ x.r < order) ∧ (1 ≤ x.s ∧ x.s ≤ (order - 1) / 2) ∧ (∀ b, x.IsDer b ↔ b = der) ∧
      Signature.ofDer? der = some x ∧ x.lowered = x ∧
      (Signature.ofDer? der).map (fun x => x.lowered.toDer) = some der) ∧
    ∀ x, signRaw? key message = some x → sign? key message = some der := by
  intro der
  have h := hrange key message
  obtain ⟨hr, hs, hlow⟩ := h.lowered
  have hread : Signature.ofDer? der = some (raw key message).lowered := h.of_lowered.ofDer?_toDer
  refine ⟨⟨(raw key message).lowered, hr, hs, ⟨h.of_lowered.r_pos, h.of_lowered.r_lt⟩, hlow, ?_, hread,
    h.lowered_lowered, ?_⟩, ?_⟩
  · intro b
    exact h.of_lowered.isDer_iff
  · rw [hread, Option.map_some, h.lowered_lowered]
    rfl
  · intro x hx
    rw [sign?, signLow, hx, ← hraw key message x hx]
    rfl

/-- A first draw in range is the secret number. -/
theorem Generator.draw?_of_first {g : Generator} {k : Nat} (h : Bytes.toNat (Hmac.mac g.key g.value) = k)
    (hk : 0 < k ∧ k < order) : g.draw? = some k := by
  rw [draw?, repeatM_eq_of_monadTail, repeatM.body, attempt, h, if_pos hk]
  rfl

/-- A raw signature whose second part is in the upper half. -/
theorem sign_low_strict_sample :
    let key : PrivateKey :=
      ⟨0xc9afa9d845ba75166b5c215767b1d6934e50c3db36e89b127b8a622b120f6721, by decide, by decide⟩
    let r := 0xefd48b2aacb6a8fd1140dd9cd45e81d69d2c877b56aaf991c34d0ea84eaf3716
    let s := 0xf7cb1c942d657c41d436c7a1b6e29f65f3e900dbb9aff4064dc4ab2f843acda8
    signRaw? key (Bytes.ofText "sample") = some ⟨r, s⟩ ∧
      ∃ der, sign? key (Bytes.ofText "sample") = some der ∧ Signature.ofDer? der = some ⟨r, order - s⟩ := by
  intro key r s
  let message := Bytes.ofText "sample"
  let secret := 0xa6e3c57dd01abe90086538398355dd4c3b17aa873382b0f24d6129493d8aad60
  have hdraw : (Generator.start (Bytes.ofNat 32 key.scalar ++ Bytes.ofNat 32 (digestNumber message))).draw? =
      some secret :=
    Generator.draw?_of_first (by decide +kernel) (by decide)
  have hsign : signWith? key secret (digestNumber message) = some ⟨r, s⟩ := by decide +kernel
  have hraw : signRaw? key message = some ⟨r, s⟩ := by
    rw [signRaw?, hdraw]
    exact hsign
  -- where no draw leads to a raw signature, any in range will do
  let raw (key : PrivateKey) (message : Bytes) : Signature := (signRaw? key message).getD ⟨1, 1⟩
  have hsame : ∀ key message x, signRaw? key message = some x → raw key message = x := by
    intro key message x hx
    simp only [raw, hx, Option.getD_some]
  have hrange : ∀ key message, (raw key message).InRange := by
    intro key message
    cases hx : signRaw? key message with
    | none =>
      have hone : raw key message = ⟨1, 1⟩ := by simp only [raw, hx, Option.getD_none]
      rw [hone]
      exact ⟨by decide, by decide, by decide, by decide⟩
    | some x =>
      rw [hsame key message x hx]
      exact inRange_of_signRaw? hx
  obtain ⟨⟨x, hr, hs, -, ⟨-, hlow⟩, -, hread, -⟩, hsigned⟩ := sign_low_strict hrange hsame key message
  rw [hsame key message _ hraw] at hr hs
  have hcomplement : x.s = order - s := by
    rcases hs with hs | hs
    · exact absurd (hs ▸ hlow) (by decide)
    · exact hs
  refine ⟨hraw, _, hsigned _ hraw, ?_⟩
  rw [hread, ← hcomplement, ← show x.r = r from hr]

end Fabric.Ecdsa

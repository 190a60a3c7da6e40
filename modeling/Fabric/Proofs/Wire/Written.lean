import Fabric.Wire.Record

namespace Fabric

theorem Bytes.toText?_ofText (s : String) : toText? (ofText s) = some s := by
  have h : (ofText s).toByteArray = s.toByteArray := by
    apply ByteArray.ext
    rw [List.data_toByteArray, ofText]
    simp
  rw [toText?, h, String.fromUTF8?, dif_pos s.isValidUTF8]
  rfl

/-- A number that is extended by its sign is found in its low bits. -/
theorem toInt32_toUInt32_extended (n : Int32) : n.toInt64.toUInt64.toUInt32.toInt32 = n := by
  apply Int32.toBitVec.inj
  have h := congrArg Int32.toBitVec (Int32.toInt32_toInt64 n)
  rw [Int64.toBitVec_toInt32, BitVec.signExtend_eq_setWidth_of_le _ (by decide)] at h
  exact h

end Fabric

namespace Fabric.Wire

namespace Varint

theorem encode_of_lt {n : Nat} (h : n < 128) : encode n = [UInt8.ofNat n] := by
  rw [encode, if_pos h]

theorem encode_of_le {n : Nat} (h : 128 ≤ n) :
    encode n = UInt8.ofNat (n % 128 + 128) :: encode (n / 128) := by
  rw [encode, if_neg (by omega)]

def room (last : Nat) : Nat → Nat
  | 0 => last
  | k + 1 => 128 * room last k

/-- Of the bytes allowed, the last one holds one bit only. -/
theorem decodeUpTo_encode (k n : Nat) (rest : Bytes) (h : n < room 2 k) :
    decodeUpTo (k + 1) (encode n ++ rest) = some (n, rest) := by
  induction k generalizing n with
  | zero =>
    have h2 : n < 2 := h
    have hn : (UInt8.ofNat n).toNat = n := by rw [UInt8.toNat_ofNat']; omega
    rw [encode_of_lt (by omega)]
    simp only [List.cons_append, List.nil_append, decodeUpTo, hn]
    rw [if_pos (by omega), if_neg (by omega)]
  | succ k ih =>
    by_cases hs : n < 128
    · have hn : (UInt8.ofNat n).toNat = n := by rw [UInt8.toNat_ofNat']; omega
      rw [encode_of_lt hs]
      simp only [List.cons_append, List.nil_append, decodeUpTo, hn]
      rw [if_pos hs, if_neg (by omega)]
    · -- the first byte takes seven bits, and the rest is read with one byte less
      have hn : (UInt8.ofNat (n % 128 + 128)).toNat = n % 128 + 128 := by
        rw [UInt8.toNat_ofNat']; omega
      have hd : n / 128 < room 2 k := Nat.div_lt_of_lt_mul h
      rw [encode_of_le (by omega), List.cons_append, decodeUpTo, hn, if_neg (by omega), ih _ hd]
      simp only [Option.map_some, Option.some.injEq, Prod.mk.injEq, and_true]
      omega

theorem decode_encode {n : Nat} (h : n < UInt64.size) (rest : Bytes) :
    decode (encode n ++ rest) = some (n, rest) := by
  have hroom : room 2 9 = UInt64.size := rfl
  exact decodeUpTo_encode 9 n rest (hroom ▸ h)

theorem exists_lt_room (n : Nat) : ∃ k, n < room 2 k := by
  induction n with
  | zero => exact ⟨0, Nat.two_pos⟩
  | succ n ih =>
    obtain ⟨k, hk⟩ := ih
    have hroom : room 2 (k + 1) = 128 * room 2 k := rfl
    exact ⟨k + 1, by omega⟩

theorem room_mono {last k l : Nat} (h : k ≤ l) : room last k ≤ room last l := by
  induction h with
  | refl => exact Nat.le_refl _
  | step _ ih => exact Nat.le_trans ih (Nat.le_mul_of_pos_left _ (by decide))

/-- Where a number ends can be seen, however large it is. -/
theorem encode_append_injective {m n : Nat} {x y : Bytes} (h : encode m ++ x = encode n ++ y) : m = n ∧ x = y := by
  obtain ⟨k, hk⟩ := exists_lt_room m
  obtain ⟨l, hl⟩ := exists_lt_room n
  have hm := decodeUpTo_encode (max k l) m x (Nat.lt_of_lt_of_le hk (room_mono (Nat.le_max_left k l)))
  have hn := decodeUpTo_encode (max k l) n y (Nat.lt_of_lt_of_le hl (room_mono (Nat.le_max_right k l)))
  rw [h] at hm
  exact Prod.mk.inj (Option.some.inj (hm.symm.trans hn))

theorem encode_length_le (k n : Nat) (h : n < room 128 k) : (encode n).length ≤ k + 1 := by
  induction k generalizing n with
  | zero =>
    have hs : n < 128 := h
    rw [encode_of_lt hs]
    exact Nat.le_refl 1
  | succ k ih =>
    by_cases hs : n < 128
    · rw [encode_of_lt hs]
      exact Nat.succ_le_succ (Nat.zero_le _)
    · have hd : n / 128 < room 128 k := Nat.div_lt_of_lt_mul h
      have hrest : (encode (n / 128)).length ≤ k + 1 := ih _ hd
      rw [encode_of_le (by omega), List.length_cons]
      omega

end Varint

namespace WireType

theorem ofCode?_code (t : WireType) : ofCode? t.code = some t := by cases t <;> rfl

theorem code_lt (t : WireType) : t.code < 8 := by cases t <;> decide

end WireType

namespace Key

theorem decode_encode (k : Key) (h0 : 0 < k.number) (h : 8 * k.number + 8 ≤ UInt32.size) (rest : Bytes) :
    decode (encode k ++ rest) = some (k, rest) := by
  have hc := WireType.code_lt k.type
  have hdiv : (8 * k.number + k.type.code) / 8 = k.number := by omega
  have hmod : (8 * k.number + k.type.code) % 8 = k.type.code := by omega
  have hsize : UInt32.size ≤ UInt64.size := by decide
  rw [decode, encode, Varint.decode_encode (by omega)]
  simp only [hdiv, hmod, WireType.ofCode?_code, Option.map_some]
  rw [if_neg (by omega)]

end Key

theorem splitAt?_append (front rest : Bytes) : splitAt? front.length (front ++ rest) = some (front, rest) := by
  simp [splitAt?, List.splitAt_eq]

theorem readBlock_append {body : Bytes} (h : body.length < UInt64.size) (rest : Bytes) :
    readBlock (Varint.encode body.length ++ (body ++ rest)) = some (body, rest) := by
  rw [readBlock, Varint.decode_encode h]
  exact splitAt?_append body rest

end Fabric.Wire

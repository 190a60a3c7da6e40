import Fabric.Bytes
import Fabric.Proofs.Traverse

namespace Fabric

namespace Bytes

def Precedes (b b' : Bytes) : Prop := ∀ rest rest', b ++ rest < b' ++ rest'

theorem Precedes.of_lt {n m : Nat} (h : n < m) (hm : m < 256) (b b' : Bytes) :
    Precedes (UInt8.ofNat n :: b) (UInt8.ofNat m :: b') := by
  intro rest rest'
  refine List.cons_lt_cons_iff.2 (.inl ?_)
  rw [UInt8.lt_iff_toNat_lt, UInt8.toNat_ofNat_of_lt' (Nat.lt_trans h hm), UInt8.toNat_ofNat_of_lt' hm]
  exact h

/-- The first byte decides, or the bytes after it do. -/
theorem Precedes.of_le {n m : Nat} {b b' : Bytes} (hle : n ≤ m) (hm : m < 256) (h : n = m → Precedes b b') :
    Precedes (UInt8.ofNat n :: b) (UInt8.ofNat m :: b') := by
  rcases Nat.lt_or_eq_of_le hle with hlt | heq
  · exact .of_lt hlt hm _ _
  · intro rest rest'
    rw [heq]
    exact List.cons_lt_cons_iff.2 (.inr ⟨rfl, h heq rest rest'⟩)

/-- In UTF-8 a letter with a greater number has the greater encoding. -/
theorem precedes_utf8EncodeChar {c d : Char} (h : c < d) :
    Precedes (String.utf8EncodeChar c) (String.utf8EncodeChar d) := by
  have hlt : c.val.toNat < d.val.toNat := h
  have hmax : d.val.toNat < 0x110000 := by
    have hvalid := d.valid
    simp only [UInt32.isValidChar, Nat.isValidChar] at hvalid
    omega
  simp only [String.utf8EncodeChar]
  generalize c.val.toNat = n at hlt ⊢
  generalize d.val.toNat = m at hlt hmax ⊢
  -- letters with as many bytes differ in some digit to the base of 64; of others the first byte tells their length
  by_cases hone : n ≤ 127
  · rw [if_pos hone]
    split
    · exact .of_lt hlt (by omega) _ _
    split
    · exact .of_lt (by omega) (by omega) _ _
    split
    · exact .of_lt (by omega) (by omega) _ _
    · exact .of_lt (by omega) (by omega) _ _
  rw [if_neg hone, if_neg (show ¬ m ≤ 127 by omega)]
  by_cases htwo : n ≤ 2047
  · rw [if_pos htwo]
    split
    · refine .of_le (by omega) (by omega) fun _ => ?_
      exact .of_lt (by omega) (by omega) _ _
    split
    · exact .of_lt (by omega) (by omega) _ _
    · exact .of_lt (by omega) (by omega) _ _
  rw [if_neg htwo, if_neg (show ¬ m ≤ 2047 by omega)]
  by_cases hthree : n ≤ 65535
  · rw [if_pos hthree]
    split
    · refine .of_le (by omega) (by omega) fun _ => ?_
      refine .of_le (by omega) (by omega) fun _ => ?_
      exact .of_lt (by omega) (by omega) _ _
    · exact .of_lt (by omega) (by omega) _ _
  rw [if_neg hthree, if_neg (show ¬ m ≤ 65535 by omega)]
  refine .of_le (by omega) (by omega) fun _ => ?_
  refine .of_le (by omega) (by omega) fun _ => ?_
  refine .of_le (by omega) (by omega) fun _ => ?_
  exact .of_lt (by omega) (by omega) _ _

/-- The order of texts is that of their bytes. -/
theorem flatMap_utf8EncodeChar_lt {l l' : List Char} (h : l < l') :
    l.flatMap String.utf8EncodeChar < l'.flatMap String.utf8EncodeChar := by
  induction l generalizing l' with
  | nil =>
    cases l' with
    | nil => cases h
    | cons d l' =>
      have hne : (d :: l').flatMap String.utf8EncodeChar ≠ [] := by simp
      obtain ⟨x, rest, hcons⟩ := List.exists_cons_of_ne_nil hne
      rw [hcons]
      exact List.nil_lt_cons x rest
  | cons c l ih =>
    cases l' with
    | nil => cases h
    | cons d l' =>
      rw [List.flatMap_cons, List.flatMap_cons]
      rcases List.cons_lt_cons_iff.1 h with hlt | ⟨rfl, hlt⟩
      · exact precedes_utf8EncodeChar hlt _ _
      · exact List.append_left_lt (ih hlt)

theorem ofText_eq_flatMap (s : String) : ofText s = s.toList.flatMap String.utf8EncodeChar := by
  rw [ofText, String.toUTF8, ← String.utf8Encode_toList, List.utf8Encode, List.data_toByteArray]

theorem ofText_lt_ofText {s t : String} (h : s < t) : ofText s < ofText t := by
  rw [ofText_eq_flatMap, ofText_eq_flatMap]
  exact flatMap_utf8EncodeChar_lt (String.lt_iff.1 h)

end Bytes

/-- Keys that are in order are in order of their bytes. -/
theorem Keyed.Ordered.pairwise_ofText {α : Type} {m : List (String × α)} (h : Keyed.Ordered m) :
    (m.map (·.1)).Pairwise fun k k' => Bytes.ofText k < Bytes.ofText k' := by
  rw [List.pairwise_map]
  exact h.imp Bytes.ofText_lt_ofText

end Fabric

import Fabric.Crypto.Der
import Mathlib.Data.List.Induction

namespace Fabric

theorem Bytes.toNat_concat (b : Bytes) (x : UInt8) : toNat (b ++ [x]) = toNat b * 256 + x.toNat := by
  rw [toNat, List.foldl_append]
  rfl

theorem Bytes.toNat_zero_cons (b : Bytes) : toNat (0 :: b) = toNat b := rfl

namespace Der

theorem digits_zero : digits 0 = [] := by
  rw [digits, if_pos rfl]

theorem digits_of_ne_zero {n : Nat} (h : n ≠ 0) : digits n = digits (n / 256) ++ [UInt8.ofNat (n % 256)] := by
  rw [digits, if_neg h]

theorem toNat_ofNat_mod (n : Nat) : (UInt8.ofNat (n % 256)).toNat = n % 256 :=
  UInt8.toNat_ofNat_of_lt' (Nat.mod_lt n (by decide))

theorem toNat_digits (n : Nat) : Bytes.toNat (digits n) = n := by
  induction n using digits.induct with
  | case1 => rw [digits_zero]; rfl
  | case2 n h ih =>
    rw [digits_of_ne_zero h, Bytes.toNat_concat, ih, toNat_ofNat_mod]
    omega

theorem digits_ne_nil {n : Nat} (h : n ≠ 0) : digits n ≠ [] := by
  rw [digits_of_ne_zero h]
  exact List.append_ne_nil_of_right_ne_nil _ (List.cons_ne_nil _ _)

/-- The first byte is not zero. -/
theorem head?_digits_ne_zero (n : Nat) : ∀ d ∈ (digits n).head?, d ≠ 0 := by
  induction n using digits.induct with
  | case1 =>
    rw [digits_zero]
    nofun
  | case2 n h ih =>
    intro d hd
    rw [digits_of_ne_zero h] at hd
    by_cases hhigh : n / 256 = 0
    · -- a number of one byte
      rw [hhigh, digits_zero] at hd
      obtain rfl := Option.some.inj hd
      intro hzero
      have hlow := toNat_ofNat_mod n
      rw [hzero, UInt8.toNat_zero] at hlow
      omega
    · obtain ⟨e, es, hes⟩ := List.exists_cons_of_ne_nil (digits_ne_nil hhigh)
      rw [hes] at hd ih
      exact ih d hd

/-- Bytes without a zero in front are the digits of their number. -/
theorem digits_toNat {b : Bytes} (h : ∀ d ∈ b.head?, d ≠ 0) : digits (Bytes.toNat b) = b := by
  induction b using List.reverseRecOn with
  | nil => exact digits_zero
  | append_singleton b x ih =>
    have hfront : ∀ d ∈ b.head?, d ≠ 0 := by
      cases b with
      | nil => nofun
      | cons d ds => exact h
    have hne : Bytes.toNat (b ++ [x]) ≠ 0 := by
      rw [Bytes.toNat_concat]
      intro hzero
      have hb : Bytes.toNat b = 0 := by omega
      -- there are no zeros in front, so the last byte is the only one, and not zero
      have hnil := ih hfront
      rw [hb, digits_zero] at hnil
      subst hnil
      have hx : x.toNat = 0 := by omega
      exact h x rfl (UInt8.toNat_inj.1 hx)
    have hhigh : (Bytes.toNat b * 256 + x.toNat) / 256 = Bytes.toNat b := by
      have := x.toNat_lt
      omega
    have hlow : (Bytes.toNat b * 256 + x.toNat) % 256 = x.toNat := by
      have := x.toNat_lt
      omega
    rw [digits_of_ne_zero hne, Bytes.toNat_concat, hhigh, hlow, ih hfront, UInt8.ofNat_toNat]

/-- A number has no more bytes than are written for a larger one. -/
theorem length_digits_le {n : Nat} {b : Bytes} (h : n ≤ Bytes.toNat b) : (digits n).length ≤ b.length := by
  induction b using List.reverseRecOn generalizing n with
  | nil =>
    obtain rfl : n = 0 := Nat.le_zero.1 h
    exact Nat.le_of_eq (congrArg List.length digits_zero)
  | append_singleton b x ih =>
    by_cases hn : n = 0
    · rw [hn, digits_zero]
      exact Nat.zero_le _
    · rw [Bytes.toNat_concat] at h
      have hhigh : n / 256 ≤ Bytes.toNat b := by
        have := x.toNat_lt
        omega
      rw [digits_of_ne_zero hn, List.length_append, List.length_append]
      exact Nat.succ_le_succ (ih hhigh)

structure IsInteger (n : Nat) (contents : Bytes) : Prop where
  value : Bytes.toNat contents = n
  sign : ∃ d ds, contents = d :: ds ∧ d.toNat < 128
  shortest : ∀ d ds, contents = 0 :: d :: ds → 128 ≤ d.toNat

theorem isInteger_integerContents (n : Nat) : IsInteger n (integerContents n) := by
  have hvalue := toNat_digits n
  have hhead := head?_digits_ne_zero n
  rw [integerContents]
  cases hdigits : digits n with
  | nil =>
    rw [hdigits] at hvalue
    exact ⟨hvalue, ⟨0, [], rfl, by decide⟩, nofun⟩
  | cons d ds =>
    rw [hdigits] at hvalue hhead
    by_cases hd : 128 ≤ d.toNat
    · simp only [if_pos hd]
      refine ⟨(Bytes.toNat_zero_cons _).trans hvalue, ⟨0, d :: ds, rfl, by decide⟩, ?_⟩
      intro e es h
      obtain ⟨rfl, -⟩ := List.cons.inj (List.cons.inj h).2
      exact hd
    · simp only [if_neg hd]
      refine ⟨hvalue, ⟨d, ds, rfl, Nat.not_le.1 hd⟩, ?_⟩
      intro e es h
      exact absurd (List.cons.inj h).1 (hhead d rfl)

/-- A number has no other contents. -/
theorem IsInteger.eq_integerContents {n : Nat} {contents : Bytes} (h : IsInteger n contents) :
    contents = integerContents n := by
  obtain ⟨d, ds, rfl, hsign⟩ := h.sign
  rw [← h.value, integerContents]
  -- a zero in front is there for the sign, or it is all of the number
  by_cases hd : d = 0
  · subst hd
    rw [Bytes.toNat_zero_cons]
    cases ds with
    | nil =>
      have hdigits : digits (Bytes.toNat []) = [] := digits_zero
      rw [hdigits]
    | cons e es =>
      have he := h.shortest e es rfl
      have hdigits : digits (Bytes.toNat (e :: es)) = e :: es := by
        apply digits_toNat
        intro d hd
        obtain rfl := Option.some.inj hd
        intro hzero
        rw [hzero] at he
        exact absurd he (by decide)
      simp only [hdigits, if_pos he]
  · have hdigits : digits (Bytes.toNat (d :: ds)) = d :: ds := by
      apply digits_toNat
      intro e he
      obtain rfl := Option.some.inj he
      exact hd
    simp only [hdigits, if_neg (Nat.not_le.2 hsign)]

/-- The sign may need one more byte. -/
theorem length_integerContents_le {n : Nat} {b : Bytes} (h : n ≤ Bytes.toNat b) :
    (integerContents n).length ≤ b.length + 1 := by
  have hlength := length_digits_le h
  rw [integerContents]
  cases hdigits : digits n with
  | nil => exact Nat.succ_le_succ (Nat.zero_le _)
  | cons d ds =>
    rw [hdigits] at hlength
    by_cases hd : 128 ≤ d.toNat
    · simp only [if_pos hd]
      exact Nat.succ_le_succ hlength
    · simp only [if_neg hd]
      exact Nat.le_succ_of_le hlength

theorem splitAt?_append (front rest : Bytes) : splitAt? front.length (front ++ rest) = some (front, rest) := by
  rw [splitAt?, if_pos (by simp)]
  simp

section Short

variable {tag : UInt8} {contents : Bytes} (h : contents.length < 128)
include h

/-- A length below 128 is one byte. -/
theorem encode_of_short : encode tag contents = tag :: UInt8.ofNat contents.length :: contents := by
  rw [encode, encodeLength, if_pos h]
  rfl

theorem read?_encode (htag : isTag tag = true) (rest : Bytes) :
    read? tag (encode tag contents ++ rest) = some (contents, rest) := by
  have hlength : (UInt8.ofNat contents.length).toNat = contents.length :=
    UInt8.toNat_ofNat_of_lt' (Nat.lt_trans h (by decide))
  rw [encode_of_short h, List.cons_append, List.cons_append, read?, readAny?, if_pos htag, readLength?, hlength,
    if_pos h]
  simp [splitAt?_append]

end Short

section ShortInteger

variable {n : Nat} (h : (integerContents n).length < 128)
include h

theorem encodeInteger_of_short :
    encodeInteger n = integerTag :: UInt8.ofNat (integerContents n).length :: integerContents n :=
  encode_of_short h

theorem length_encodeInteger : (encodeInteger n).length = (integerContents n).length + 2 := by
  rw [encodeInteger_of_short h]
  rfl

theorem readInteger?_encodeInteger (rest : Bytes) : readInteger? (encodeInteger n ++ rest) = some (n, rest) := by
  have htag : isTag integerTag = true := by decide
  have hvalue := (isInteger_integerContents n).value
  rw [readInteger?, encodeInteger, read?_encode h htag]
  simp [hvalue]

end ShortInteger

end Der

end Fabric

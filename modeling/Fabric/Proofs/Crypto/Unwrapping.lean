import Fabric.Proofs.Crypto.PemText
import Fabric.Proofs.Request.Checks

namespace Fabric

/-- Bytes that are a text are what is written for it. -/
theorem Bytes.ofText_of_toText? {b : Bytes} {s : String} (h : toText? b = some s) : ofText s = b := by
  rw [toText?, String.fromUTF8?] at h
  split at h
  · next hvalid =>
    obtain rfl := Option.some.inj h
    simp [ofText, String.fromUTF8]
  · cases h

namespace Base64

theorem toNat_lt_of_value? {c : Char} {n : Nat} (h : value? c = some n) : c.toNat < 128 := by
  have hupper : c ≤ 'Z' → c.toNat ≤ 90 := fun hle => UInt32.le_iff_toNat_le.1 hle
  have hlower : c ≤ 'z' → c.toNat ≤ 122 := fun hle => UInt32.le_iff_toNat_le.1 hle
  have hnumber : c ≤ '9' → c.toNat ≤ 57 := fun hle => UInt32.le_iff_toNat_le.1 hle
  rw [value?] at h
  split at h
  · next hc => exact Nat.lt_of_le_of_lt (hupper hc.2) (by decide)
  · split at h
    · next hc => exact Nat.lt_of_le_of_lt (hlower hc.2) (by decide)
    · split at h
      · next hc => exact Nat.lt_of_le_of_lt (hnumber hc.2) (by decide)
      · split at h
        · next hc => rw [hc]; decide
        · split at h
          · next hc => rw [hc]; decide
          · cases h

/-- Only digits have values. -/
theorem eq_digit_of_value? {c : Char} {n : Nat} (h : value? c = some n) : n < 64 ∧ c = digit n := by
  have hascii : ∀ m < 128, ∀ n, value? (Char.ofNat m) = some n → n < 64 ∧ Char.ofNat m = digit n := by
    decide
  -- what is not ASCII has no value, so there are no more characters than these
  have hsame : Char.ofNat c.toNat = c := Char.ofNat_toNat c
  rw [← hsame] at h ⊢
  exact hascii c.toNat (toNat_lt_of_value? (hsame ▸ h)) n h

variable {p q : Nat} {r s : Char} {b : Bytes}

theorem toNat_ofNat {n : Nat} (h : n < 256) : (UInt8.ofNat n).toNat = n :=
  UInt8.toNat_ofNat_of_lt' h

/-- Three bytes that are put together from four digits are written as these. -/
theorem encodeChars_group {x y : Nat} (hp : p < 64) (hq : q < 64) (hx : x < 64) (hy : y < 64) (rest : Bytes) :
    encodeChars (UInt8.ofNat (p * 4 + q / 16) :: UInt8.ofNat (q % 16 * 16 + x / 4) ::
        UInt8.ofNat (x % 4 * 64 + y) :: rest) =
      digit p :: digit q :: digit x :: digit y :: encodeChars rest := by
  have hfirst : (UInt8.ofNat (p * 4 + q / 16)).toNat = p * 4 + q / 16 := toNat_ofNat (by omega)
  have hsecond : (UInt8.ofNat (q % 16 * 16 + x / 4)).toNat = q % 16 * 16 + x / 4 :=
    toNat_ofNat (by omega)
  have hthird : (UInt8.ofNat (x % 4 * 64 + y)).toNat = x % 4 * 64 + y := toNat_ofNat (by omega)
  have hp' : (p * 4 + q / 16) / 4 = p := by omega
  have hq' : (p * 4 + q / 16) % 4 * 16 + (q % 16 * 16 + x / 4) / 16 = q := by omega
  have hx' : (q % 16 * 16 + x / 4) % 16 * 4 + (x % 4 * 64 + y) / 64 = x := by omega
  have hy' : (x % 4 * 64 + y) % 64 = y := by omega
  rw [encodeChars, hfirst, hsecond, hthird, hp', hq', hx', hy']

/-- The last group is the one that is written for its bytes. -/
theorem encodeChars_of_lastGroup? (hp : p < 64) (hq : q < 64) (h : lastGroup? p q r s = some b) :
    encodeChars b = [digit p, digit q, r, s] := by
  have hfirst : (UInt8.ofNat (p * 4 + q / 16)).toNat = p * 4 + q / 16 := toNat_ofNat (by omega)
  have hp' : (p * 4 + q / 16) / 4 = p := by omega
  rw [lastGroup?] at h
  -- three, two or one byte; the bits of a digit that are of none of them have to be zero
  split at h
  · next x y hr hs =>
    obtain ⟨hx, rfl⟩ := eq_digit_of_value? hr
    obtain ⟨hy, rfl⟩ := eq_digit_of_value? hs
    obtain rfl := Option.some.inj h
    exact encodeChars_group hp hq hx hy []
  · next x hr hs =>
    obtain ⟨hx, rfl⟩ := eq_digit_of_value? hr
    split at h
    · next hpad =>
      obtain ⟨rfl, hx4⟩ := hpad
      obtain rfl := Option.some.inj h
      have hsecond : (UInt8.ofNat (q % 16 * 16 + x / 4)).toNat = q % 16 * 16 + x / 4 :=
        toNat_ofNat (by omega)
      have hq' : (p * 4 + q / 16) % 4 * 16 + (q % 16 * 16 + x / 4) / 16 = q := by omega
      have hx' : (q % 16 * 16 + x / 4) % 16 * 4 = x := by omega
      rw [encodeChars, hfirst, hsecond, hp', hq', hx']
    · cases h
  · split at h
    · next hpad =>
      obtain ⟨rfl, rfl, hq16⟩ := hpad
      obtain rfl := Option.some.inj h
      have hq' : (p * 4 + q / 16) % 4 * 16 = q := by omega
      rw [encodeChars, hfirst, hp', hq']
    · cases h

/-- What is read as base64 is the one way of writing its bytes. -/
theorem encodeChars_of_decodeChars? {cs : List Char} (h : decodeChars? cs = some b) : encodeChars b = cs := by
  fun_induction decodeChars? cs generalizing b with
  | case1 =>
    obtain rfl := Option.some.inj h
    rfl
  | case2 c₁ c₂ c₃ c₄ p q h₂ h₁ =>
    obtain ⟨hp, rfl⟩ := eq_digit_of_value? h₁
    obtain ⟨hq, rfl⟩ := eq_digit_of_value? h₂
    exact encodeChars_of_lastGroup? hp hq h
  | case4 c₁ c₂ c₃ c₄ rest _ p q x y inner hrest h₄ h₃ h₂ h₁ ih =>
    obtain ⟨hp, rfl⟩ := eq_digit_of_value? h₁
    obtain ⟨hq, rfl⟩ := eq_digit_of_value? h₂
    obtain ⟨hx, rfl⟩ := eq_digit_of_value? h₃
    obtain ⟨hy, rfl⟩ := eq_digit_of_value? h₄
    obtain rfl := Option.some.inj h
    rw [encodeChars_group hp hq hx hy, ih hrest]
  | case3 => cases h
  | case5 => cases h
  | case6 => cases h

theorem decodeChars?_eq_some_iff {cs : List Char} : decodeChars? cs = some b ↔ cs = encodeChars b := by
  constructor
  · intro h
    exact (encodeChars_of_decodeChars? h).symm
  · intro h
    rw [h, decodeChars?_encodeChars]

end Base64

namespace PemText

inductive ReadAs (value : String) : String → Prop
  | plain (hmark : mark.isPrefixOf (Text.trim value).toList = true) : ReadAs value (Text.trim value)
  | wrapped {pem : String} (hvalue : Text.dropBlanks value = Base64.encodeChars (Bytes.ofText pem))
    (hmark : mark.isPrefixOf (Text.trimStart pem.toList) = true) : ReadAs value pem

inductive Unreadable (field value : String) : Reason → Prop
  | blank (h : Text.isBlankText value = true) : Unreadable field value .required
  | notBase64 (hplain : mark.isPrefixOf (Text.trim value).toList = false)
    (h : ∀ b, Text.dropBlanks value ≠ Base64.encodeChars b) :
    Unreadable field value (.undecodable (.invalidBase64 field))
  | notText {b : Bytes} (hvalue : Text.dropBlanks value = Base64.encodeChars b) (h : ∀ text, b ≠ Bytes.ofText text) :
    Unreadable field value (.undecodable (.invalidPem field .notText))
  | noHeader {text : String} (hseen : Text.isBlankText value = false)
    (hvalue : Text.dropBlanks value = Base64.encodeChars (Bytes.ofText text))
    (h : mark.isPrefixOf (Text.trimStart text.toList) = false) :
    Unreadable field value (.undecodable (.invalidPem field .noHeader))

variable {field value pem : String}

/-- Nothing else can become of a text. -/
theorem readAs_or_unreadable (field value : String) :
    (∃ pem, ReadAs value pem) ∨ ∃ reason, Unreadable field value reason := by
  cases hblank : Text.isBlankText value with
  | true => exact .inr ⟨_, .blank hblank⟩
  | false =>
    cases hplain : mark.isPrefixOf (Text.trim value).toList with
    | true => exact .inl ⟨_, .plain hplain⟩
    | false =>
      by_cases hbase64 : ∃ b, Text.dropBlanks value = Base64.encodeChars b
      · obtain ⟨b, hb⟩ := hbase64
        by_cases htext : ∃ text, b = Bytes.ofText text
        · obtain ⟨text, rfl⟩ := htext
          cases hmark : mark.isPrefixOf (Text.trimStart text.toList) with
          | true => exact .inl ⟨_, .wrapped hb hmark⟩
          | false => exact .inr ⟨_, .noHeader hblank hb hmark⟩
        · exact .inr ⟨_, .notText hb (not_exists.1 htext)⟩
      · exact .inr ⟨_, .notBase64 hplain (not_exists.1 hbase64)⟩

end PemText

namespace SigningIdentity

variable {field value pem : String}

theorem checkPem_of_readAs (h : PemText.ReadAs value pem) : checkPem field value = .accepted pem := by
  cases h with
  | plain hmark =>
    -- the dashes of the mark are no blanks
    have hseen : Text.isBlankText value = false := by
      rw [Bool.eq_false_iff]
      intro hblank
      have hdash := PemText.dash_mem_dropBlanks hmark
      rw [Text.dropBlanks_eq_nil_of_isBlankText hblank] at hdash
      cases hdash
    simp only [checkPem, hseen, PemText.unwrap, hmark, Checked.ofExcept, Bool.false_eq_true, if_false, if_true]
  | wrapped hvalue hmark =>
    rw [checkPem, PemText.isBlankText_of_dropBlanks hvalue (PemText.ofText_ne_nil hmark),
      PemText.unwrap_of_dropBlanks hvalue, if_pos hmark]
    rfl

/-- The check of a field reports why its value is not armour. -/
theorem checkPem_of_unreadable {reason : Reason} (h : PemText.Unreadable field value reason) :
    checkPem field value = .violation field reason := by
  cases h with
  | blank h => rw [checkPem, if_pos h]
  | notBase64 hplain h =>
    -- a blank text would stand for no bytes at all
    have hseen : Text.isBlankText value = false := by
      rw [Bool.eq_false_iff]
      intro hblank
      exact h [] (Text.dropBlanks_eq_nil_of_isBlankText hblank)
    have hdecode : Base64.decodeChars? (Text.dropBlanks (Text.trim value)) = none := by
      rw [Text.dropBlanks_trim, Option.eq_none_iff_forall_ne_some]
      intro b hb
      exact h b (Base64.decodeChars?_eq_some_iff.1 hb)
    simp only [checkPem, hseen, PemText.unwrap, hplain, hdecode, Checked.ofExcept, Bool.false_eq_true, if_false]
  | @notText b hvalue h =>
    -- no bytes are the empty text, so there are some
    have hsome : b ≠ [] := h ""
    have htext : Bytes.toText? b = none := by
      rw [Option.eq_none_iff_forall_ne_some]
      intro text htext
      exact h text (Bytes.ofText_of_toText? htext).symm
    simp only [checkPem, PemText.isBlankText_of_dropBlanks hvalue hsome, PemText.unwrap,
      PemText.not_plain_of_dropBlanks hvalue, Text.dropBlanks_trim, hvalue, Base64.decodeChars?_encodeChars, htext,
      Checked.ofExcept, Bool.false_eq_true, if_false]
  | noHeader hseen hvalue h =>
    rw [checkPem, hseen, PemText.unwrap_of_dropBlanks hvalue, h]
    rfl

theorem checkPem_eq_accepted_iff : checkPem field value = .accepted pem ↔ PemText.ReadAs value pem := by
  constructor
  · intro h
    obtain ⟨pem', hread⟩ | ⟨reason, hreason⟩ := PemText.readAs_or_unreadable field value
    · rw [checkPem_of_readAs hread] at h
      obtain rfl := Checked.accepted.inj h
      exact hread
    · rw [checkPem_of_unreadable hreason] at h
      cases h
  · exact checkPem_of_readAs

end SigningIdentity

end Fabric

import Fabric.Crypto.PemText
import Fabric.Proofs.Text.Blank
import Fabric.Proofs.Wire.Written

namespace Fabric

namespace Base64

def IsSymbol (c : Char) : Prop := c = '=' ∨ ∃ n < 64, c = digit n

theorem IsSymbol.not_isBlank {c : Char} (h : IsSymbol c) : Text.isBlank c = false := by
  have hdigit : ∀ n < 64, Text.isBlank (digit n) = false := by decide
  obtain rfl | ⟨n, hn, rfl⟩ := h
  · rfl
  · exact hdigit n hn

theorem IsSymbol.ne_dash {c : Char} (h : IsSymbol c) : c ≠ '-' := by
  have hdigit : ∀ n < 64, digit n ≠ '-' := by decide
  obtain rfl | ⟨n, hn, rfl⟩ := h
  · decide
  · exact hdigit n hn

theorem isSymbol_of_mem_encodeChars {b : Bytes} : ∀ c ∈ encodeChars b, IsSymbol c := by
  have hbyte (x : UInt8) : x.toNat < 256 := x.toNat_lt
  have hdigit : ∀ n < 64, IsSymbol (digit n) := fun n hn => .inr ⟨n, hn, rfl⟩
  have hpad : IsSymbol '=' := .inl rfl
  fun_induction encodeChars b with
  | case1 => exact List.forall_mem_nil _
  | case2 a =>
    have := hbyte a
    simp only [List.forall_mem_cons]
    exact ⟨hdigit _ (by omega), hdigit _ (by omega), hpad, hpad, List.forall_mem_nil _⟩
  | case3 a b =>
    have := hbyte a
    have := hbyte b
    simp only [List.forall_mem_cons]
    exact ⟨hdigit _ (by omega), hdigit _ (by omega), hdigit _ (by omega), hpad, List.forall_mem_nil _⟩
  | case4 a b c rest ih =>
    have := hbyte a
    have := hbyte b
    have := hbyte c
    simp only [List.forall_mem_cons]
    exact ⟨hdigit _ (by omega), hdigit _ (by omega), hdigit _ (by omega), hdigit _ (by omega), ih⟩

theorem value?_digit {n : Nat} (h : n < 64) : value? (digit n) = some n := by
  revert n
  decide

theorem lastGroup?_padded_twice {p q : Nat} (hq : q % 16 = 0) :
    lastGroup? p q '=' '=' = some [UInt8.ofNat (p * 4 + q / 16)] :=
  if_pos ⟨rfl, rfl, hq⟩

theorem lastGroup?_padded {p q x : Nat} (hx : x < 64) (hx4 : x % 4 = 0) :
    lastGroup? p q (digit x) '=' =
      some [UInt8.ofNat (p * 4 + q / 16), UInt8.ofNat (q % 16 * 16 + x / 4)] := by
  have hpad : value? '=' = none := rfl
  simp only [lastGroup?, value?_digit hx, hpad]
  exact if_pos ⟨trivial, hx4⟩

theorem lastGroup?_full {p q x y : Nat} (hx : x < 64) (hy : y < 64) :
    lastGroup? p q (digit x) (digit y) =
      some [UInt8.ofNat (p * 4 + q / 16), UInt8.ofNat (q % 16 * 16 + x / 4), UInt8.ofNat (x % 4 * 64 + y)] := by
  simp only [lastGroup?, value?_digit hx, value?_digit hy]

/-- A byte is the number that is put together from its parts. -/
theorem ofNat_eq {x : UInt8} {n : Nat} (h : n = x.toNat) : UInt8.ofNat n = x := by
  rw [h, UInt8.ofNat_toNat]

/-- What base64 writes for some bytes is read as these bytes. -/
theorem decodeChars?_encodeChars (b : Bytes) : decodeChars? (encodeChars b) = some b := by
  have hbyte (x : UInt8) : x.toNat < 256 := x.toNat_lt
  fun_induction encodeChars b with
  | case1 => rfl
  | case2 a =>
    have := hbyte a
    simp only [decodeChars?, value?_digit (show a.toNat / 4 < 64 by omega),
      value?_digit (show a.toNat % 4 * 16 < 64 by omega)]
    rw [lastGroup?_padded_twice (by omega), ofNat_eq (x := a) (by omega)]
  | case3 a b =>
    have := hbyte a
    have := hbyte b
    simp only [decodeChars?, value?_digit (show a.toNat / 4 < 64 by omega),
      value?_digit (show a.toNat % 4 * 16 + b.toNat / 16 < 64 by omega)]
    rw [lastGroup?_padded (by omega) (by omega), ofNat_eq (x := a) (by omega), ofNat_eq (x := b) (by omega)]
  | case4 a b c rest ih =>
    have := hbyte a
    have := hbyte b
    have := hbyte c
    have ha : UInt8.ofNat (a.toNat / 4 * 4 + (a.toNat % 4 * 16 + b.toNat / 16) / 16) = a := ofNat_eq (by omega)
    have hb : UInt8.ofNat ((a.toNat % 4 * 16 + b.toNat / 16) % 16 * 16 + (b.toNat % 16 * 4 + c.toNat / 64) / 4) = b :=
      ofNat_eq (by omega)
    have hc : UInt8.ofNat ((b.toNat % 16 * 4 + c.toNat / 64) % 4 * 64 + c.toNat % 64) = c := ofNat_eq (by omega)
    -- whether the group is the last one depends on what is written for the rest
    cases hrest : encodeChars rest with
    | nil =>
      rw [hrest] at ih
      simp only [decodeChars?, value?_digit (show a.toNat / 4 < 64 by omega),
        value?_digit (show a.toNat % 4 * 16 + b.toNat / 16 < 64 by omega)]
      rw [lastGroup?_full (by omega) (by omega), ha, hb, hc, Option.some.inj ih]
    | cons d ds =>
      rw [hrest] at ih
      simp only [decodeChars?, value?_digit (show a.toNat / 4 < 64 by omega),
        value?_digit (show a.toNat % 4 * 16 + b.toNat / 16 < 64 by omega),
        value?_digit (show b.toNat % 16 * 4 + c.toNat / 64 < 64 by omega),
        value?_digit (show c.toNat % 64 < 64 by omega), ih, ha, hb, hc]

theorem encodeChars_ne_nil {b : Bytes} (hb : b ≠ []) : encodeChars b ≠ [] := by
  intro h
  have hdecoded := decodeChars?_encodeChars b
  rw [h] at hdecoded
  exact hb (Option.some.inj hdecoded).symm

end Base64

namespace PemText

/-- The mark of plain armour has a dash in it. -/
theorem dash_mem_dropBlanks {value : String} (h : mark.isPrefixOf (Text.trim value).toList = true) :
    '-' ∈ Text.dropBlanks value := by
  have hdash : '-' ∈ (Text.trim value).toList :=
    (List.isPrefixOf_iff_prefix.1 h).subset (by decide)
  rw [← Text.dropBlanks_trim]
  exact List.mem_filter.2 ⟨hdash, rfl⟩

/-- What is wrapped is not taken for plain armour. -/
theorem not_plain_of_dropBlanks {value : String} {b : Bytes} (h : Text.dropBlanks value = Base64.encodeChars b) :
    mark.isPrefixOf (Text.trim value).toList = false := by
  rw [Bool.eq_false_iff]
  intro hprefix
  have hdash := dash_mem_dropBlanks hprefix
  rw [h] at hdash
  exact (Base64.isSymbol_of_mem_encodeChars '-' hdash).ne_dash rfl

/-- Blanks apart, the text is wrapped armour: it is unwrapped to what was wrapped, if this begins with a mark. -/
theorem unwrap_of_dropBlanks {w pem : String} (h : Text.dropBlanks w = Base64.encodeChars (Bytes.ofText pem))
    (field : String) :
    unwrap field w =
      if mark.isPrefixOf (Text.trimStart pem.toList) then .ok pem else .error (.invalidPem field .noHeader) := by
  have hdrop : Text.dropBlanks (Text.trim w) = Base64.encodeChars (Bytes.ofText pem) := by
    rw [Text.dropBlanks_trim, h]
  simp only [unwrap, not_plain_of_dropBlanks h, hdrop, Base64.decodeChars?_encodeChars, Bytes.toText?_ofText,
    Bool.false_eq_true, if_false]

theorem dropBlanks_wrap (pem : String) : Text.dropBlanks (wrap pem) = Base64.encodeChars (Bytes.ofText pem) := by
  rw [wrap, Base64.encode, Text.dropBlanks, String.toList_ofList, List.filter_eq_self]
  intro c hc
  rw [(Base64.isSymbol_of_mem_encodeChars c hc).not_isBlank]
  rfl

/-- What is wrapped can be seen. -/
theorem isBlankText_of_dropBlanks {value : String} {b : Bytes} (h : Text.dropBlanks value = Base64.encodeChars b)
    (hb : b ≠ []) : Text.isBlankText value = false := by
  rw [Bool.eq_false_iff]
  intro hblank
  rw [Text.dropBlanks_eq_nil_of_isBlankText hblank] at h
  exact Base64.encodeChars_ne_nil hb h.symm

/-- A mark is not nothing. -/
theorem ofText_ne_nil {pem : String} (hmark : mark.isPrefixOf (Text.trimStart pem.toList) = true) :
    Bytes.ofText pem ≠ [] := by
  intro hnil
  have htext := Bytes.toText?_ofText pem
  rw [hnil] at htext
  cases Option.some.inj htext
  exact absurd hmark (by decide)

theorem isBlankText_wrap {pem : String} (hmark : mark.isPrefixOf (Text.trimStart pem.toList) = true) :
    Text.isBlankText (wrap pem) = false :=
  isBlankText_of_dropBlanks (dropBlanks_wrap pem) (ofText_ne_nil hmark)

theorem unwrap_wrap {pem : String} (hmark : mark.isPrefixOf (Text.trimStart pem.toList) = true) (field : String) :
    unwrap field (wrap pem) = .ok pem := by
  rw [unwrap_of_dropBlanks (dropBlanks_wrap pem), if_pos hmark]

theorem not_isBlank_of_mem_mark : ∀ c ∈ mark, Text.isBlank c = false := by
  have hmark : (mark.all fun c => !Text.isBlank c) = true := by decide
  simpa using hmark

/-- Plain armour loses the blanks around it. -/
theorem unwrap_plain {pem : String} (hmark : mark.isPrefixOf (Text.trimStart pem.toList) = true) (field : String) :
    unwrap field pem = .ok (Text.trim pem) := by
  have hplain : mark.isPrefixOf (Text.trim pem).toList = true := Text.isPrefixOf_trim not_isBlank_of_mem_mark hmark
  simp only [unwrap, hplain, if_true]

inductive Form
  | plain
  | wrapped
deriving DecidableEq

namespace Form

def write : Form → String → String
  | .plain, pem => pem
  | .wrapped, pem => wrap pem

def read : Form → String → String
  | .plain, pem => Text.trim pem
  | .wrapped, pem => pem

/-- Both forms are taken for one text if this has no blanks at its ends. -/
theorem read_eq_read_iff {f g : Form} (h : f ≠ g) (pem : String) : f.read pem = g.read pem ↔ Text.trim pem = pem := by
  cases f with
  | plain =>
    cases g with
    | plain => exact absurd rfl h
    | wrapped => exact Iff.rfl
  | wrapped =>
    cases g with
    | plain => exact eq_comm
    | wrapped => exact absurd rfl h

end Form

section

variable {pem : String} (hmark : mark.isPrefixOf (Text.trimStart pem.toList) = true)
include hmark

theorem unwrap_write (field : String) (f : Form) : unwrap field (f.write pem) = .ok (f.read pem) := by
  cases f with
  | plain => exact unwrap_plain hmark field
  | wrapped => exact unwrap_wrap hmark field

theorem isBlankText_plain : Text.isBlankText pem = false := by
  have hdash : '-' ∈ Text.trimStart pem.toList := (List.isPrefixOf_iff_prefix.1 hmark).subset (by decide)
  rw [Bool.eq_false_iff]
  intro hblank
  have hdashBlank := List.all_eq_true.1 hblank '-' ((List.dropWhile_suffix Text.isBlank).subset hdash)
  exact absurd hdashBlank (by decide)

theorem isBlankText_write (f : Form) : Text.isBlankText (f.write pem) = false := by
  cases f with
  | plain => exact isBlankText_plain hmark
  | wrapped => exact isBlankText_wrap hmark

end

end PemText

end Fabric

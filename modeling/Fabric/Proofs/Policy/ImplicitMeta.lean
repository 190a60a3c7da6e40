import Fabric.Proofs.Message.Policy
import Fabric.Proofs.Policy.Kind
import Fabric.Proofs.Text.Words
import Fabric.Proofs.Wire.Apparent

namespace Fabric

def ImplicitRule.letters : List Char := any.name.toList ++ all.name.toList

namespace ImplicitRule

theorem mem_letters_of_name {r : ImplicitRule} (hr : r ≠ .majority) : ∀ c ∈ r.name.toList, c ∈ letters := by
  intro c hc
  cases r with
  | any => exact List.mem_append_left _ hc
  | all => exact List.mem_append_right _ hc
  | majority => exact absurd rfl hr

theorem toNat_lt_of_mem_letters : ∀ c ∈ letters, c.toNat < 128 := by
  intro c hc
  rcases List.mem_append.1 hc with hc | hc
  · exact Text.toNat_lt_of_isAlpha (List.all_eq_true.1 any.isAlpha_name c hc)
  · exact Text.toNat_lt_of_isAlpha (List.all_eq_true.1 all.isAlpha_name c hc)

/-- Any other word stands for the default. -/
theorem getD_ofName?_eq_iff {s : String} {r : ImplicitRule} (hr : r ≠ .majority) :
    (ofName? s).getD .majority = r ↔ s.toUpper = r.name := by
  rw [← ofName?_eq_some_iff]
  cases ofName? s with
  | none => simp [hr.symm]
  | some r' => simp

/-- The rule that a word names does not depend on the case of its letters. -/
theorem getD_ofName?_eq_of_sameLetters {v w : String} (h : Text.SameLetters letters v w) :
    (ofName? v).getD .majority = (ofName? w).getD .majority := by
  have hsame : ∀ r : ImplicitRule, r ≠ .majority →
      ((ofName? v).getD .majority = r ↔ (ofName? w).getD .majority = r) := by
    intro r hr
    have hname : ∀ c ∈ r.name.toList, c.isAlpha = true ∧ c ∈ letters := fun c hc =>
      ⟨List.all_eq_true.1 r.isAlpha_name c hc, mem_letters_of_name hr c hc⟩
    rw [getD_ofName?_eq_iff hr, getD_ofName?_eq_iff hr]
    exact ⟨h.toUpper_eq hname, h.symm.toUpper_eq hname⟩
  -- a rule that neither of them names is the default for both
  cases hv : (ofName? v).getD .majority with
  | any => exact ((hsame .any (by decide)).1 hv).symm
  | all => exact ((hsame .all (by decide)).1 hv).symm
  | majority =>
    cases hw : (ofName? w).getD .majority with
    | any => rw [← hv, (hsame .any (by decide)).2 hw]
    | all => rw [← hv, (hsame .all (by decide)).2 hw]
    | majority => rfl

theorem ofName?_name (r : ImplicitRule) : ofName? r.name = some r := by
  rw [ofName?_eq_some_iff]
  apply toUpper_of_toList
  cases r <;> decide

theorem ofCode_code (r : ImplicitRule) : ofCode r.code = r := by
  cases r <;> rfl

theorem code_ofCode {n : Int32} (h0 : 0 ≤ n) (h2 : n ≤ 2) : (ofCode n).code = n := by
  have hn : n = 0 ∨ n = 1 ∨ n = 2 := by
    rw [Int32.le_iff_toInt_le] at h0 h2
    have hcases : n.toInt = 0 ∨ n.toInt = 1 ∨ n.toInt = 2 := by
      have h0' : (0 : Int32).toInt = 0 := rfl
      have h2' : (2 : Int32).toInt = 2 := rfl
      omega
    simpa [← Int32.toInt_inj] using hcases
  rcases hn with rfl | rfl | rfl <;> rfl

end ImplicitRule

namespace ImplicitPolicy

open ImplicitRule
open Text (IsWord SameLetters words)
open Wire (Codec DecodeError Fields Value decode encode maxNesting)

def ofWords (rule subPolicy : Option String) : ImplicitPolicy :=
  ⟨(rule.bind ofName?).getD .majority, subPolicy.getD defaultSubPolicy⟩

theorem parse_eq_ofWords (s : String) : parse s = ofWords (words s)[0]? (words s)[1]? := by
  rw [parse]
  split
  · next h => rw [h]; rfl
  · next h => rw [h]; rfl
  · next h => rw [h]; rfl

theorem isWord_of_isAlpha {w : String} (hne : w ≠ "") (h : w.toList.all Char.isAlpha = true) : IsWord w := by
  refine ⟨hne, ?_⟩
  intro c hc
  have hblank := not_isBlank_of_isAlpha c (List.all_eq_true.1 h c hc)
  rwa [Bool.not_eq_true'] at hblank

theorem isWord_subPolicy_parse (s : String) : IsWord (parse s).subPolicy := by
  have hdefault : IsWord defaultSubPolicy := isWord_of_isAlpha (by decide) (by decide)
  rw [parse_eq_ofWords, ofWords]
  cases h : (words s)[1]? with
  | none => exact hdefault
  | some w => exact Text.isWord_of_mem_words (List.mem_of_getElem? h)

theorem isWord_name (r : ImplicitRule) : IsWord r.name := by
  refine isWord_of_isAlpha ?_ r.isAlpha_name
  cases r <;> decide

/-- A policy is read back from its text. -/
theorem parse_text {p : ImplicitPolicy} (hp : IsWord p.subPolicy) : parse p.text = p := by
  rw [parse, text, Text.words_of_two (isWord_name p.rule) hp]
  simp only [ofName?_name, Option.getD_some]

theorem ofMessage_toMessage (p : ImplicitPolicy) : ofMessage p.toMessage = p := by
  rw [toMessage, ofMessage, ofCode_code]

theorem toMessage_ofMessage {m : Message.ImplicitMetaPolicy} (h0 : 0 ≤ m.rule) (h2 : m.rule ≤ 2) :
    (ofMessage m).toMessage = m := by
  rw [ofMessage, toMessage, code_ofCode h0 h2]

def longestName : Nat := 4096

section Message

variable {p : ImplicitPolicy} (hp : (Bytes.ofText p.subPolicy).length ≤ longestName)
include hp

theorem length_encode_toMessage : (encode p.toMessage).length < UInt64.size := by
  have hsize : longestName + 22 < UInt64.size := by decide
  have htext : (Value.encodeFields (Fields.putText 1 p.subPolicy)).length ≤ _ :=
    Value.length_encodeFields_putText_le (by decide) (by omega)
  have hcode : (Value.encodeFields (Fields.putInt32 2 p.rule.code)).length ≤ _ :=
    Value.length_encodeFields_putInt32_le (by decide) _
  simp only [toMessage, Wire.encode, Fields.encode, Codec.toFields, Value.encodeFields_append, List.length_append]
  omega

theorem apparent_toMessage : Value.apparentOfFields (Codec.toFields p.toMessage) ≤ maxNesting := by
  have hhalf := Wire.blockNesting_le_half (Bytes.ofText p.subPolicy)
  have hname : Wire.blockNesting (Bytes.ofText p.subPolicy) ≤ maxNesting - 1 := by
    simp only [longestName, maxNesting] at hp ⊢
    omega
  exact Value.apparentOfFields_append_le_iff.2
    ⟨Value.apparentOfFields_putText_le_iff.2 hname, Value.apparentOfFields_putInt32⟩

theorem decode_toMessage : decode (encode p.toMessage) = .ok p.toMessage := by
  rw [(Message.ImplicitMetaPolicy.faithful _).decode_encode (length_encode_toMessage hp),
    if_pos (apparent_toMessage hp)]

end Message

theorem length_subPolicy_parse {s : String} (h : ∀ w ∈ words s, (Bytes.ofText w).length ≤ longestName) :
    (Bytes.ofText (parse s).subPolicy).length ≤ longestName := by
  have hdefault : (Bytes.ofText defaultSubPolicy).length ≤ longestName := by decide
  rw [parse_eq_ofWords, ofWords]
  cases hword : (words s)[1]? with
  | none => exact hdefault
  | some w => exact h w (List.mem_of_getElem? hword)

/-- What any text is read as has one word for a name, and is read back from its own text and, if the words are not too
long, from its message. Texts with the same two words at the beginning, but for the case of the letters in the first,
are read as the same; and a message with the number of a rule is written again as it was. -/
theorem parse_normal_form :
    (∀ s : String, IsWord (parse s).subPolicy ∧ parse (parse s).text = parse s ∧
      ((∀ w ∈ words s, (Bytes.ofText w).length ≤ 4096) →
        (decode (encode (parse s).toMessage) : Except DecodeError _).map ofMessage = .ok (parse s))) ∧
    (∀ s t : String, Option.Rel (SameLetters letters) (words s)[0]? (words t)[0]? →
      (words s)[1]? = (words t)[1]? → parse s = parse t) ∧
    ∀ m : Message.ImplicitMetaPolicy, 0 ≤ m.rule → m.rule ≤ 2 → (ofMessage m).toMessage = m := by
  refine ⟨?_, ?_, fun m => toMessage_ofMessage⟩
  · intro s
    refine ⟨isWord_subPolicy_parse s, parse_text (isWord_subPolicy_parse s), ?_⟩
    intro hwords
    rw [decode_toMessage (length_subPolicy_parse hwords), Except.map, ofMessage_toMessage]
  · intro s t hfirst hsecond
    rw [parse_eq_ofWords, parse_eq_ofWords, hsecond]
    generalize (words s)[0]? = v, (words t)[0]? = w at hfirst ⊢
    cases hfirst with
    | none => rfl
    | some hsame => rw [ofWords, ofWords, Option.bind_some, Option.bind_some, getD_ofName?_eq_of_sameLetters hsame]

/-- Blanks of several sorts around the words, a third word, and letters of either case; words that are no rule are the
same in capitals that know a letter beyond ASCII. -/
theorem parse_normal_form_words :
    let s := "\u2003aNy\u00a0\tReaders of\n"
    parse s = ⟨.any, "Readers"⟩ ∧ parse (parse s).text = parse s ∧
      (decode (encode (parse s).toMessage) : Except DecodeError _).map ofMessage = .ok (parse s) ∧
      parse "aLL" = parse "\tAlL\n" ∧ parse "Straße x" = parse "STRASSE x y" ∧
      (ofMessage ⟨"", 2⟩).toMessage = ⟨"", 2⟩ := by
  obtain ⟨hform, hsame, hmessage⟩ := parse_normal_form
  have hs : words "\u2003aNy\u00a0\tReaders of\n" = ["aNy", "Readers", "of"] := by decide
  have hsmall : words "Straße x" = ["Straße", "x"] := by decide
  have hlarge : words "STRASSE x y" = ["STRASSE", "x", "y"] := by decide
  have hall : words "aLL" = ["aLL"] := by decide
  have hblanks : words "\tAlL\n" = ["AlL"] := by decide
  have hascii : Text.Capitals letters fun c => [c.toUpper] := Text.capitals_toUpper toNat_lt_of_mem_letters
  let capital : Char → List Char := fun c => if c = 'ß' then ['S', 'S'] else [c.toUpper]
  have hcapital : Text.Capitals letters capital := by
    constructor
    · intro c hc
      have hne : c ≠ 'ß' := fun h => absurd (h ▸ hc) (by decide)
      rw [← hascii.ascii c hc]
      exact if_neg hne
    · intro c hc
      by_cases h : c = 'ß'
      · subst h
        exact ⟨'S', by decide, by decide⟩
      · obtain ⟨d, hd, hother⟩ := hascii.other c hc
        exact ⟨d, by simpa only [capital, if_neg h] using hd, hother⟩
  intro s
  refine ⟨?rule, (hform s).2.1, (hform s).2.2 ?short, hsame _ _ ?alone ?none, hsame _ _ ?first ?second,
    hmessage _ (by decide) (by decide)⟩
  case rule =>
    have hany : ofName? "aNy" = some .any := ofName?_eq_some_iff.2 (toUpper_of_toList (by decide))
    rw [parse_eq_ofWords, hs]
    simp [ofWords, hany]
  case short =>
    rw [hs]
    decide
  case alone =>
    rw [hall, hblanks]
    have hleft : "aLL".toUpper = "ALL" := toUpper_of_toList (by decide)
    have hright : "AlL".toUpper = "ALL" := toUpper_of_toList (by decide)
    exact .some (.of_toUpper_eq toNat_lt_of_mem_letters (hleft.trans hright.symm))
  case none => rw [hall, hblanks]; rfl
  case first =>
    rw [hsmall, hlarge]
    exact .some ⟨capital, hcapital, by decide⟩
  case second => rw [hsmall, hlarge]; rfl

end ImplicitPolicy

end Fabric

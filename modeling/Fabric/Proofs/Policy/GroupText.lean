import Fabric.Proofs.Policy.Envelope
import Fabric.Proofs.Policy.Kind
import Fabric.Proofs.Wire.Apparent

/-!
Texts that begin like a group. The kind of a text is told from its first letters and from what follows them, without
its tokens; still it is the kind of the policy that the text is read as. Main statement: of the texts that are read
as policies those of groups count as signature policies, and no others, and what is written for them is the policy.
-/
namespace Fabric

namespace PolicyInput

theorem opensGroup_iff {cs : List Char} : opensGroup cs = true ↔ ∃ rest, Text.trimStart cs = '(' :: rest := by
  rw [opensGroup]
  split
  · next rest h => simp [h]
  · next h => simpa using h

/-- A text counts as a signature policy by its leading word and by what opens behind it. -/
theorem kindOfText_eq_signature_iff {s : String} :
    kindOfText s = .signature ↔
      (∃ k : Compact.Keyword, (leadingWord s).1 = k.name) ∧ opensGroup (leadingWord s).2 = true := by
  simp only [kindOfText]
  constructor
  · intro h
    split at h
    · next hgroup =>
      simp only [List.contains_cons, List.contains_nil, Bool.or_false, Bool.and_eq_true, Bool.or_eq_true,
        beq_iff_eq] at hgroup
      obtain ⟨hword | hword | hword, hopens⟩ := hgroup
      · exact ⟨⟨.all, hword⟩, hopens⟩
      · exact ⟨⟨.any, hword⟩, hopens⟩
      · exact ⟨⟨.outOf, hword⟩, hopens⟩
    · split at h <;> cases h
  · intro h
    obtain ⟨⟨k, hk⟩, hopens⟩ := h
    rw [hk, hopens]
    cases k <;> rfl

end PolicyInput

namespace Compact

section Shape

variable {cs rest after : List Char} {w : String} {k : Keyword}

/-- A word is the first thing in the text that is not blank. -/
theorem Lexes.exists_word {ts : List Token} (h : Lexes cs (.word w :: ts)) :
    ∃ rest, Text.trimStart cs = w.toList ++ rest ∧ Lexes rest ts := by
  have hstop := (span_ends Text.isBlank cs).2
  rw [← lexes_dropWhile_iff] at h
  rw [Text.trimStart]
  generalize cs.dropWhile Text.isBlank = ds at h hstop
  cases h with
  | blank hc =>
    rw [hstop _ rfl] at hc
    cases hc
  | word _ _ _ _ h => exact ⟨_, by rw [String.toList_ofList], h⟩

theorem Lexes.exists_openParen {ts : List Token} (h : Lexes cs (.openParen :: ts)) :
    ∃ rest, Text.trimStart cs = '(' :: rest := by
  have hstop := (span_ends Text.isBlank cs).2
  rw [← lexes_dropWhile_iff] at h
  rw [Text.trimStart]
  generalize cs.dropWhile Text.isBlank = ds at h hstop
  cases h with
  | blank hc =>
    rw [hstop _ rfl] at hc
    cases hc
  | openParen => exact ⟨_, rfl⟩

/-- What stands in front of a parenthesis, but for blanks, is the parenthesis itself or a blank. -/
theorem wordEnds_of_trimStart (h : Text.trimStart rest = '(' :: after) : WordEnds rest := by
  intro c hc
  cases rest with
  | nil => cases hc
  | cons d ds =>
    cases hc
    cases hblank : Text.isBlank c with
    | true =>
      rw [← Bool.not_eq_true]
      intro hword
      rw [not_isBlank_of_isWordChar hword] at hblank
      cases hblank
    | false =>
      rw [Text.trimStart, List.dropWhile_cons_of_neg (by simp [hblank])] at h
      cases h
      rfl

/-- Letters and a parenthesis are what the text begins with, if it begins with a keyword and a parenthesis. -/
theorem leadingWord_eq {s : String} (hs : Text.trimStart s.toList = w.toList ++ rest) (hw : w.toUpper = k.name)
    (hrest : Text.trimStart rest = '(' :: after) : PolicyInput.leadingWord s = (k.name, rest) := by
  have hletters : ∀ c ∈ w.toList, c.isAlpha = true := isAlpha_of_toUpper_eq hw k.isAlpha_name
  have hstop : ∀ c, rest.head? = some c → c.isAlpha = false := by
    intro c hc
    rw [← Bool.not_eq_true]
    intro halpha
    exact absurd (isWordChar_of_isAlpha c halpha) (by simp [wordEnds_of_trimStart hrest c hc])
  have hspan := span_append hletters hstop
  rw [PolicyInput.leadingWord, hs, hspan.1, hspan.2, String.ofList_toList, hw]

end Shape

def leadingRun (s : String) : List Char := (Text.trimStart s.toList).takeWhile Char.isAlpha

def LeadsGroup (ts : List Token) : Prop :=
  ∃ (k : Keyword) (w : String) (us : List Token), w.toUpper = k.name ∧ ts = .word w :: .openParen :: us

/-- The letters of the text tell whether its tokens begin like a group. -/
theorem Lexes.kindOfText_eq_signature_iff {s : String} {ts : List Token} (h : Lexes s.toList ts) :
    PolicyInput.kindOfText s = .signature ↔ LeadsGroup ts := by
  rw [PolicyInput.kindOfText_eq_signature_iff, PolicyInput.opensGroup_iff]
  constructor
  · intro hshape
    obtain ⟨⟨k, hk⟩, after, hafter⟩ := hshape
    have hrun : leadingRun s ≠ [] := ne_nil_of_toUpper_eq hk (by cases k <;> decide)
    have hword : ∀ c ∈ leadingRun s, Token.isWordChar c = true := by
      intro c hc
      exact isWordChar_of_isAlpha c ((span_ends Char.isAlpha _).1 c hc)
    have hletter : ∃ c ∈ leadingRun s, c.isDigit = false := by
      obtain ⟨c, hc⟩ := List.exists_mem_of_ne_nil _ hrun
      exact ⟨c, hc, not_isDigit_of_isAlpha ((span_ends Char.isAlpha _).1 c hc)⟩
    have hsplit : leadingRun s ++ (PolicyInput.leadingWord s).2 = Text.trimStart s.toList :=
      List.takeWhile_append_dropWhile
    -- the letters end at the parenthesis or at a blank, so they are a token
    rw [← lexes_dropWhile_iff, ← Text.trimStart, ← hsplit, lexes_run_iff hrun hword (wordEnds_of_trimStart hafter),
      Token.ofRun_of_word hletter] at h
    obtain ⟨us, rfl, h⟩ := h
    rw [← lexes_dropWhile_iff, ← Text.trimStart, hafter] at h
    obtain ⟨vs, rfl, -⟩ := (splitsOff_symbol rfl after us).1 h
    exact ⟨k, _, vs, hk, rfl⟩
  · intro hleads
    obtain ⟨k, w, us, hw, rfl⟩ := hleads
    obtain ⟨rest, hs, h⟩ := h.exists_word
    obtain ⟨after, hafter⟩ := h.exists_openParen
    rw [leadingWord_eq hs hw hafter]
    exact ⟨⟨k, rfl⟩, after, hafter⟩

theorem Opens.leadsGroup {d : Demand} {opening : List Token} (ho : Opens d opening) (ts : List Token) :
    LeadsGroup (opening ++ ts) := by
  cases ho with
  | all h => exact ⟨.all, _, _, h, rfl⟩
  | any h => exact ⟨.any, _, _, h, rfl⟩
  | outOf h => exact ⟨.outOf, _, _, h, rfl⟩

/-- Tokens begin like a group if they derive one. -/
theorem Derives.leadsGroup_iff {e : Expr} {ts : List Token} (he : Derives e ts) :
    LeadsGroup ts ↔ ∃ n rules, e.policy.rule = .nOutOf n rules := by
  cases he with
  | word h | quoted h =>
    constructor
    · intro hleads
      obtain ⟨k, w, us, -, hts⟩ := hleads
      cases hts
    · intro hrule
      obtain ⟨n, rules, hrule⟩ := hrule
      cases hrule
  | group ho ha hd =>
    constructor
    · intro _
      exact ⟨_, _, rfl⟩
    · intro _
      exact ho.leadsGroup _

/-- The kind of a text that is read as a policy is told by its rule. -/
theorem kindOfText_eq_signature_iff {s : String} {p : Policy} (h : parse s = .ok p) :
    PolicyInput.kindOfText s = .signature ↔ ∃ n rules, p.rule = .nOutOf n rules := by
  obtain ⟨e, ⟨ts, hlexes, he⟩, -, rfl, -⟩ := parse_eq_ok_iff.1 h
  rw [hlexes.kindOfText_eq_signature_iff, he.leadsGroup_iff]

end Compact

namespace PolicySpec

open Message (ConfigPolicy PolicyEnvelope)
open Wire (Codec Fields Value blockNesting decode encode length_le_of_putBytes maxNesting)

theorem ofInput_of_kind {s : String} {p : Policy} (hkind : PolicyInput.kindOfText s = .signature)
    (h : Compact.parse s = .ok p) : ofInput (.compact s) = .ok (.signature p) := by
  simp only [ofInput, PolicyInput.kind, hkind, PolicyInput.normalize, h, Except.map]

theorem length_encode_le (p : Policy) : p.encode.length ≤ (encode (signature p).toMessage).length := by
  have hfields : Fields.putBytes 2 p.encode ⊆ Codec.toFields (signature p).toMessage := List.subset_append_right ..
  exact length_le_of_putBytes hfields

section Message

variable {p : Policy} (hnames : ∀ x ∈ p.identities, (Bytes.ofText x.mspId).length ≤ Policy.longestMspId)
  (hlen : (encode (signature p).toMessage).length < UInt64.size)
include hnames hlen

/-- The message around a policy is a level more than the policy. -/
theorem decode_toMessage (hdeep : p.rule.nesting ≤ Policy.maxDepth) :
    decode (encode (signature p).toMessage) = .ok (signature p).toMessage := by
  have hvalue : blockNesting p.encode ≤ maxNesting - 1 := by
    rw [Policy.encode, (PolicyEnvelope.faithful _).blockNesting_encode (Nat.lt_of_le_of_lt (length_encode_le p) hlen)]
    exact Nat.le_sub_one_of_lt (Policy.apparent_toMessage_lt hnames hdeep)
  have hfields : Value.apparentOfFields (Codec.toFields (signature p).toMessage) ≤ maxNesting - 1 + 1 :=
    Value.apparentOfFields_append_le_iff.2
      ⟨Value.apparentOfFields_putInt32, Value.apparentOfFields_putBytes_le_iff.2 hvalue⟩
  rw [(ConfigPolicy.faithful _).decode_encode hlen]
  exact if_pos hfields

theorem decode_value (hvalid : p.validate = .ok ()) (hidentities : p.identities.length ≤ signedSize)
    (hgroups : p.rule.GroupsBelow signedSize) : Policy.decode (signature p).toMessage.value = .ok p :=
  Policy.decode_encode hnames hvalid hidentities hgroups (Nat.lt_of_le_of_lt (length_encode_le p) hlen)

end Message

/-- Of the texts that are read as policies those of groups count as signature policies, and no others; and a text of a
group is written as the policy that it is read as. The bounds are those on what can be written in a message, where no
encoding is longer than a length can say. -/
theorem ofInput_group {s : String} {p : Policy} (h : Compact.parse s = .ok p) :
    ((PolicyInput.compact s).kind = .signature ↔ ∃ n rules, p.rule = .nOutOf n rules) ∧
    ∀ n rules, p.rule = .nOutOf n rules →
      ofInput (.compact s) = .ok (.signature p) ∧ (signature p).toMessage.type = 1 ∧
      ((∀ x ∈ p.identities, (Bytes.ofText x.mspId).length ≤ Policy.longestMspId) →
        p.identities.length ≤ signedSize → p.rule.GroupsBelow signedSize →
        (encode (signature p).toMessage).length < UInt64.size →
        decode (encode (signature p).toMessage) = .ok (signature p).toMessage ∧
          Policy.decode (signature p).toMessage.value = .ok p) := by
  obtain ⟨-, -, -, -, hvalid⟩ := Compact.parse_eq_ok_iff.1 h
  have hkind := Compact.kindOfText_eq_signature_iff h
  refine ⟨hkind, ?_⟩
  intro n rules hrule
  refine ⟨ofInput_of_kind (hkind.2 ⟨n, rules, hrule⟩) h, rfl, ?_⟩
  intro hnames hidentities hgroups hlen
  exact ⟨decode_toMessage hnames hlen (Policy.validate_eq_ok_iff.1 hvalid).2,
    decode_value hnames hlen hvalid hidentities hgroups⟩

/-- A group in letters of either case, with blanks of several sorts around and in it, quotes of both sorts and a group
inside. -/
theorem ofInput_group_blanks :
    let s := "\u00A0oUtOf\u2003(1,'A.member' , And(\"b.Peer\"))\u3000"
    let p : Policy := ⟨0, [⟨"A", .member⟩, ⟨"b", .peer⟩], .nOutOf 1 [.signedBy 0, .nOutOf 1 [.signedBy 1]]⟩
    Compact.parse s = .ok p ∧ (PolicyInput.compact s).kind = .signature ∧
      ofInput (.compact s) = .ok (.signature p) ∧ (signature p).toMessage.type = 1 ∧
      Policy.decode (signature p).toMessage.value = .ok p := by
  have hs : "\u00A0oUtOf\u2003(1,'A.member' , And(\"b.Peer\"))\u3000".toList = '\u00A0' :: ("oUtOf".toList ++
      '\u2003' :: ("(1,'A.member' , ".toList ++ ("And(\"b.Peer\"))".toList ++ ['\u3000']))) := by decide
  intro s p
  let inner : List Compact.Token := [.word "And", .openParen, .quoted "b.Peer", .closeParen, .closeParen]
  have hinner : Compact.Lexes ("And(\"b.Peer\"))".toList ++ ['\u3000']) inner :=
    @Compact.Lexes.word ['A', 'n', 'd'] _ _ (by decide) (List.all_eq_true.1 rfl) ⟨'A', by simp, rfl⟩
      (Compact.wordEnds_cons rfl)
      (.openParen (@Compact.Lexes.quoted '"' ['b', '.', 'P', 'e', 'e', 'r'] _ _ rfl (by decide)
        (.closeParen (.closeParen (.blank rfl .done)))))
  have hcount : Compact.Lexes ("(1,'A.member' , ".toList ++ ("And(\"b.Peer\"))".toList ++ ['\u3000']))
      (.openParen :: .number "1" :: .comma :: .quoted "A.member" :: .comma :: inner) :=
    .openParen (@Compact.Lexes.number ['1'] _ _ (by decide) (List.all_eq_true.1 rfl) (Compact.wordEnds_cons rfl)
      (.comma (@Compact.Lexes.quoted '\'' ['A', '.', 'm', 'e', 'm', 'b', 'e', 'r'] _ _ rfl (by decide)
        (.blank rfl (.comma (.blank rfl hinner))))))
  have hlexes : Compact.Lexes s.toList
      (.word "oUtOf" :: .openParen :: .number "1" :: .comma :: .quoted "A.member" :: .comma :: inner) := by
    rw [hs]
    exact .blank rfl (@Compact.Lexes.word ['o', 'U', 't', 'O', 'f'] _ _ (by decide) (List.all_eq_true.1 rfl)
      ⟨'o', by simp, rfl⟩ (Compact.wordEnds_cons rfl) (.blank rfl hcount))
  have ha : Principal.NamedBy ⟨"A", .member⟩ "A.member" :=
    ⟨by decide, "member", by decide, by decide, toUpper_of_toList (by decide)⟩
  have hb : Principal.NamedBy ⟨"b", .peer⟩ "b.Peer" :=
    ⟨by decide, "Peer", by decide, by decide, toUpper_of_toList (by decide)⟩
  have houter : Compact.Opens (.outOf 1) [.word "oUtOf", .openParen, .number "1", .comma] :=
    .outOf (toUpper_of_toList (by decide)) (by decide)
  have hand : Compact.Opens .all [.word "And", .openParen] := .all (toUpper_of_toList (by decide))
  have hreads : Compact.Reads s (.group (.outOf 1)
      [.principal ⟨"A", .member⟩, .group .all [.principal ⟨"b", .peer⟩]]) := by
    refine ⟨_, hlexes, .group houter (.more (.quoted ha) (.one (.group hand (.one (.quoted hb)) trivial))) ?_⟩
    exact ⟨by decide, by decide⟩
  have hcountable : (Compact.Expr.group (.outOf 1)
      [.principal ⟨"A", .member⟩, .group .all [.principal ⟨"b", .peer⟩]]).Countable := by
    simp [Compact.Expr.Countable, Compact.Expr.AllCountable, UInt32.size]
  have hparse : Compact.parse s = .ok p := by
    rw [Compact.parse_of_reads hreads hcountable (by decide)]
    rfl
  obtain ⟨hkind, hgroup⟩ := ofInput_group hparse
  obtain ⟨hinput, htype, hencoded⟩ := hgroup 1 _ rfl
  have hnames : ∀ x ∈ p.identities, (Bytes.ofText x.mspId).length ≤ Policy.longestMspId := by
    rw [List.forall_mem_cons, List.forall_mem_singleton]
    exact ⟨by decide, by decide⟩
  have hbelow : p.rule.GroupsBelow signedSize := by
    simp [p, Rule.GroupsBelow, Rule.AllGroupsBelow, signedSize]
  exact ⟨hparse, hkind.2 ⟨_, _, rfl⟩, hinput, htype, (hencoded hnames (by decide) hbelow (by decide +kernel)).2⟩

end PolicySpec

end Fabric

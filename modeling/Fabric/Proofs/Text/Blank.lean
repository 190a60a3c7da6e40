import Fabric.Proofs.Traverse
import Fabric.Text.Blank

namespace Fabric

/-- Two runs from the beginning agree if the items of the longer one are all of the narrower sort. -/
theorem takeWhile_eq_of_forall {α : Type} {p q : α → Bool} {l : List α} (hqp : ∀ a, q a = true → p a = true)
    (h : ∀ a ∈ l.takeWhile p, q a = true) : l.takeWhile p = l.takeWhile q := by
  induction l with
  | nil => rfl
  | cons a l ih =>
    cases hp : p a with
    | false =>
      have hq : ¬ q a = true := fun hq => by simp [hqp a hq] at hp
      rw [List.takeWhile_cons_of_neg (by simp [hp]), List.takeWhile_cons_of_neg hq]
    | true =>
      rw [List.takeWhile_cons_of_pos hp, List.forall_mem_cons] at h
      rw [List.takeWhile_cons_of_pos hp, List.takeWhile_cons_of_pos h.1, ih h.2]

theorem isAlpha_of_isAlpha_toUpper {c : Char} (h : c.toUpper.isAlpha = true) : c.isAlpha = true := by
  by_cases hc : 'a'.val ≤ c.val ∧ c.val ≤ 'z'.val
  · -- what has a capital of its own is a small letter
    have hlower : c.isLower = true := Bool.and_eq_true_iff.2 ⟨decide_eq_true hc.1, decide_eq_true hc.2⟩
    exact Bool.or_eq_true_iff.2 (.inr hlower)
  · have hsame : c.toUpper = c := dif_neg hc
    rwa [hsame] at h

/-- A text in letters, whatever their case, is made of letters. -/
theorem isAlpha_of_toUpper_eq {s t : String} (h : s.toUpper = t) (ht : t.toList.all Char.isAlpha = true) :
    ∀ c ∈ s.toList, c.isAlpha = true := by
  intro c hc
  apply isAlpha_of_isAlpha_toUpper
  apply List.all_eq_true.1 ht
  rw [← h, String.toUpper, String.toList_map]
  exact List.mem_map_of_mem hc

namespace Text

/-- Trimming takes nothing but blanks from the end. -/
theorem exists_trimStart_eq (s : String) :
    ∃ after : List Char, trimStart s.toList = (trim s).toList ++ after ∧ ∀ c ∈ after, isBlank c = true := by
  let cs := trimStart s.toList
  refine ⟨(cs.reverse.takeWhile isBlank).reverse, ?_, ?_⟩
  · rw [trim, String.toList_ofList, trimEnd, ← List.reverse_append, List.takeWhile_append_dropWhile,
      List.reverse_reverse]
  · intro c hc
    exact (span_ends isBlank cs.reverse).1 c (List.mem_reverse.1 hc)

theorem dropBlanks_trim (s : String) : dropBlanks (trim s) = dropBlanks s := by
  obtain ⟨after, hsplit, hafter⟩ := exists_trimStart_eq s
  have hblank : ∀ run : List Char, (∀ c ∈ run, isBlank c = true) → run.filter (fun c => !isBlank c) = [] := by
    intro run hrun
    rw [List.filter_eq_nil_iff]
    intro c hc
    simp [hrun c hc]
  have hs : s.toList = s.toList.takeWhile isBlank ++ ((trim s).toList ++ after) := by
    rw [← hsplit, trimStart, List.takeWhile_append_dropWhile]
  rw [dropBlanks, dropBlanks, hs, List.filter_append, List.filter_append, hblank _ (span_ends isBlank s.toList).1,
    hblank after hafter, List.nil_append, List.append_nil]

theorem dropBlanks_eq_nil_of_isBlankText {s : String} (h : isBlankText s = true) : dropBlanks s = [] := by
  rw [dropBlanks, List.filter_eq_nil_iff]
  intro c hc
  simp [List.all_eq_true.1 h c hc]

inductive Spaced : List Char → List Char → Prop
  | nil : Spaced [] []
  | keep (c : Char) {cs ds : List Char} (h : Spaced cs ds) : Spaced (c :: cs) (c :: ds)
  | blank {c : Char} (hc : isBlank c = true) {cs ds : List Char} (h : Spaced cs ds) : Spaced cs (c :: ds)

theorem Spaced.filter_eq {cs ds : List Char} (h : Spaced cs ds) :
    ds.filter (fun c => !isBlank c) = cs.filter fun c => !isBlank c := by
  induction h with
  | nil => rfl
  | keep c _ ih => rw [List.filter_cons, List.filter_cons, ih]
  | blank hc _ ih => rw [List.filter_cons_of_neg (by simp [hc]), ih]

theorem spaced_filter (ds : List Char) : Spaced (ds.filter fun c => !isBlank c) ds := by
  induction ds with
  | nil => exact .nil
  | cons c ds ih =>
    cases hc : isBlank c with
    | true =>
      rw [List.filter_cons_of_neg (by simp [hc])]
      exact .blank hc ih
    | false =>
      rw [List.filter_cons_of_pos (by simp [hc])]
      exact .keep c ih

/-- Where a text has no blanks of its own, those that were put in are all that there are. -/
theorem spaced_iff {s w : String} (hs : ∀ c ∈ s.toList, isBlank c = false) :
    Spaced s.toList w.toList ↔ dropBlanks w = s.toList := by
  constructor
  · intro h
    have hown : s.toList.filter (fun c => !isBlank c) = s.toList := by
      rw [List.filter_eq_self]
      intro c hc
      rw [hs c hc]
      rfl
    rw [dropBlanks, h.filter_eq, hown]
  · intro h
    rw [← h]
    exact spaced_filter w.toList

/-- What stands between blanks is what is left when they are trimmed. -/
theorem trim_eq_of_append {s : String} {run after : List Char} (hs : trimStart s.toList = run ++ after)
    (hrun : ∀ c ∈ run, isBlank c = false) (hafter : ∀ c ∈ after, isBlank c = true) :
    trim s = String.ofList run := by
  have hstop : ∀ c, run.reverse.head? = some c → isBlank c = false := by
    intro c hc
    apply hrun
    rw [List.head?_reverse] at hc
    exact List.mem_of_getLast? hc
  have hblank : ∀ c ∈ after.reverse, isBlank c = true := fun c hc => hafter c (List.mem_reverse.1 hc)
  rw [trim, hs, trimEnd, List.reverse_append, (span_append hblank hstop).2, List.reverse_reverse]

/-- What a text begins with is kept when it is trimmed, if it holds no blanks. -/
theorem isPrefixOf_trim {run : List Char} (hrun : ∀ c ∈ run, isBlank c = false) {s : String}
    (h : run.isPrefixOf (trimStart s.toList) = true) : run.isPrefixOf (trim s).toList = true := by
  obtain ⟨after, hsplit, hafter⟩ := exists_trimStart_eq s
  rw [List.isPrefixOf_iff_prefix, hsplit] at h
  rw [List.isPrefixOf_iff_prefix]
  rcases Nat.le_total run.length (trim s).toList.length with hshort | hlong
  · exact List.prefix_of_prefix_length_le h (List.prefix_append ..) hshort
  · -- what reached beyond the trimmed text would be blank
    obtain ⟨rest, rfl⟩ := List.prefix_of_prefix_length_le (List.prefix_append ..) h hlong
    obtain rfl : rest = [] := by
      rw [List.eq_nil_iff_forall_not_mem]
      intro c hc
      have hblank := hafter c (((List.prefix_append_right_inj _).1 h).subset hc)
      rw [hrun c (List.mem_append_right _ hc)] at hblank
      cases hblank
    simp only [List.append_nil, List.prefix_rfl]

def wordRuns (cs : List Char) : List (List Char) :=
  let (w, ws) := cs.foldr splitStep ([], [])
  if w.isEmpty then ws else w :: ws

theorem words_eq_wordRuns (s : String) : words s = (wordRuns s.toList).map String.ofList := rfl

theorem wordRuns_blank {c : Char} (hc : isBlank c = true) (cs : List Char) : wordRuns (c :: cs) = wordRuns cs := by
  simp [wordRuns, splitStep, hc]

theorem wordRuns_trimStart (cs : List Char) : wordRuns (trimStart cs) = wordRuns cs := by
  induction cs with
  | nil => rfl
  | cons c cs ih =>
    cases hc : isBlank c with
    | true => rw [trimStart, List.dropWhile_cons_of_pos hc, wordRuns_blank hc, ← ih, trimStart]
    | false => rw [trimStart, List.dropWhile_cons_of_neg (by simp [hc])]

/-- The word being read is the run of characters that are not blank from here on. -/
theorem foldr_splitStep_fst (cs : List Char) :
    (cs.foldr splitStep ([], [])).1 = cs.takeWhile fun c => !isBlank c := by
  induction cs with
  | nil => rfl
  | cons c cs ih =>
    rw [List.foldr_cons, splitStep]
    cases hc : isBlank c with
    | true => simp [hc]
    | false => simp [hc, ih]

theorem exists_wordRuns_cons {c : Char} {cs : List Char} (hc : isBlank c = false) :
    ∃ rest, wordRuns (c :: cs) = ((c :: cs).takeWhile fun c => !isBlank c) :: rest := by
  have hfst := foldr_splitStep_fst (c :: cs)
  have hne : ((c :: cs).takeWhile fun c => !isBlank c).isEmpty = false := by
    simp [hc]
  refine ⟨((c :: cs).foldr splitStep ([], [])).2, ?_⟩
  simp only [wordRuns, hfst, hne, Bool.false_eq_true, if_false]

/-- The first word of a text goes from the first character that is not blank to the next blank. -/
theorem exists_words_eq {s : String} {c : Char} {cs : List Char} (h : trimStart s.toList = c :: cs) :
    ∃ rest, words s = String.ofList ((c :: cs).takeWhile fun c => !isBlank c) :: rest := by
  have hc : isBlank c = false := (span_ends isBlank s.toList).2 c (by rw [← trimStart, h]; rfl)
  obtain ⟨rest, hrest⟩ := exists_wordRuns_cons hc
  refine ⟨rest.map String.ofList, ?_⟩
  rw [words_eq_wordRuns, ← wordRuns_trimStart, h, hrest, List.map_cons]

end Text

end Fabric

import Fabric.Proofs.Text.Blank

namespace Fabric.Text

structure IsWord (w : String) : Prop where
  ne_empty : w ≠ ""
  not_isBlank : ∀ c ∈ w.toList, isBlank c = false

/-- Characters that are not blank go in front of the word being read. -/
theorem foldr_splitStep_run {run : List Char} (hrun : ∀ c ∈ run, isBlank c = false)
    (acc : List Char × List (List Char)) : run.foldr splitStep acc = (run ++ acc.1, acc.2) := by
  induction run with
  | nil => rfl
  | cons c run ih =>
    rw [List.forall_mem_cons] at hrun
    rw [List.foldr_cons, ih hrun.2, splitStep, hrun.1]
    rfl

/-- A blank ends the word being read, if there is one. -/
theorem foldr_splitStep_blank {c : Char} (hc : isBlank c = true) (cs : List Char) :
    (c :: cs).foldr splitStep ([], []) = ([], wordRuns cs) := by
  rw [List.foldr_cons, splitStep, hc]
  rfl

section Runs

variable {run : List Char} (hne : run ≠ []) (hrun : ∀ c ∈ run, isBlank c = false)
include hne hrun

theorem wordRuns_run : wordRuns run = [run] := by
  rw [wordRuns, foldr_splitStep_run hrun]
  simp [hne]

theorem wordRuns_append {c : Char} (hc : isBlank c = true) (cs : List Char) :
    wordRuns (run ++ c :: cs) = run :: wordRuns cs := by
  rw [wordRuns, List.foldr_append, foldr_splitStep_blank hc, foldr_splitStep_run hrun]
  simp [hne]

end Runs

/-- The word being read is one more word, if there is one. -/
theorem forall_mem_wordRuns {P : List Char → Prop} {cs : List Char}
    (hword : (cs.foldr splitStep ([], [])).1 ≠ [] → P (cs.foldr splitStep ([], [])).1)
    (hwords : ∀ run ∈ (cs.foldr splitStep ([], [])).2, P run) : ∀ run ∈ wordRuns cs, P run := by
  rw [wordRuns]
  by_cases hempty : (cs.foldr splitStep ([], [])).1 = []
  · simpa [hempty] using hwords
  · simpa [hempty] using ⟨hword hempty, hwords⟩

/-- Neither the word being read nor those after it have blanks in them, and these are not empty. -/
theorem foldr_splitStep_words (cs : List Char) :
    (∀ c ∈ (cs.foldr splitStep ([], [])).1, isBlank c = false) ∧
      ∀ run ∈ (cs.foldr splitStep ([], [])).2, run ≠ [] ∧ ∀ c ∈ run, isBlank c = false := by
  induction cs with
  | nil => exact ⟨List.forall_mem_nil _, List.forall_mem_nil _⟩
  | cons c cs ih =>
    obtain ⟨hword, hwords⟩ := ih
    cases hc : isBlank c with
    | false =>
      rw [List.foldr_cons, splitStep, hc]
      exact ⟨List.forall_mem_cons.2 ⟨hc, hword⟩, hwords⟩
    | true =>
      rw [foldr_splitStep_blank hc]
      exact ⟨List.forall_mem_nil _, forall_mem_wordRuns (fun hne => ⟨hne, hword⟩) hwords⟩

theorem isWord_of_mem_words {s w : String} (h : w ∈ words s) : IsWord w := by
  obtain ⟨hword, hwords⟩ := foldr_splitStep_words s.toList
  rw [words_eq_wordRuns, List.mem_map] at h
  obtain ⟨run, hmem, rfl⟩ := h
  obtain ⟨hne, hrun⟩ := forall_mem_wordRuns (fun hne => ⟨hne, hword⟩) hwords run hmem
  constructor
  · intro h
    exact hne (String.ofList_eq_empty_iff.1 h)
  · rw [String.toList_ofList]
    exact hrun

/-- Two words with a blank between them. -/
theorem words_of_two {v w : String} (hv : IsWord v) (hw : IsWord w) : words (v ++ " " ++ w) = [v, w] := by
  have hsplit : (v ++ " " ++ w).toList = v.toList ++ ' ' :: w.toList := by simp
  have hv' : v.toList ≠ [] := by simpa using hv.ne_empty
  have hw' : w.toList ≠ [] := by simpa using hw.ne_empty
  rw [words_eq_wordRuns, hsplit, wordRuns_append hv' hv.not_isBlank rfl, wordRuns_run hw' hw.not_isBlank]
  simp

structure Capitals (letters : List Char) (fold : Char → List Char) : Prop where
  ascii : ∀ c : Char, c.toNat < 128 → fold c = [c.toUpper]
  other : ∀ c : Char, 128 ≤ c.toNat → ∃ d ∈ fold c, d ∉ letters

/-- Some way of writing characters in capitals makes the two words the same. -/
def SameLetters (letters : List Char) (v w : String) : Prop :=
  ∃ fold, Capitals letters fold ∧ v.toList.flatMap fold = w.toList.flatMap fold

/-- The capitals of ASCII, with all other characters left as they are. -/
theorem capitals_toUpper {letters : List Char} (hletters : ∀ c ∈ letters, c.toNat < 128) :
    Capitals letters fun c => [c.toUpper] where
  ascii _ _ := rfl
  other c hc := by
    have hsame : c.toUpper = c := by
      apply dif_neg
      intro hlower
      have hz : c.toNat ≤ 'z'.toNat := UInt32.le_iff_toNat_le.1 hlower.2
      exact absurd (Nat.le_trans hc hz) (by decide)
    refine ⟨c, by rw [hsame]; exact List.mem_singleton_self c, ?_⟩
    intro hmem
    exact Nat.not_lt.2 hc (hletters c hmem)

theorem SameLetters.symm {letters : List Char} {v w : String} (h : SameLetters letters v w) :
    SameLetters letters w v := by
  obtain ⟨fold, hfold, heq⟩ := h
  exact ⟨fold, hfold, heq.symm⟩

theorem toNat_lt_of_isAlpha {c : Char} (h : c.isAlpha = true) : c.toNat < 128 := by
  rcases Bool.or_eq_true_iff.1 h with h | h
  · have hupper : 0x41 ≤ c.toNat ∧ c.toNat ≤ 0x5A := of_decide_eq_true h
    omega
  · have hlower : c.toNat ≤ 0x7A := of_decide_eq_true (Bool.and_eq_true_iff.1 h).2
    omega

/-- A text is written in capitals as usual if each of its characters is. -/
theorem flatMap_eq_toUpper {fold : Char → List Char} {s : String} (h : ∀ c ∈ s.toList, fold c = [c.toUpper]) :
    s.toList.flatMap fold = s.toUpper.toList := by
  rw [String.toUpper, String.toList_map, List.map_eq_flatMap]
  generalize s.toList = cs at h ⊢
  induction cs with
  | nil => rfl
  | cons c cs ih =>
    rw [List.forall_mem_cons] at h
    rw [List.flatMap_cons, List.flatMap_cons, h.1, ih h.2]

theorem SameLetters.of_toUpper_eq {letters : List Char} (hletters : ∀ c ∈ letters, c.toNat < 128) {v w : String}
    (h : v.toUpper = w.toUpper) : SameLetters letters v w := by
  refine ⟨_, capitals_toUpper hletters, ?_⟩
  rw [flatMap_eq_toUpper fun _ _ => rfl, flatMap_eq_toUpper fun _ _ => rfl, h]

/-- The case of its letters makes no difference to whether a word is a name in these letters. -/
theorem SameLetters.toUpper_eq {letters : List Char} {v w name : String} (h : SameLetters letters v w)
    (hname : ∀ c ∈ name.toList, c.isAlpha = true ∧ c ∈ letters) (hv : v.toUpper = name) : w.toUpper = name := by
  obtain ⟨fold, hfold, heq⟩ := h
  have halpha : ∀ c ∈ v.toList, c.isAlpha = true :=
    isAlpha_of_toUpper_eq hv (List.all_eq_true.2 fun c hc => (hname c hc).1)
  have hcapitals : w.toList.flatMap fold = name.toList := by
    rw [← heq, flatMap_eq_toUpper fun c hc => hfold.ascii c (toNat_lt_of_isAlpha (halpha c hc)), hv]
  -- what is not ASCII would bring in another letter
  have hascii : ∀ c ∈ w.toList, c.toNat < 128 := by
    intro c hc
    rw [← Nat.not_le]
    intro hlarge
    obtain ⟨d, hd, hother⟩ := hfold.other c hlarge
    have hmem : d ∈ name.toList := hcapitals ▸ List.mem_flatMap.2 ⟨c, hc, hd⟩
    exact hother (hname d hmem).2
  rwa [flatMap_eq_toUpper fun c hc => hfold.ascii c (hascii c hc), String.toList_inj] at hcapitals

end Fabric.Text

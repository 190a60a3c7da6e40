import Fabric.Policy.Canonical
import Fabric.Proofs.Json.Nesting

/-!
The moments of reading a text from its start, token by token, whether it ends in a document or not. Main statement: at
none of them are more arrays and objects open than the brackets of the text are nested, so a limit on brackets is a
limit on what the reader has open.
-/
namespace Fabric.Json

namespace BracketScan

theorem deepest_le_step (s : BracketScan) (c : Char) : s.deepest ≤ (s.step c).deepest := by
  unfold step
  split
  · split
    · exact Nat.le_refl _
    · split
      · exact Nat.le_refl _
      · split <;> exact Nat.le_refl _
  · split
    · exact Nat.le_refl _
    · split
      · exact Nat.le_max_left ..
      · split <;> exact Nat.le_refl _

theorem deepest_le_foldl (s : BracketScan) (cs : List Char) : s.deepest ≤ (cs.foldl step s).deepest := by
  induction cs generalizing s with
  | nil => exact Nat.le_refl _
  | cons c cs ih => exact Nat.le_trans (s.deepest_le_step c) (ih (s.step c))

/-- No more brackets are open than ever were. -/
theorem depth_le_deepest_token {s : BracketScan} (h : s.depth ≤ s.deepest) (t : Token) :
    (s.token t).depth ≤ (s.token t).deepest := by
  cases t with
  | openArray | openObject => exact Nat.le_max_right ..
  | closeArray | closeObject => exact Nat.le_trans (Nat.sub_le ..) h
  | _ => exact h

end BracketScan

namespace Reader

inductive Reaches (text : String) : Reader → List Char → Prop
  | start : Reaches text start text.toList
  | token {r r' : Reader} {left cs rest : List Char} {c : Char} {t : Token} (h : Reaches text r left)
      (hleft : left.dropWhile Token.isSpace = c :: cs) (hread : Token.read c cs = some (t, rest))
      (hstep : r.step t = some r') : Reaches text r' rest

variable {text : String} {r r' : Reader} {left : List Char}

theorem Reaches.depth_le_deepest (h : Reaches text r left) : r.scan.depth ≤ r.scan.deepest := by
  induction h with
  | start => exact Nat.le_refl _
  | token _ _ _ hstep ih =>
    rw [scan_step hstep]
    exact BracketScan.depth_le_deepest_token ih _

/-- The scan of the text goes on from where the reader is. -/
theorem Reaches.foldl_eq (h : Reaches text r left) :
    text.toList.foldl BracketScan.step .start = left.foldl BracketScan.step r.scan := by
  induction h with
  | start => rfl
  | @token r r' left cs rest c t _ hleft hread hstep ih =>
    calc
      text.toList.foldl BracketScan.step .start = scanOutside r.frames.length r.deepest left := ih
      _ = scanOutside r.frames.length r.deepest (c :: cs) := by rw [scanOutside_spaces, hleft]
      _ = rest.foldl BracketScan.step (r.scan.token t) := scanOutside_read hread
      _ = rest.foldl BracketScan.step r'.scan := by rw [scan_step hstep]

theorem Reaches.length_frames_le (h : Reaches text r left) : r.frames.length ≤ bracketNesting text := by
  calc
    r.frames.length = r.scan.depth := rfl
    _ ≤ r.scan.deepest := h.depth_le_deepest
    _ ≤ (left.foldl BracketScan.step r.scan).deepest := BracketScan.deepest_le_foldl ..
    _ = bracketNesting text := by rw [bracketNesting, h.foldl_eq]

theorem splitOnto_of_read {left cs rest : List Char} {c : Char} {t : Token}
    (hleft : left.dropWhile Token.isSpace = c :: cs) (hread : Token.read c cs = some (t, rest)) :
    Token.splitOnto [] left = t :: Token.splitOnto [] rest := by
  rw [splitOnto_eq, hleft]
  simp only [hread]
  rw [splitOnto_eq_append]
  rfl

theorem Reaches.run_eq (h : Reaches text r left) :
    Reader.start.run (Token.split text) = r.run (Token.splitOnto [] left) := by
  induction h with
  | start => rfl
  | token _ hleft hread hstep ih =>
    rw [ih, splitOnto_of_read hleft hread, run, List.foldlM_cons, hstep]
    rfl

/-- A reader that takes all tokens comes to the end of the text, but for blanks. -/
theorem Reaches.exists_end (h : Reaches text r left) (hrun : r.run (Token.splitOnto [] left) = some r') :
    ∃ blanks, Reaches text r' blanks ∧ blanks.dropWhile Token.isSpace = [] := by
  -- a token takes characters, so the induction is on how many are left
  induction hn : left.length using Nat.strongRecOn generalizing left r with
  | ind n ih =>
    have hlen := (List.dropWhile_sublist Token.isSpace (l := left)).length_le
    cases hleft : left.dropWhile Token.isSpace with
    | nil =>
      rw [splitOnto_eq, hleft] at hrun
      cases hrun
      exact ⟨left, h, hleft⟩
    | cons c cs =>
      rw [hleft, List.length_cons] at hlen
      cases hread : Token.read c cs with
      | none =>
        rw [splitOnto_eq, hleft] at hrun
        simp only [hread] at hrun
        exact absurd (List.mem_singleton_self _) (invalid_notMem_of_run hrun)
      | some q =>
        obtain ⟨t, rest⟩ := q
        have hle := Token.read_length hread
        rw [splitOnto_of_read hleft hread] at hrun
        obtain ⟨r₁, hstep, hrun⟩ := run_cons_eq_some_iff.1 hrun
        exact ih rest.length (by omega) (.token h hleft hread hstep) hrun rfl

/-- A document is read where the reader comes to the end of the text with it. -/
theorem read?_eq_some_iff {d : Document} : Document.read? text = some d ↔
    ∃ r left, Reaches text r left ∧ left.dropWhile Token.isSpace = [] ∧ r.stage = .finished d := by
  constructor
  · intro h
    rw [Document.read?, Document.ofTokens?] at h
    split at h
    · next hrun =>
      cases h
      obtain ⟨blanks, hreaches, hblanks⟩ := Reaches.start.exists_end hrun
      exact ⟨_, blanks, hreaches, hblanks, rfl⟩
    · cases h
  · intro h
    obtain ⟨⟨stage, frames⟩, left, hreaches, hblanks, rfl⟩ := h
    have hrun : start.run (Token.split text) = some ⟨.finished d, frames⟩ := by
      rw [hreaches.run_eq, splitOnto_eq, hblanks]
      rfl
    rw [Document.read?, Document.ofTokens?, hrun]

end Reader

/-- At any moment of reading a text, whether it ends in a document or in an error, no more arrays and objects are open
than its brackets are nested; and the brackets of a text that gives no key of an object twice are nested as its value.
So the text of a policy is refused unread, or never has more than the limit of them open. -/
theorem brackets_bound_reader :
    (∀ (text : String) (r : Reader) (left : List Char), r.Reaches text left →
      r.frames.length ≤ bracketNesting text) ∧
    (∀ (text : String) (d : Document), Document.read? text = some d ↔
      ∃ r left, Reader.Reaches text r left ∧ left.dropWhile Token.isSpace = [] ∧ r.stage = .finished d) ∧
    (∀ (text : String) (v : Json), Writes text v → bracketNesting text = v.nesting) ∧
    ∀ text : String,
      (3 * 1000 + 8 < bracketNesting text ∧ Policy.parseJson text = .error (.tooDeep 1000)) ∨
      ((Policy.parseJson text = match Json.parse? text with
          | some v => .ok v
          | none => .error (.json .malformed)) ∧
        ∀ r left, Reader.Reaches text r left → r.frames.length ≤ 3 * 1000 + 8) := by
  refine ⟨?_, ?_, ?_, ?_⟩
  · exact fun text r left h => Reader.Reaches.length_frames_le h
  · exact fun text d => Reader.read?_eq_some_iff
  · exact fun text v h => h.bracketNesting
  · intro text
    -- the brackets are counted before anything is read
    rcases Nat.lt_or_ge Policy.maxJsonNesting (bracketNesting text) with hdeep | hwithin
    · exact .inl ⟨hdeep, if_pos hdeep⟩
    · refine .inr ⟨if_neg (Nat.not_lt.2 hwithin), ?_⟩
      intro r left h
      exact Nat.le_trans h.length_frames_le hwithin

/-- A text that breaks off with two brackets open, behind others in a string; and one that is written out. -/
theorem brackets_bound_reader_unclosed :
    let text := "[\"[[\",\x7b"
    let v : Json := .object [("a", .array [.string "]"])]
    (∃ r, Reader.Reaches text r [] ∧ r.frames.length = 2 ∧ 2 ≤ bracketNesting text) ∧
      Writes v.compact v.sorted ∧ bracketNesting v.compact = 2 := by
  intro text v
  obtain ⟨hbound, -, hnesting, -⟩ := brackets_bound_reader
  have htext : text.toList.dropWhile Token.isSpace = '[' :: ['"', '[', '[', '"', ',', '\x7b'] := by decide
  have hstring : Token.read '"' ['[', '[', '"', ',', '\x7b'] = some (.string (some "[["), [',', '\x7b']) := by
    decide +kernel
  have hitem : Reader.Reaches text ⟨.firstItem, [.array []]⟩ ['"', '[', '[', '"', ',', '\x7b'] :=
    .token .start htext rfl rfl
  have hcomma : Reader.Reaches text ⟨.afterItem, [.array [.string (some "[[")]]⟩ [',', '\x7b'] :=
    .token hitem rfl hstring rfl
  have hnext : Reader.Reaches text ⟨.value, [.array [.string (some "[[")]]⟩ ['\x7b'] := .token hcomma rfl rfl rfl
  have hobject : Reader.Reaches text ⟨.firstKey, [.object [] none, .array [.string (some "[[")]]⟩ [] :=
    .token hnext rfl rfl rfl
  have hkeys : (toDocument v).DistinctKeys := by
    simp [v, toDocument, toDocuments, toDocumentMembers, Document.DistinctKeys, Document.AllDistinctKeys,
      Document.MembersDistinctKeys]
  have hwrites : Writes v.compact v.sorted := writes_compact ⟨⟨trivial, trivial⟩, trivial⟩ hkeys
  have hvalue : v.sorted.nesting = 2 := by decide +kernel
  exact ⟨⟨_, hobject, rfl, hbound text _ [] hobject⟩, hwrites, (hnesting _ _ hwrites).trans hvalue⟩

end Fabric.Json

import Fabric.Proofs.Json.Brackets
import Fabric.Proofs.Json.RoundTrip

/-!
The count of brackets agrees with the reader: as many are open as the reader has open arrays and objects. So the
brackets of a text are nested as the document in it is, and as its value if no object of the document gives a key
twice; those of a printed text are nested as what is printed.
-/
namespace Fabric.Json

mutual
def Document.nesting : Document → Nat
  | .array items => nestingOfItems items + 1
  | .object members => nestingOfMembers members + 1
  | _ => 0
def Document.nestingOfItems : List Document → Nat
  | [] => 0
  | d :: rest => max (nesting d) (nestingOfItems rest)
def Document.nestingOfMembers : List (Option String × Document) → Nat
  | [] => 0
  | (_, d) :: rest => max (nesting d) (nestingOfMembers rest)
end

namespace Document

theorem nestingOfItems_le_iff {items : List Document} {n : Nat} :
    nestingOfItems items ≤ n ↔ ∀ d ∈ items, d.nesting ≤ n := by
  induction items with
  | nil => simp [nestingOfItems]
  | cons d rest ih => rw [nestingOfItems, Nat.max_le, List.forall_mem_cons, ih]

theorem nestingOfMembers_le_iff {members : List (Option String × Document)} {n : Nat} :
    nestingOfMembers members ≤ n ↔ ∀ m ∈ members, m.2.nesting ≤ n := by
  induction members with
  | nil => simp [nestingOfMembers]
  | cons m rest ih =>
    obtain ⟨key, d⟩ := m
    rw [nestingOfMembers, Nat.max_le, List.forall_mem_cons, ih]

theorem nestingOfItems_reverse (items : List Document) : nestingOfItems items.reverse = nestingOfItems items := by
  have hsame : ∀ n, nestingOfItems items.reverse ≤ n ↔ nestingOfItems items ≤ n := by
    intro n
    simp only [nestingOfItems_le_iff, List.mem_reverse]
  exact Nat.le_antisymm ((hsame _).2 (Nat.le_refl _)) ((hsame _).1 (Nat.le_refl _))

theorem nestingOfMembers_reverse (members : List (Option String × Document)) :
    nestingOfMembers members.reverse = nestingOfMembers members := by
  have hsame : ∀ n, nestingOfMembers members.reverse ≤ n ↔ nestingOfMembers members ≤ n := by
    intro n
    simp only [nestingOfMembers_le_iff, List.mem_reverse]
  exact Nat.le_antisymm ((hsame _).2 (Nat.le_refl _)) ((hsame _).1 (Nat.le_refl _))

end Document

def Frame.nesting : Frame → Nat
  | .array items => Document.nestingOfItems items
  | .object members _ => Document.nestingOfMembers members

namespace Reader

def deepestOf : List Frame → Nat
  | [] => 0
  | f :: outer => max (outer.length + 1 + f.nesting) (deepestOf outer)

def deepest (r : Reader) : Nat :=
  match r.stage with
  | .finished d => d.nesting
  | _ => deepestOf r.frames

theorem length_le_deepestOf (frames : List Frame) : frames.length ≤ deepestOf frames := by
  cases frames with
  | nil => exact Nat.le_refl 0
  | cons f outer =>
    rw [deepestOf, List.length_cons]
    omega

theorem supply_depth (d : Document) (frames : List Frame) :
    (supply d frames).frames.length = frames.length ∧
      (supply d frames).deepest = max (deepestOf frames) (frames.length + d.nesting) := by
  cases frames with
  | nil => simp [supply, deepest, deepestOf]
  | cons f outer =>
    cases f with
    | array items =>
      simp only [supply, deepest, deepestOf, Frame.nesting, Document.nestingOfItems, List.length_cons, true_and]
      omega
    | object members key =>
      simp only [supply, deepest, deepestOf, Frame.nesting, Document.nestingOfMembers, List.length_cons, true_and]
      omega

def scan (r : Reader) : BracketScan := outside r.frames.length r.deepest

theorem scan_supply (d : Document) (frames : List Frame) :
    (supply d frames).scan = outside frames.length (max (deepestOf frames) (frames.length + d.nesting)) := by
  rw [scan, (supply_depth d frames).1, (supply_depth d frames).2]

/-- A document without brackets leaves the scan as it was. -/
theorem scan_supply_flat {d : Document} (hd : d.nesting = 0) (frames : List Frame) :
    (supply d frames).scan = outside frames.length (deepestOf frames) := by
  have hle := length_le_deepestOf frames
  rw [scan_supply, hd, Nat.add_zero, Nat.max_eq_left hle]

theorem scan_readValue {frames : List Frame} {t : Token} {r : Reader} (h : readValue frames t = some r) :
    r.scan = (outside frames.length (deepestOf frames)).token t := by
  have hopen : max (frames.length + 1) (deepestOf frames) = max (deepestOf frames) (frames.length + 1) :=
    Nat.max_comm ..
  cases t with
  | openArray | openObject =>
    cases h
    exact congrArg (outside _) hopen
  | null | bool b | number l | string s =>
    cases h
    exact scan_supply_flat rfl frames
  | _ => cases h

/-- The document that closes a frame is one level more than what was read of it, as the frame was. -/
theorem scan_close {d : Document} {f : Frame} (hd : d.nesting = f.nesting + 1) (outer : List Frame) :
    (supply d outer).scan = outside outer.length (deepestOf (f :: outer)) := by
  rw [scan_supply, hd, deepestOf]
  congr 1
  omega

theorem scan_closeArray {frames : List Frame} {r : Reader} (h : closeArray frames = some r) :
    r.scan = (outside frames.length (deepestOf frames)).token .closeArray := by
  unfold closeArray at h
  split at h
  · next items outer =>
    cases h
    exact scan_close (by rw [Document.nesting, Document.nestingOfItems_reverse, Frame.nesting]) outer
  · cases h

theorem scan_closeObject {frames : List Frame} {r : Reader} (h : closeObject frames = some r) :
    r.scan = (outside frames.length (deepestOf frames)).token .closeObject := by
  unfold closeObject at h
  split at h
  · next members key outer =>
    cases h
    exact scan_close (by rw [Document.nesting, Document.nestingOfMembers_reverse, Frame.nesting]) outer
  · cases h

theorem scan_readKey {frames : List Frame} {s : Option String} {r : Reader} (h : readKey s frames = some r) :
    r.scan = outside frames.length (deepestOf frames) := by
  unfold readKey at h
  split at h
  · cases h
    rfl
  · cases h

/-- What a token does to the reader it does to the scan. -/
theorem scan_step {r r' : Reader} {t : Token} (h : step r t = some r') : r'.scan = r.scan.token t := by
  obtain ⟨stage, frames⟩ := r
  cases stage with
  | value => exact scan_readValue h
  | firstItem =>
    -- an array may be closed where its first item is expected; any other token begins that item
    by_cases ht : t = .closeArray
    · subst ht
      exact scan_closeArray h
    · have hvalue : readValue frames t = some r' := by
        rw [← h]
        cases t <;> first | rfl | exact absurd rfl ht
      exact scan_readValue hvalue
  | afterItem =>
    cases t with
    | comma =>
      cases h
      rfl
    | closeArray => exact scan_closeArray h
    | _ => cases h
  | firstKey =>
    cases t with
    | string s => exact scan_readKey h
    | closeObject => exact scan_closeObject h
    | _ => cases h
  | laterKey =>
    cases t with
    | string s => exact scan_readKey h
    | _ => cases h
  | colon =>
    cases t with
    | colon =>
      cases h
      rfl
    | _ => cases h
  | afterMember =>
    cases t with
    | comma =>
      cases h
      rfl
    | closeObject => exact scan_closeObject h
    | _ => cases h
  | finished d => cases t <;> cases h

theorem run_cons_eq_some_iff {r r' : Reader} {t : Token} {ts : List Token} :
    run r (t :: ts) = some r' ↔ ∃ r₁, step r t = some r₁ ∧ run r₁ ts = some r' := by
  simp [run, List.foldlM_cons, Option.bind_eq_some_iff]

/-- The reader goes on only where a token starts. -/
theorem invalid_notMem_of_run {r r' : Reader} {ts : List Token} (h : run r ts = some r') : .invalid ∉ ts := by
  induction ts generalizing r with
  | nil => exact List.not_mem_nil
  | cons t ts ih =>
    obtain ⟨r₁, hr₁, hrun⟩ := run_cons_eq_some_iff.1 h
    rw [List.mem_cons, not_or]
    refine ⟨?_, ih hrun⟩
    rintro rfl
    obtain ⟨stage, frames⟩ := r
    cases stage <;> cases hr₁

theorem scan_run {r r' : Reader} {ts : List Token} (h : run r ts = some r') :
    r'.scan = ts.foldl BracketScan.token r.scan := by
  induction ts generalizing r with
  | nil =>
    cases h
    rfl
  | cons t ts ih =>
    obtain ⟨r₁, hr₁, hrun⟩ := run_cons_eq_some_iff.1 h
    rw [List.foldl_cons, ← scan_step hr₁]
    exact ih hrun

end Reader

/-- The brackets of a text are nested as the document that it holds. -/
theorem bracketNesting_of_read {s : String} {d : Document} (h : Document.read? s = some d) :
    bracketNesting s = d.nesting := by
  rw [Document.read?, Document.ofTokens?] at h
  split at h
  · next frames hrun =>
    cases h
    obtain ⟨rest, hrest, hscan⟩ := exists_scanOutside_eq 0 0 s.toList
    obtain rfl : rest = [] := hrest.resolve_right (Reader.invalid_notMem_of_run hrun)
    have hreader := Reader.scan_run hrun
    calc
      bracketNesting s = (scanOutside 0 0 s.toList).deepest := rfl
      _ = ((Token.split s).foldl BracketScan.token Reader.start.scan).deepest := congrArg BracketScan.deepest hscan
      _ = d.nesting := by rw [← hreader]; rfl
  · cases h

mutual
theorem nesting_toDocument : ∀ v : Json, (toDocument v).nesting = v.nesting
  | .null | .bool _ | .number _ | .string _ => rfl
  | .array items => by rw [toDocument, Document.nesting, nesting, nesting_toDocuments items]
  | .object members => by rw [toDocument, Document.nesting, nesting, nesting_toDocumentMembers members]
theorem nesting_toDocuments : ∀ items : List Json,
    Document.nestingOfItems (toDocuments items) = nestingOfItems items
  | [] => rfl
  | v :: rest => by
    rw [toDocuments, Document.nestingOfItems, nestingOfItems, nesting_toDocument v, nesting_toDocuments rest]
theorem nesting_toDocumentMembers : ∀ members : List (String × Json),
    Document.nestingOfMembers (toDocumentMembers members) = nestingOfMembers members
  | [] => rfl
  | (_, v) :: rest => by
    rw [toDocumentMembers, Document.nestingOfMembers, nestingOfMembers, nesting_toDocument v,
      nesting_toDocumentMembers rest]
end

/-- A text with the tokens of a value holds the document that writes it out. -/
theorem bracketNesting_of_split {s : String} {v : Json} (h : Token.split s = v.tokens) :
    bracketNesting s = v.nesting := by
  have hread : Document.read? s = some (toDocument v) := by
    rw [Document.read?, h, Document.ofTokens?_tokens]
  rw [bracketNesting_of_read hread, nesting_toDocument]

theorem bracketNesting_compact {v : Json} (hv : v.Integral) : bracketNesting v.compact = v.nesting :=
  bracketNesting_of_split (split_compact hv)

theorem bracketNesting_pretty {v : Json} (hv : v.Integral) : bracketNesting v.pretty = v.nesting :=
  bracketNesting_of_split (split_pretty hv)

namespace Document

mutual
def DistinctKeys : Document → Prop
  | .array items => AllDistinctKeys items
  | .object members => (members.map (·.1)).Nodup ∧ MembersDistinctKeys members
  | _ => True
def AllDistinctKeys : List Document → Prop
  | [] => True
  | d :: rest => DistinctKeys d ∧ AllDistinctKeys rest
def MembersDistinctKeys : List (Option String × Document) → Prop
  | [] => True
  | (_, d) :: rest => DistinctKeys d ∧ MembersDistinctKeys rest
end

theorem toItems?_cons_eq_some_iff {d : Document} {rest : List Document} {vs : List Json} :
    toItems? (d :: rest) = some vs ↔ ∃ v vs', d.toJson? = some v ∧ toItems? rest = some vs' ∧ vs = v :: vs' := by
  rw [toItems?]
  cases d.toJson? with
  | none => simp
  | some v => cases toItems? rest <;> simp [eq_comm]

theorem toMembers?_cons_eq_some_iff {key : Option String} {d : Document} {rest : List (Option String × Document)}
    {ms : List (String × Json)} : toMembers? ((key, d) :: rest) = some ms ↔
      ∃ k v ms', key = some k ∧ d.toJson? = some v ∧ toMembers? rest = some ms' ∧ ms = (k, v) :: ms' := by
  cases key with
  | none => simp [toMembers?]
  | some k =>
    cases hd : d.toJson? with
    | none => simp [toMembers?, hd]
    | some v => cases hrest : toMembers? rest <;> simp [toMembers?, hd, hrest, eq_comm]

/-- The members of the value have the keys of the document. -/
theorem keys_toMembers? {members : List (Option String × Document)} {ms : List (String × Json)}
    (h : toMembers? members = some ms) : members.map (·.1) = ms.map fun m => some m.1 := by
  induction members generalizing ms with
  | nil =>
    cases h
    rfl
  | cons m rest ih =>
    obtain ⟨k, v, ms', hkey, -, hrest, rfl⟩ := toMembers?_cons_eq_some_iff.1 h
    rw [List.map_cons, List.map_cons, ih hrest, hkey]

end Document

theorem nestingOfMembers_ofList {ms : List (String × Json)} (h : (ms.map (·.1)).Nodup) :
    nestingOfMembers (Keyed.ofList ms) = nestingOfMembers ms := by
  have hsame : ∀ n, nestingOfMembers (Keyed.ofList ms) ≤ n ↔ nestingOfMembers ms ≤ n := by
    intro n
    simp only [nestingOfMembers_le_iff, Keyed.mem_ofList_iff h]
  exact Nat.le_antisymm ((hsame _).2 (Nat.le_refl _)) ((hsame _).1 (Nat.le_refl _))

mutual
/-- The value of a document without repeated keys is nested as the document. -/
theorem nesting_of_toJson? : ∀ {d : Document} {v : Json}, d.DistinctKeys → d.toJson? = some v →
    v.nesting = d.nesting
  | .null, _, _, h | .bool _, _, _, h => by
    cases h
    rfl
  | .number l, _, _, h => by
    obtain ⟨n, -, rfl⟩ := Option.map_eq_some_iff.1 h
    rfl
  | .string s, _, _, h => by
    obtain ⟨s, -, rfl⟩ := Option.map_eq_some_iff.1 h
    rfl
  | .array items, _, hd, h => by
    obtain ⟨vs, hvs, rfl⟩ := Option.map_eq_some_iff.1 h
    rw [Json.nesting, Document.nesting, nesting_of_toItems? hd hvs]
  | .object members, _, hd, h => by
    obtain ⟨ms, hms, rfl⟩ := Option.map_eq_some_iff.1 h
    obtain ⟨hkeys, hmembers⟩ := hd
    have hdistinct : (ms.map (·.1)).Nodup := by
      rw [Document.keys_toMembers? hms, List.Nodup, List.pairwise_map] at hkeys
      rw [List.Nodup, List.pairwise_map]
      exact hkeys.imp fun hne heq => hne (congrArg some heq)
    rw [Json.ofMembers, Json.nesting, Document.nesting, nestingOfMembers_ofList hdistinct,
      nesting_of_toMembers? hmembers hms]
/-- Values are nested as the documents that denote them, where no object gives a key twice. -/
theorem nesting_of_toItems? : ∀ {items : List Document} {vs : List Json}, Document.AllDistinctKeys items →
    Document.toItems? items = some vs → nestingOfItems vs = Document.nestingOfItems items
  | [], _, _, h => by
    cases h
    rfl
  | d :: rest, _, hd, h => by
    obtain ⟨v, vs, hv, hvs, rfl⟩ := Document.toItems?_cons_eq_some_iff.1 h
    rw [nestingOfItems, Document.nestingOfItems, nesting_of_toJson? hd.1 hv, nesting_of_toItems? hd.2 hvs]
theorem nesting_of_toMembers? : ∀ {members : List (Option String × Document)} {ms : List (String × Json)},
    Document.MembersDistinctKeys members → Document.toMembers? members = some ms →
    nestingOfMembers ms = Document.nestingOfMembers members
  | [], _, _, h => by
    cases h
    rfl
  | (key, d) :: rest, _, hd, h => by
    obtain ⟨k, v, ms, -, hv, hms, rfl⟩ := Document.toMembers?_cons_eq_some_iff.1 h
    rw [nestingOfMembers, Document.nestingOfMembers, nesting_of_toJson? hd.1 hv, nesting_of_toMembers? hd.2 hms]
end

def Writes (text : String) (v : Json) : Prop :=
  ∃ d, Document.read? text = some d ∧ d.DistinctKeys ∧ d.toJson? = some v

theorem Writes.parse? {text : String} {v : Json} (h : Writes text v) : Json.parse? text = some v := by
  obtain ⟨d, hread, -, hv⟩ := h
  rw [Json.parse?, hread]
  exact hv

/-- The text without blanks writes a value out with the members of its objects in order. -/
theorem writes_compact {v : Json} (hv : v.Integral) (hkeys : (toDocument v).DistinctKeys) :
    Writes v.compact v.sorted := by
  refine ⟨toDocument v, ?_, hkeys, toJson?_toDocument hv⟩
  rw [Document.read?, split_compact hv, Document.ofTokens?_tokens]

/-- The brackets of such a text are nested as the value. -/
theorem Writes.bracketNesting {text : String} {v : Json} (h : Writes text v) : bracketNesting text = v.nesting := by
  obtain ⟨d, hread, hkeys, hv⟩ := h
  rw [bracketNesting_of_read hread, nesting_of_toJson? hkeys hv]

end Fabric.Json

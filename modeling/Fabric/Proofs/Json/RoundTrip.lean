import Fabric.Json.Document
import Fabric.Proofs.Json.Printing

namespace Fabric.Json

namespace Reader

variable {frames : List Frame} {ts : List Token}

theorem run_step {r r' : Reader} {t : Token} (h : step r t = some r') : run r (t :: ts) = run r' ts := by
  rw [run, List.foldlM_cons, h]
  rfl

def Supplies (v : Json) : Prop :=
  ∀ (frames : List Frame) (ts : List Token),
    run ⟨.value, frames⟩ (v.tokens ++ ts) = run (supply (toDocument v) frames) ts

theorem run_laterItems {items : List Json} (h : ∀ v ∈ items, Supplies v) (acc : List Document) :
    run ⟨.afterItem, .array acc :: frames⟩ (itemTokens false items ++ ts) =
      run ⟨.afterItem, .array ((toDocuments items).reverse ++ acc) :: frames⟩ ts := by
  induction items generalizing acc with
  | nil => rfl
  | cons v vs ih =>
    rw [List.forall_mem_cons] at h
    have hcomma : itemTokens false (v :: vs) ++ ts = .comma :: (v.tokens ++ (itemTokens false vs ++ ts)) := by
      simp [itemTokens]
    rw [hcomma, run_step rfl, h.1, supply, ih h.2, toDocuments, List.reverse_cons, List.append_assoc]
    rfl

/-- The first item of an array is read as any value is, since it does not begin with a closing bracket. -/
theorem run_firstItem (v : Json) :
    run ⟨.firstItem, frames⟩ (v.tokens ++ ts) = run ⟨.value, frames⟩ (v.tokens ++ ts) := by
  cases v <;> rfl

theorem supplies_array {items : List Json} (h : ∀ v ∈ items, Supplies v) : Supplies (.array items) := by
  intro frames ts
  have hopen : run ⟨.value, frames⟩ ((Json.array items).tokens ++ ts) =
      run ⟨.firstItem, .array [] :: frames⟩ (itemTokens true items ++ .closeArray :: ts) := by
    rw [tokens, List.append_assoc, List.cons_append, List.cons_append, run_step rfl]
    rfl
  rw [hopen]
  cases items with
  | nil => exact run_step rfl
  | cons v vs =>
    rw [List.forall_mem_cons] at h
    have hfirst : itemTokens true (v :: vs) ++ .closeArray :: ts =
        v.tokens ++ (itemTokens false vs ++ .closeArray :: ts) := by
      simp [itemTokens]
    rw [hfirst, run_firstItem, h.1, supply, run_laterItems h.2]
    apply run_step
    simp [step, closeArray, toDocument, toDocuments]

theorem run_laterMembers {members : List (String × Json)} (h : ∀ m ∈ members, Supplies m.2)
    (acc : List (Option String × Document)) :
    run ⟨.afterMember, .object acc none :: frames⟩ (memberTokens false members ++ ts) =
      run ⟨.afterMember, .object ((toDocumentMembers members).reverse ++ acc) none :: frames⟩ ts := by
  induction members generalizing acc with
  | nil => rfl
  | cons m ms ih =>
    obtain ⟨key, v⟩ := m
    rw [List.forall_mem_cons] at h
    have hcomma : memberTokens false ((key, v) :: ms) ++ ts =
        .comma :: .string (some key) :: .colon :: (v.tokens ++ (memberTokens false ms ++ ts)) := by
      simp [memberTokens]
    rw [hcomma, run_step rfl, run_step rfl, run_step rfl, h.1, supply, ih h.2, toDocumentMembers,
      List.reverse_cons, List.append_assoc]
    rfl

/-- An object is supplied by its tokens if each of its members is supplied by its own. -/
theorem supplies_object {members : List (String × Json)} (h : ∀ m ∈ members, Supplies m.2) :
    Supplies (.object members) := by
  intro frames ts
  have hopen : run ⟨.value, frames⟩ ((Json.object members).tokens ++ ts) =
      run ⟨.firstKey, .object [] none :: frames⟩ (memberTokens true members ++ .closeObject :: ts) := by
    rw [tokens, List.append_assoc, List.cons_append, List.cons_append, run_step rfl]
    rfl
  rw [hopen]
  cases members with
  | nil => exact run_step rfl
  | cons m ms =>
    obtain ⟨key, v⟩ := m
    rw [List.forall_mem_cons] at h
    have hfirst : memberTokens true ((key, v) :: ms) ++ .closeObject :: ts =
        .string (some key) :: .colon :: (v.tokens ++ (memberTokens false ms ++ .closeObject :: ts)) := by
      simp [memberTokens]
    rw [hfirst, run_step rfl, run_step rfl, h.1, supply, run_laterMembers h.2]
    apply run_step
    simp [step, closeObject, toDocument, toDocumentMembers]

theorem supplies (v : Json) : Supplies v := by
  induction v using Json.induction with
  | array items ih => exact supplies_array ih
  | object members ih => exact supplies_object ih
  | _ => exact fun frames ts => run_step rfl

end Reader

theorem Document.ofTokens?_tokens (v : Json) : ofTokens? v.tokens = some (toDocument v) := by
  have hrun := Reader.supplies v [] []
  rw [List.append_nil] at hrun
  rw [ofTokens?, Reader.start, hrun]
  rfl

/-- An integer of 64 bits is denoted by its literal. -/
theorem toNumber?_literal {n : Int} (h : Int64.minValue.toInt ≤ n ∧ n < UInt64.size) :
    (Number.int n).literal.toNumber? = some (.int n) := by
  have hdigits : Nat.ofDigitChars 10 (Nat.toDigits 10 n.natAbs) 0 = n.natAbs := Nat.ofDigitChars_ten_toDigits
  by_cases hn : n < 0
  · have habs : (n.natAbs : Int) = -n := by omega
    have hrange : ¬ n = 0 ∧ -9223372036854775808 ≤ n := ⟨by omega, h.1⟩
    simp [Number.literal, Literal.toNumber?, hdigits, hn, habs, hrange]
  · have habs : (n.natAbs : Int) = n := by omega
    have hsize : n < 18446744073709551616 := h.2
    simp [Number.literal, Literal.toNumber?, hdigits, hn, habs, hsize]

theorem toItems?_toDocuments {items : List Json} (h : ∀ v ∈ items, (toDocument v).toJson? = some v.sorted) :
    Document.toItems? (toDocuments items) = some (sortedItems items) := by
  induction items with
  | nil => rfl
  | cons v vs ih =>
    rw [List.forall_mem_cons] at h
    simp [toDocuments, Document.toItems?, sortedItems, h.1, ih h.2]

theorem toMembers?_toDocumentMembers {members : List (String × Json)}
    (h : ∀ m ∈ members, (toDocument m.2).toJson? = some m.2.sorted) :
    Document.toMembers? (toDocumentMembers members) = some (sortedMembers members) := by
  induction members with
  | nil => rfl
  | cons m ms ih =>
    rw [List.forall_mem_cons] at h
    simp [toDocumentMembers, Document.toMembers?, sortedMembers, h.1, ih h.2]

theorem toJson?_toDocument {v : Json} (hv : v.Integral) : (toDocument v).toJson? = some v.sorted := by
  induction v using Json.induction with
  | number n =>
    cases n with
    | int n => rw [toDocument, Document.toJson?, toNumber?_literal hv]; rfl
    | float x => exact hv.elim
  | array items ih =>
    rw [Integral, allIntegral_iff] at hv
    have hitems := toItems?_toDocuments fun v hmem => ih v hmem (hv v hmem)
    simp [toDocument, Document.toJson?, hitems, sorted]
  | object members ih =>
    rw [Integral, membersIntegral_iff] at hv
    have hmembers := toMembers?_toDocumentMembers fun m hmem => ih m hmem (hv m hmem)
    simp [toDocument, Document.toJson?, hmembers, sorted]
  | _ => rfl

theorem sortedItems_eq (items : List Json) : sortedItems items = items.map sorted := by
  induction items with
  | nil => rfl
  | cons v vs ih => rw [sortedItems, ih, List.map_cons]

theorem sortedMembers_eq (members : List (String × Json)) :
    sortedMembers members = members.map fun m => (m.1, m.2.sorted) := by
  induction members with
  | nil => rfl
  | cons m ms ih => rw [sortedMembers, ih, List.map_cons]

/-- The members of a sorted object are sorted values of its members. -/
theorem exists_of_mem_sorted {members : List (String × Json)} {m : String × Json}
    (h : m ∈ Keyed.ofList (sortedMembers members)) : ∃ m' ∈ members, m.2 = m'.2.sorted := by
  have hmem := Keyed.mem_of_mem_ofList h
  rw [sortedMembers_eq, List.mem_map] at hmem
  obtain ⟨m', hm', rfl⟩ := hmem
  exact ⟨m', hm', rfl⟩

theorem sorted_sorted (v : Json) : v.sorted.sorted = v.sorted := by
  induction v using Json.induction with
  | array items ih =>
    rw [sorted, sorted, sortedItems_eq, sortedItems_eq, List.map_map]
    exact congrArg Json.array (List.map_congr_left ih)
  | object members ih =>
    have hsame : sortedMembers (Keyed.ofList (sortedMembers members)) = Keyed.ofList (sortedMembers members) := by
      rw [sortedMembers_eq (Keyed.ofList _)]
      refine (List.map_congr_left fun m hm => ?_).trans (List.map_id _)
      obtain ⟨m', hm', heq⟩ := exists_of_mem_sorted hm
      rw [heq, ih m' hm', ← heq]
      rfl
    rw [sorted, ofMembers, sorted, hsame, ofMembers, (Keyed.ordered_ofList _).ofList_eq]
  | _ => rfl

theorem Integral.sorted {v : Json} (hv : v.Integral) : v.sorted.Integral := by
  induction v using Json.induction with
  | array items ih =>
    rw [Integral, allIntegral_iff] at hv
    rw [Json.sorted, Integral, allIntegral_iff, sortedItems_eq, List.forall_mem_map]
    exact fun v hmem => ih v hmem (hv v hmem)
  | object members ih =>
    rw [Integral, membersIntegral_iff] at hv
    rw [Json.sorted, ofMembers, Integral, membersIntegral_iff]
    intro m hm
    obtain ⟨m', hm', heq⟩ := exists_of_mem_sorted hm
    exact heq ▸ ih m' hm' (hv m' hm')
  | _ => exact hv

theorem nestingOfItems_le_iff {items : List Json} {n : Nat} :
    nestingOfItems items ≤ n ↔ ∀ v ∈ items, v.nesting ≤ n := by
  induction items with
  | nil => simp [nestingOfItems]
  | cons v vs ih => rw [nestingOfItems, Nat.max_le, ih, List.forall_mem_cons]

theorem nestingOfMembers_le_iff {members : List (String × Json)} {n : Nat} :
    nestingOfMembers members ≤ n ↔ ∀ m ∈ members, m.2.nesting ≤ n := by
  induction members with
  | nil => simp [nestingOfMembers]
  | cons m ms ih => rw [nestingOfMembers, Nat.max_le, ih, List.forall_mem_cons]

/-- Of two members with one key only one stays, so the value may become less nested. -/
theorem nesting_sorted_le (v : Json) : v.sorted.nesting ≤ v.nesting := by
  induction v using Json.induction with
  | array items ih =>
    rw [sorted, nesting, nesting, Nat.add_le_add_iff_right, nestingOfItems_le_iff, sortedItems_eq,
      List.forall_mem_map]
    exact fun v hmem => Nat.le_trans (ih v hmem) (nestingOfItems_le_iff.1 (Nat.le_refl _) v hmem)
  | object members ih =>
    rw [sorted, ofMembers, nesting, nesting, Nat.add_le_add_iff_right, nestingOfMembers_le_iff]
    intro m hm
    obtain ⟨m', hm', heq⟩ := exists_of_mem_sorted hm
    rw [heq]
    exact Nat.le_trans (ih m' hm') (nestingOfMembers_le_iff.1 (Nat.le_refl _) m' hm')
  | _ => exact Nat.le_refl _

/-- What is put under a key is found there, and under other keys what was found before. -/
@[simp] theorem lookup_insert (key key' : String) (v : Json) (m : List (String × Json)) :
    lookup key (Keyed.insert key' v m) = if key' = key then some v else lookup key m := by
  induction m with
  | nil => rfl
  | cons e rest ih =>
    obtain ⟨k, w⟩ := e
    rw [Keyed.insert]
    split
    · rfl
    · split
      · next heq =>
        subst heq
        simp only [lookup]
        split <;> rfl
      · next hne =>
        simp only [lookup, ih]
        split
        · next hk =>
          subst hk
          rw [if_neg hne]
        · rfl

/-- The text without blanks denotes the value with its members in order. -/
theorem parse?_compact {v : Json} (hv : v.Integral) : parse? v.compact = some v.sorted := by
  rw [parse?, Document.read?, split_compact hv, Document.ofTokens?_tokens]
  exact toJson?_toDocument hv

/-- The text on many lines denotes it too, also if it is printed with its members in order. -/
theorem parse?_pretty {v : Json} (hv : v.Integral) : parse? v.pretty = some v.sorted := by
  rw [parse?, Document.read?, split_pretty hv, Document.ofTokens?_tokens]
  exact toJson?_toDocument hv

theorem parse?_pretty_sorted {v : Json} (hv : v.Integral) : parse? v.sorted.pretty = some v.sorted := by
  rw [parse?_pretty hv.sorted, sorted_sorted]

end Fabric.Json

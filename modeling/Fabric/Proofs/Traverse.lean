import Fabric.Keyed

namespace Fabric

variable {α β : Type}

theorem mapM_cons_eq_some {f : α → Option β} {a : α} {l : List α} {bs : List β} :
    (a :: l).mapM f = some bs ↔ ∃ b rest, f a = some b ∧ l.mapM f = some rest ∧ bs = b :: rest := by
  simp [List.mapM_cons, Option.bind_eq_some_iff, eq_comm (b := bs)]

/-- What was read comes from an item. -/
theorem exists_mem_of_mapM {f : α → Option β} {l : List α} {bs : List β} (h : l.mapM f = some bs)
    {b : β} (hb : b ∈ bs) : ∃ a ∈ l, f a = some b := by
  induction l generalizing bs with
  | nil =>
    have hn : bs = [] := by simpa using h.symm
    simp [hn] at hb
  | cons a l ih =>
    obtain ⟨b', rest, ha, hl, rfl⟩ := mapM_cons_eq_some.1 h
    rcases List.mem_cons.1 hb with rfl | hb
    · exact ⟨a, List.mem_cons_self .., ha⟩
    · obtain ⟨x, hx, hfx⟩ := ih hl hb
      exact ⟨x, List.mem_cons_of_mem _ hx, hfx⟩

/-- A reader that reads all that another reads reads the same list. -/
theorem mapM_mono {f g : α → Option β} {l : List α} {bs : List β}
    (hfg : ∀ a ∈ l, ∀ b, f a = some b → g a = some b) (h : l.mapM f = some bs) : l.mapM g = some bs := by
  induction l generalizing bs with
  | nil => simpa using h
  | cons a l ih =>
    obtain ⟨b, rest, ha, hl, rfl⟩ := mapM_cons_eq_some.1 h
    exact mapM_cons_eq_some.2 ⟨b, rest, hfg a (List.mem_cons_self ..) b ha,
      ih (fun x hx => hfg x (List.mem_cons_of_mem _ hx)) hl, rfl⟩

/-- Items that are each read from what they are written as are all read. -/
theorem mapM_map_eq_pure {m : Type → Type} [Monad m] [LawfulMonad m] {γ : Type} {f : β → m γ} {g : α → β}
    {h : α → γ} {l : List α} (hf : ∀ a ∈ l, f (g a) = pure (h a)) : (l.map g).mapM f = pure (l.map h) := by
  induction l with
  | nil => simp
  | cons a l ih =>
    rw [List.forall_mem_cons] at hf
    simp [hf.1, ih hf.2]

/-- A list of images is the image of a list. -/
theorem exists_map_eq {p : α → Prop} {g : α → β} {l : List β} (h : ∀ b ∈ l, ∃ a, p a ∧ g a = b) :
    ∃ l' : List α, (∀ a ∈ l', p a) ∧ l'.map g = l := by
  induction l with
  | nil => exact ⟨[], nofun, rfl⟩
  | cons b l ih =>
    rw [List.forall_mem_cons] at h
    obtain ⟨a, ha, rfl⟩ := h.1
    obtain ⟨l', hl', rfl⟩ := ih h.2
    exact ⟨a :: l', List.forall_mem_cons.2 ⟨ha, hl'⟩, rfl⟩

theorem bind_eq_ok_iff {ε : Type} {x : Except ε α} {f : α → Except ε β} {b : β} :
    x.bind f = .ok b ↔ ∃ a, x = .ok a ∧ f a = .ok b := by
  cases x <;> simp [Except.bind]

/-- What a test finds is there, and is as the test says. -/
theorem exists_ok_of_any {ε : Type} {x : Except ε α} {p : α → Prop} [DecidablePred p]
    (h : (x.toOption.any fun a => decide (p a)) = true) : ∃ a, x = .ok a ∧ p a := by
  cases x with
  | ok a => exact ⟨a, rfl, of_decide_eq_true h⟩
  | error e => cases h

theorem map_eq_ok_iff {ε : Type} {x : Except ε α} {f : α → β} {b : β} :
    x.map f = .ok b ↔ ∃ a, x = .ok a ∧ f a = b := by
  cases x <;> simp [Except.map]

theorem map_eq_error_iff {ε : Type} {x : Except ε α} {f : α → β} {e : ε} : f <$> x = .error e ↔ x = .error e := by
  cases x <;> simp [Functor.map, Except.map]

theorem toOption_eq_some_iff {ε : Type} {x : Except ε α} {a : α} : x.toOption = some a ↔ x = .ok a := by
  cases x <;> simp [Except.toOption]

theorem toOption_map {ε : Type} (x : Except ε α) (f : α → β) : (x.map f).toOption = x.toOption.map f := by
  cases x <;> rfl

theorem toOption_bind {ε : Type} (x : Except ε α) (f : α → Except ε β) :
    (x >>= f).toOption = x.toOption.bind fun a => (f a).toOption := by
  cases x <;> rfl

/-- A run of items with a property, which the next item does not have, is found to its end. -/
theorem span_append {p : α → Bool} {run rest : List α} (hrun : ∀ a ∈ run, p a = true)
    (hend : ∀ a, rest.head? = some a → p a = false) :
    (run ++ rest).takeWhile p = run ∧ (run ++ rest).dropWhile p = rest := by
  rw [List.takeWhile_append_of_pos hrun, List.dropWhile_append_of_pos hrun]
  cases rest with
  | nil => simp
  | cons a rest => simp [hend a rfl]

theorem span_ends (p : α → Bool) (l : List α) :
    (∀ a ∈ l.takeWhile p, p a = true) ∧ ∀ a, (l.dropWhile p).head? = some a → p a = false := by
  refine ⟨List.all_eq_true.1 List.all_takeWhile, ?_⟩
  intro a ha
  simpa [ha] using List.head?_dropWhile_not p l

theorem nodup_eraseDups [BEq α] [LawfulBEq α] (l : List α) : l.eraseDups.Nodup := by
  match l with
  | [] => exact List.nodup_nil
  | a :: l =>
    -- what is left is the tail without copies of the first item, so the recursion is on the length
    rw [List.eraseDups_cons, List.nodup_cons, List.mem_eraseDups]
    exact ⟨by simp, nodup_eraseDups (l.filter fun b => !b == a)⟩
termination_by l.length
decreasing_by exact Nat.lt_succ_of_le (List.length_filter_le ..)

/-- Where no key occurs twice, a pair is found by its key. -/
theorem find?_of_nodup [DecidableEq α] {pairs : List (α × β)} (h : (pairs.map (·.1)).Nodup) {key : α} {value : β}
    (hmem : (key, value) ∈ pairs) : pairs.find? (fun p => p.1 = key) = some (key, value) := by
  induction pairs with
  | nil => cases hmem
  | cons p rest ih =>
    rw [List.map_cons, List.nodup_cons] at h
    rcases List.mem_cons.1 hmem with rfl | hmem
    · simp
    · have hne : p.1 ≠ key := by
        intro heq
        exact h.1 (heq ▸ List.mem_map_of_mem hmem)
      simpa [List.find?_cons, hne] using ih h.2 hmem

namespace Keyed

abbrev Ordered (m : List (String × α)) : Prop := m.Pairwise fun e e' => e.1 < e'.1

/-- Other values under the same keys are in the same order. -/
theorem ordered_map (f : String × α → β) {m : List (String × α)} :
    Ordered (m.map fun e => (e.1, f e)) ↔ Ordered m :=
  List.pairwise_map

theorem mem_insert {key : String} {value : α} {m : List (String × α)} {e : String × α}
    (h : e ∈ insert key value m) : e = (key, value) ∨ e ∈ m := by
  induction m with
  | nil => simpa [insert] using h
  | cons x rest ih =>
    obtain ⟨k, v⟩ := x
    rw [insert] at h
    split at h
    · simpa using h
    · split at h
      · rcases List.mem_cons.1 h with h | h
        · exact .inl h
        · exact .inr (List.mem_cons_of_mem _ h)
      · rcases List.mem_cons.1 h with h | h
        · exact .inr (h ▸ List.mem_cons_self ..)
        · exact (ih h).imp id (List.mem_cons_of_mem _)

theorem mem_insert_self (key : String) (value : α) (m : List (String × α)) :
    (key, value) ∈ insert key value m := by
  induction m with
  | nil => simp [insert]
  | cons e rest ih =>
    rw [insert]
    split
    · exact List.mem_cons_self ..
    · split
      · exact List.mem_cons_self ..
      · exact List.mem_cons_of_mem _ ih

/-- A pair stays when another is put in, unless that replaces it. -/
theorem mem_insert_of_mem {key : String} {value : α} {m : List (String × α)} {e : String × α} (h : e ∈ m)
    (he : e.1 = key → e.2 = value) : e ∈ insert key value m := by
  induction m with
  | nil => cases h
  | cons x rest ih =>
    rw [insert]
    split
    · exact List.mem_cons_of_mem _ h
    · split
      · next hkey =>
        rcases List.mem_cons.1 h with rfl | h
        · have hpair : e = (key, value) := Prod.ext hkey.symm (he hkey.symm)
          exact hpair ▸ List.mem_cons_self ..
        · exact List.mem_cons_of_mem _ h
      · rcases List.mem_cons.1 h with rfl | h
        · exact List.mem_cons_self ..
        · exact List.mem_cons_of_mem _ (ih h)

/-- A list in order of its keys stays so when a value is put under a key. -/
theorem ordered_insert {key : String} {value : α} {m : List (String × α)} (h : Ordered m) :
    Ordered (insert key value m) := by
  induction m with
  | nil => simp [insert]
  | cons e rest ih =>
    obtain ⟨k, v⟩ := e
    obtain ⟨hfirst, hrest⟩ := List.pairwise_cons.1 h
    rw [insert]
    split
    · next hlt =>
      refine List.pairwise_cons.2 ⟨?_, List.pairwise_cons.2 ⟨hfirst, hrest⟩⟩
      rw [List.forall_mem_cons]
      exact ⟨hlt, fun e he => String.lt_trans hlt (hfirst e he)⟩
    · next hnot =>
      split
      · next heq => exact heq ▸ List.pairwise_cons.2 ⟨hfirst, hrest⟩
      · next hne =>
        -- the key goes somewhere behind, where all keys are greater than `k`
        have hgt : k < key := by
          rw [← String.not_le]
          exact fun hle => hne (String.le_antisymm hle (String.not_lt.1 hnot))
        refine List.pairwise_cons.2 ⟨?_, ih hrest⟩
        intro e he
        rcases mem_insert he with rfl | he
        · exact hgt
        · exact hfirst e he

theorem ordered_ofList (pairs : List (String × α)) : Ordered (ofList pairs) := by
  have hfold : ∀ (pairs m : List (String × α)), Ordered m →
      Ordered (pairs.foldl (fun m p => insert p.1 p.2 m) m) := by
    intro pairs
    induction pairs with
    | nil => exact fun m hm => hm
    | cons p rest ih => exact fun m hm => ih _ (ordered_insert hm)
  exact hfold pairs [] .nil

/-- Under one key there is one pair. -/
theorem Ordered.eq_of_mem {m : List (String × α)} (hm : Ordered m) {e e' : String × α} (he : e ∈ m)
    (he' : e' ∈ m) (hkey : e.1 = e'.1) :
    e = e' := by
  induction m with
  | nil => cases he
  | cons x rest ih =>
    obtain ⟨hfirst, hrest⟩ := List.pairwise_cons.1 hm
    rcases List.mem_cons.1 he with hx | he
    · rcases List.mem_cons.1 he' with hx' | he'
      · rw [hx, hx']
      · exact absurd (hx ▸ hfirst e' he') (hkey ▸ String.lt_irrefl _)
    · rcases List.mem_cons.1 he' with hx' | he'
      · exact absurd (hx' ▸ hfirst e he) (hkey ▸ String.lt_irrefl _)
      · exact ih hrest he he'

/-- What is put in takes the place of what was there under its key, and of nothing else. -/
theorem mem_insert_iff {m : List (String × α)} (hm : Ordered m) {key : String} {value : α} {e : String × α} :
    e ∈ insert key value m ↔ e = (key, value) ∨ e ∈ m ∧ e.1 ≠ key := by
  constructor
  · intro he
    by_cases hkey : e.1 = key
    · exact .inl ((ordered_insert hm).eq_of_mem he (mem_insert_self ..) hkey)
    · refine (mem_insert he).imp_right fun hmem => ⟨hmem, hkey⟩
  · intro he
    rcases he with rfl | ⟨hmem, hkey⟩
    · exact mem_insert_self ..
    · exact mem_insert_of_mem hmem fun heq => absurd heq hkey

/-- Of the pairs with one key the last one counts. -/
theorem mem_ofList_iff_find? {pairs : List (String × α)} {e : String × α} :
    e ∈ ofList pairs ↔ pairs.reverse.find? (fun p => p.1 = e.1) = some e := by
  have hlast : ∀ l : List (String × α), e ∈ l.foldr (fun p m => insert p.1 p.2 m) [] ↔
      l.find? (fun p => p.1 = e.1) = some e := by
    intro l
    induction l with
    | nil => simp
    | cons p rest ih =>
      have hrest : Ordered (rest.foldr (fun p m => insert p.1 p.2 m) []) := by
        have h := ordered_ofList rest.reverse
        rwa [ofList, List.foldl_reverse] at h
      rw [List.foldr_cons, mem_insert_iff hrest, List.find?_cons, ih]
      by_cases hkey : p.1 = e.1
      · have hpair : (e.1, p.2) = p := by rw [← hkey]
        simp [hkey, hpair, eq_comm]
      · have hne : e ≠ (p.1, p.2) := fun heq => hkey (congrArg Prod.fst heq).symm
        simp [hkey, hne, Ne.symm hkey]
  rw [← hlast, ofList, List.foldl_eq_foldr_reverse]

/-- Every pair of the ordered list is one of those it was made of. -/
theorem mem_of_mem_ofList {pairs : List (String × α)} {e : String × α} (h : e ∈ ofList pairs) :
    e ∈ pairs :=
  List.mem_reverse.1 (List.mem_of_find?_eq_some (mem_ofList_iff_find?.1 h))

/-- Where no key occurs twice, no pair takes the place of another. -/
theorem mem_ofList_iff {pairs : List (String × α)} (h : (pairs.map (·.1)).Nodup) {e : String × α} :
    e ∈ ofList pairs ↔ e ∈ pairs := by
  have hreverse : (pairs.reverse.map (·.1)).Nodup := by
    rw [List.map_reverse]
    exact (List.reverse_perm _).nodup_iff.2 h
  exact ⟨mem_of_mem_ofList, fun he => mem_ofList_iff_find?.2 (find?_of_nodup hreverse (List.mem_reverse.2 he))⟩

/-- A key greater than all others goes to the end. -/
theorem insert_of_forall_lt {key : String} {value : α} {m : List (String × α)} (h : ∀ e ∈ m, e.1 < key) :
    insert key value m = m ++ [(key, value)] := by
  induction m with
  | nil => rfl
  | cons e rest ih =>
    rw [List.forall_mem_cons] at h
    have hne : key ≠ e.1 := by
      intro heq
      exact String.lt_irrefl _ (heq ▸ h.1)
    rw [insert, if_neg (String.lt_asymm h.1), if_neg hne, ih h.2, List.cons_append]

/-- A list that is in order stays as it is. -/
theorem Ordered.ofList_eq {pairs : List (String × α)} (h : Ordered pairs) : ofList pairs = pairs := by
  have hfold : ∀ (rest m : List (String × α)), Ordered (m ++ rest) →
      rest.foldl (fun m p => insert p.1 p.2 m) m = m ++ rest := by
    intro rest
    induction rest with
    | nil => exact fun m _ => (List.append_nil m).symm
    | cons p rest ih =>
      intro m hm
      have hlt : ∀ e ∈ m, e.1 < p.1 := fun e he =>
        (List.pairwise_append.1 hm).2.2 e he p (List.mem_cons_self ..)
      rw [List.foldl_cons, insert_of_forall_lt hlt, ih _ (by simpa using hm), List.append_assoc,
        List.singleton_append]
  exact hfold pairs [] h

end Keyed

end Fabric

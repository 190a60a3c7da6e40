import Fabric.Proofs.Json.Lexing

namespace Fabric.Json

open Token

/-- Proofs about values go by their items and members. -/
@[elab_as_elim]
theorem induction {motive : Json → Prop} (null : motive .null) (bool : ∀ b, motive (.bool b))
    (number : ∀ n, motive (.number n)) (string : ∀ s, motive (.string s))
    (array : ∀ items, (∀ v ∈ items, motive v) → motive (.array items))
    (object : ∀ members, (∀ m ∈ members, motive m.2) → motive (.object members)) : ∀ v, motive v
  | .null => null
  | .bool b => bool b
  | .number n => number n
  | .string s => string s
  | .array items => array items fun v _ => induction null bool number string array object v
  | .object members => object members fun m _ => induction null bool number string array object m.2
decreasing_by
  · decreasing_tactic
  · obtain ⟨key, v⟩ := m
    have hlt := List.sizeOf_lt_of_mem ‹_›
    simp only [Prod.mk.sizeOf_spec] at hlt
    simp only [Json.object.sizeOf_spec]
    omega

mutual
def Integral : Json → Prop
  | .number (.int n) => Int64.minValue.toInt ≤ n ∧ n < UInt64.size
  | .number (.float _) => False
  | .array items => AllIntegral items
  | .object members => MembersIntegral members
  | _ => True
def AllIntegral : List Json → Prop
  | [] => True
  | v :: rest => Integral v ∧ AllIntegral rest
def MembersIntegral : List (String × Json) → Prop
  | [] => True
  | (_, v) :: rest => Integral v ∧ MembersIntegral rest
end

theorem allIntegral_iff {items : List Json} : AllIntegral items ↔ ∀ v ∈ items, v.Integral := by
  induction items with
  | nil => simp [AllIntegral]
  | cons v rest ih => simp only [AllIntegral, ih, List.forall_mem_cons]

theorem membersIntegral_iff {members : List (String × Json)} :
    MembersIntegral members ↔ ∀ m ∈ members, m.2.Integral := by
  induction members with
  | nil => simp [MembersIntegral]
  | cons m rest ih => simp only [MembersIntegral, ih, List.forall_mem_cons]

mutual
def tokens : Json → List Token
  | .null => [.null]
  | .bool b => [.bool b]
  | .number n => [.number n.literal]
  | .string s => [.string (some s)]
  | .array items => .openArray :: itemTokens true items ++ [.closeArray]
  | .object members => .openObject :: memberTokens true members ++ [.closeObject]
def itemTokens (first : Bool) : List Json → List Token
  | [] => []
  | v :: rest => (if first then [] else [.comma]) ++ tokens v ++ itemTokens false rest
def memberTokens (first : Bool) : List (String × Json) → List Token
  | [] => []
  | (k, v) :: rest =>
    (if first then [] else [.comma]) ++ .string (some k) :: .colon :: tokens v ++ memberTokens false rest
end

section Lexing

variable {rest : List Char}

theorem numberEnds_cons {c : Char} (hdigit : c.isDigit = false) (h : c ≠ '.' ∧ c ≠ 'e' ∧ c ≠ 'E') :
    NumberEnds (c :: rest) := by
  intro d hd
  cases hd
  exact ⟨hdigit, h⟩

/-- A closing bracket or a comma follows an item. -/
theorem numberEnds_itemsOnto (hrest : NumberEnds rest) (items : List Json) :
    NumberEnds (itemsOnto false items rest) := by
  cases items with
  | nil => exact hrest
  | cons v vs => exact numberEnds_cons rfl (by decide)

theorem numberEnds_membersOnto (hrest : NumberEnds rest) (members : List (String × Json)) :
    NumberEnds (membersOnto false members rest) := by
  cases members with
  | nil => exact hrest
  | cons m ms => exact numberEnds_cons rfl (by decide)

theorem splitOnto_itemsOnto {items : List Json} (first : Bool)
    (h : ∀ v ∈ items, ∀ {rest}, NumberEnds rest →
      splitOnto [] (compactOnto v rest) = v.tokens ++ splitOnto [] rest)
    (hrest : NumberEnds rest) :
    splitOnto [] (itemsOnto first items rest) = itemTokens first items ++ splitOnto [] rest := by
  induction items generalizing first with
  | nil => rfl
  | cons v vs ih =>
    rw [List.forall_mem_cons] at h
    have hv := h.1 (numberEnds_itemsOnto hrest vs)
    cases first <;> simp [itemsOnto, itemTokens, hv, ih false h.2]

theorem splitOnto_membersOnto {members : List (String × Json)} (first : Bool)
    (h : ∀ m ∈ members, ∀ {rest}, NumberEnds rest →
      splitOnto [] (compactOnto m.2 rest) = m.2.tokens ++ splitOnto [] rest)
    (hrest : NumberEnds rest) :
    splitOnto [] (membersOnto first members rest) = memberTokens first members ++ splitOnto [] rest := by
  induction members generalizing first with
  | nil => rfl
  | cons m ms ih =>
    rw [List.forall_mem_cons] at h
    have hv := h.1 (numberEnds_membersOnto hrest ms)
    cases first <;> simp [membersOnto, memberTokens, hv, ih false h.2]

/-- The text without blanks is split into the tokens of the value. -/
theorem splitOnto_compactOnto {v : Json} (hv : v.Integral) (hrest : NumberEnds rest) :
    splitOnto [] (compactOnto v rest) = v.tokens ++ splitOnto [] rest := by
  induction v using Json.induction generalizing rest with
  | null => exact splitOnto_read rfl rfl
  | bool b => cases b <;> exact splitOnto_read rfl rfl
  | number n =>
    cases n with
    | int n => exact splitOnto_int n hrest
    | float x => exact hv.elim
  | string s => exact splitOnto_stringOnto s rest
  | array items ih =>
    rw [Integral, allIntegral_iff] at hv
    have hend : NumberEnds (']' :: rest) := numberEnds_cons rfl (by decide)
    have hitems := splitOnto_itemsOnto true (fun v hmem _ hrest => ih v hmem (hv v hmem) hrest) hend
    have hprinted : compactOnto (.array items) rest = '[' :: itemsOnto true items (']' :: rest) := rfl
    simp [hprinted, tokens, hitems]
  | object members ih =>
    rw [Integral, membersIntegral_iff] at hv
    have hend : NumberEnds ('\x7d' :: rest) := numberEnds_cons rfl (by decide)
    have hmembers := splitOnto_membersOnto true (fun m hmem _ hrest => ih m hmem (hv m hmem) hrest) hend
    have hprinted : compactOnto (.object members) rest = '\x7b' :: membersOnto true members ('\x7d' :: rest) := rfl
    simp [hprinted, tokens, hmembers]

/-- Blanks between tokens are passed over. -/
@[simp] theorem splitOnto_newLineOnto (level : Nat) (rest : List Char) :
    splitOnto [] (newLineOnto level rest) = splitOnto [] rest := by
  have hblanks : ∀ k, splitOnto [] (List.replicate k ' ' ++ rest) = splitOnto [] rest := by
    intro k
    induction k with
    | zero => rfl
    | succ k ih => rw [List.replicate_succ, List.cons_append, splitOnto_blank rfl, ih]
  rw [newLineOnto, List.cons_append, splitOnto_blank rfl, hblanks]

theorem numberEnds_newLineOnto (level : Nat) (rest : List Char) : NumberEnds (newLineOnto level rest) :=
  numberEnds_cons rfl (by decide)

theorem numberEnds_prettyItemsOnto (hrest : NumberEnds rest) (level : Nat) (items : List Json) :
    NumberEnds (prettyItemsOnto level false items rest) := by
  cases items with
  | nil => exact hrest
  | cons v vs => exact numberEnds_cons rfl (by decide)

theorem numberEnds_prettyMembersOnto (hrest : NumberEnds rest) (level : Nat) (members : List (String × Json)) :
    NumberEnds (prettyMembersOnto level false members rest) := by
  cases members with
  | nil => exact hrest
  | cons m ms => exact numberEnds_cons rfl (by decide)

theorem splitOnto_prettyItemsOnto {items : List Json} (level : Nat) (first : Bool)
    (h : ∀ v ∈ items, ∀ {rest}, NumberEnds rest →
      splitOnto [] (prettyOnto level v rest) = v.tokens ++ splitOnto [] rest)
    (hrest : NumberEnds rest) :
    splitOnto [] (prettyItemsOnto level first items rest) = itemTokens first items ++ splitOnto [] rest := by
  induction items generalizing first with
  | nil => rfl
  | cons v vs ih =>
    rw [List.forall_mem_cons] at h
    have hv := h.1 (numberEnds_prettyItemsOnto hrest level vs)
    cases first <;> simp [prettyItemsOnto, itemTokens, hv, ih false h.2]

theorem splitOnto_prettyMembersOnto {members : List (String × Json)} (level : Nat) (first : Bool)
    (h : ∀ m ∈ members, ∀ {rest}, NumberEnds rest →
      splitOnto [] (prettyOnto level m.2 rest) = m.2.tokens ++ splitOnto [] rest)
    (hrest : NumberEnds rest) :
    splitOnto [] (prettyMembersOnto level first members rest) = memberTokens first members ++ splitOnto [] rest := by
  induction members generalizing first with
  | nil => rfl
  | cons m ms ih =>
    rw [List.forall_mem_cons] at h
    have hv := h.1 (numberEnds_prettyMembersOnto hrest level ms)
    have hblank : ∀ cs, splitOnto [] (' ' :: cs) = splitOnto [] cs := fun cs => splitOnto_blank rfl
    cases first <;> simp [prettyMembersOnto, memberTokens, hv, ih false h.2, hblank]

/-- The text on many lines is split into the same tokens. -/
theorem splitOnto_prettyOnto {v : Json} (hv : v.Integral) (level : Nat) (hrest : NumberEnds rest) :
    splitOnto [] (prettyOnto level v rest) = v.tokens ++ splitOnto [] rest := by
  induction v using Json.induction generalizing level rest with
  | array items ih =>
    rw [Integral, allIntegral_iff] at hv
    cases items with
    | nil =>
      have hprinted : prettyOnto level (.array []) rest = '[' :: ']' :: rest := rfl
      simp [hprinted, tokens, itemTokens]
    | cons v vs =>
      have hitems := splitOnto_prettyItemsOnto (level + 1) true
        (fun v hmem _ hrest => ih v hmem (hv v hmem) (level + 1) hrest) (numberEnds_newLineOnto level (']' :: rest))
      have hprinted : prettyOnto level (.array (v :: vs)) rest =
          '[' :: prettyItemsOnto (level + 1) true (v :: vs) (newLineOnto level (']' :: rest)) := rfl
      simp [hprinted, tokens, hitems]
  | object members ih =>
    rw [Integral, membersIntegral_iff] at hv
    cases members with
    | nil =>
      have hprinted : prettyOnto level (.object []) rest = '\x7b' :: '\x7d' :: rest := rfl
      simp [hprinted, tokens, memberTokens]
    | cons m ms =>
      have hmembers := splitOnto_prettyMembersOnto (level + 1) true
        (fun m hmem _ hrest => ih m hmem (hv m hmem) (level + 1) hrest)
        (numberEnds_newLineOnto level ('\x7d' :: rest))
      have hprinted : prettyOnto level (.object (m :: ms)) rest =
          '\x7b' :: prettyMembersOnto (level + 1) true (m :: ms) (newLineOnto level ('\x7d' :: rest)) := rfl
      simp [hprinted, tokens, hmembers]
  -- other values are printed alike in both forms
  | bool b => cases b <;> exact splitOnto_compactOnto hv hrest
  | _ => exact splitOnto_compactOnto hv hrest

end Lexing

/-- Both forms of the text are split into the tokens of the value. -/
theorem split_compact {v : Json} (hv : v.Integral) : Token.split v.compact = v.tokens := by
  rw [Token.split, compact, String.toList_ofList, splitOnto_compactOnto hv numberEnds_nil, splitOnto_nil,
    List.append_nil]

theorem split_pretty {v : Json} (hv : v.Integral) : Token.split v.pretty = v.tokens := by
  rw [Token.split, pretty, String.toList_ofList, splitOnto_prettyOnto hv 0 numberEnds_nil, splitOnto_nil,
    List.append_nil]

end Fabric.Json

import Fabric.Policy.Canonical
import Fabric.Proofs.Json.Printing
import Mathlib.Data.List.Pairwise

namespace Fabric

section Lookup

variable {keys : List String} {members before after : List (String × Json)} {key : String} {x v : Json}

theorem Json.mem_of_lookup (h : Json.lookup key members = some v) : (key, v) ∈ members := by
  induction members with
  | nil => cases h
  | cons m rest ih =>
    obtain ⟨k, x⟩ := m
    rw [Json.lookup] at h
    split at h
    · next heq =>
      cases h
      rw [heq]
      exact List.mem_cons_self ..
    · exact List.mem_cons_of_mem _ (ih h)

theorem Json.lookup_eq_none_iff : Json.lookup key members = none ↔ ∀ m ∈ members, m.1 ≠ key := by
  induction members with
  | nil => exact iff_of_true rfl (List.forall_mem_nil _)
  | cons m rest ih =>
    rw [Json.lookup, List.forall_mem_cons, ← ih]
    by_cases heq : m.1 = key
    · simp [heq]
    · simp [heq]

theorem Json.lookupAny_eq_none_iff : Json.lookupAny keys members = none ↔ ∀ m ∈ members, m.1 ∉ keys := by
  simp only [Json.lookupAny, List.findSome?_eq_none_iff, Json.lookup_eq_none_iff]
  constructor
  · intro h m hm hkey
    exact h m.1 hkey m hm rfl
  · intro h key hkey m hm heq
    exact h m hm (heq ▸ hkey)

def Json.AtMostOne (keys : List String) (members : List (String × Json)) : Prop :=
  members.Pairwise fun a b => ¬ (a.1 ∈ keys ∧ b.1 ∈ keys)

instance : Decidable (Json.AtMostOne keys members) := inferInstanceAs (Decidable (List.Pairwise _ members))

/-- Where there is one value at most, it is the one that is found. -/
theorem Json.lookupAny_eq_some_iff (h : Json.AtMostOne keys members) :
    Json.lookupAny keys members = some v ↔ ∃ key ∈ keys, (key, v) ∈ members := by
  constructor
  · intro hfound
    obtain ⟨key, hkey, hlookup⟩ := List.exists_of_findSome?_eq_some hfound
    exact ⟨key, hkey, mem_of_lookup hlookup⟩
  · intro hmem
    obtain ⟨key, hkey, hmem⟩ := hmem
    cases hfound : Json.lookupAny keys members with
    | none => exact absurd hkey (lookupAny_eq_none_iff.1 hfound _ hmem)
    | some w =>
      obtain ⟨key', hkey', hlookup⟩ := List.exists_of_findSome?_eq_some hfound
      have : Std.Symm fun a b : String × Json => ¬ (a.1 ∈ keys ∧ b.1 ∈ keys) := ⟨fun _ _ hab hba => hab hba.symm⟩
      -- were they not one member, the two would stand under these keys
      by_contra hne
      refine List.Pairwise.forall h (mem_of_lookup hlookup) hmem ?_ ⟨hkey', hkey⟩
      intro heq
      exact hne (congrArg (fun m => some m.2) heq)

/-- A member under another key is passed over. -/
theorem Json.lookupAny_middle (h : key ∉ keys) :
    Json.lookupAny keys (before ++ (key, x) :: after) = Json.lookupAny keys (before ++ after) := by
  have hlookup {k : String} (hk : key ≠ k) :
      Json.lookup k (before ++ (key, x) :: after) = Json.lookup k (before ++ after) := by
    induction before with
    | nil => simp only [List.nil_append, Json.lookup, if_neg hk]
    | cons m rest ih => simp only [List.cons_append, Json.lookup, ih]
  induction keys with
  | nil => rfl
  | cons k rest ih =>
    rw [List.mem_cons, not_or] at h
    have hrest := ih h.2
    unfold Json.lookupAny at hrest ⊢
    rw [List.findSome?_cons, List.findSome?_cons, hlookup h.1, hrest]

end Lookup

namespace Policy

inductive ObjectKind
  | policy
  | identity
  | principal
  | rule
  | group
deriving DecidableEq, Repr

inductive Field
  | version
  | identities
  | rule
  | classification
  | principal
  | mspId
  | role
  | signedBy
  | group
  | count
  | rules
deriving DecidableEq, Repr

namespace Field

def owner : Field → ObjectKind
  | .version | .identities | .rule => .policy
  | .classification | .principal => .identity
  | .mspId | .role => .principal
  | .signedBy | .group => .rule
  | .count | .rules => .group

def keys : Field → List String
  | .version => ["version"]
  | .identities => ["identities"]
  | .rule => ["rule"]
  | .classification => classificationKeys
  | .principal => ["principal"]
  | .mspId => mspIdKeys
  | .role => ["role"]
  | .signedBy => signedByKeys
  | .group => groupKeys
  | .count => ["n"]
  | .rules => ["rules"]

def object? : Field → Option ObjectKind
  | .rule => some .rule
  | .principal => some .principal
  | .group => some .group
  | _ => none

def items? : Field → Option ObjectKind
  | .identities => some .identity
  | .rules => some .rule
  | _ => none

/-- No field is an object as well as a list of them. -/
theorem object?_of_items? {f : Field} {kind kind' : ObjectKind} (h : f.items? = some kind) :
    f.object? ≠ some kind' := by
  intro hobject
  cases f with
  | identities | rules => cases hobject
  | _ => cases h

def find (f : Field) (members : List (String × Json)) : Option Json := Json.lookupAny f.keys members

def all : List Field :=
  [.version, .identities, .rule, .classification, .principal, .mspId, .role, .signedBy, .group, .count, .rules]

theorem mem_all (f : Field) : f ∈ all := by cases f <;> decide

/-- The fields of an object can be told apart by their keys. -/
theorem eq_of_mem_keys {f g : Field} (howner : f.owner = g.owner) {key : String} (hf : key ∈ f.keys)
    (hg : key ∈ g.keys) : f = g := by
  have hdisjoint : ∀ f ∈ all, ∀ g ∈ all, f.owner = g.owner → f ≠ g → ∀ key ∈ f.keys, key ∉ g.keys := by
    decide +kernel
  by_contra hne
  exact hdisjoint f (mem_all f) g (mem_all g) howner hne key hf hg

end Field

inductive RoleSpelling (r : Role) : Json → Prop
  | name {s : String} (h : s.toUpper = r.name) : RoleSpelling r (.string s)
  | code : RoleSpelling r (Json.ofInt r.code.toInt)

inductive ByRole : Json → Prop
  | name {s : String} (h : s.toUpper = "ROLE") : ByRole (.string s)
  | code : ByRole (Json.ofInt 0)

inductive Rewords : Field → Json → Json → Prop
  | same (f : Field) (x : Json) : Rewords f x x
  | role {r : Role} {x y : Json} (hx : RoleSpelling r x) (hy : RoleSpelling r y) : Rewords .role x y
  | classification {x y : Json} (hx : ByRole x) (hy : ByRole y) : Rewords .classification x y

inductive Omissible : Field → Json → Prop
  | classification {x : Json} (h : ByRole x) : Omissible .classification x
  | null : Omissible .version .null
  | zero : Omissible .version (Json.ofInt 0)

/-- An object of some kind is spelled in another way, itself or in one place inside it. -/
inductive Respells : ObjectKind → Json → Json → Prop
  | reordered {kind : ObjectKind} {members members' : List (String × Json)} (h : members.Perm members') :
      Respells kind (.object members) (.object members')
  -- A key that the reader does not know is written.
  | extended {kind : ObjectKind} {before after : List (String × Json)} {key : String}
      (h : ∀ f : Field, f.owner = kind → key ∉ f.keys) (x : Json) :
      Respells kind (.object (before ++ after)) (.object (before ++ (key, x) :: after))
  -- A field is written under another of its keys, with another of its values, or both.
  | reworded {f : Field} {before after : List (String × Json)} {key key' : String} {x y : Json}
      (hkey : key ∈ f.keys) (hkey' : key' ∈ f.keys) (h : Rewords f x y) :
      Respells f.owner (.object (before ++ (key, x) :: after)) (.object (before ++ (key', y) :: after))
  -- A field is left out.
  | omitted {f : Field} {before after : List (String × Json)} {key : String} {x : Json} (hkey : key ∈ f.keys)
      (h : Omissible f x) : Respells f.owner (.object (before ++ (key, x) :: after)) (.object (before ++ after))
  -- A field that was left out is written.
  | supplied {f : Field} {before after : List (String × Json)} {key : String} {x : Json} (hkey : key ∈ f.keys)
      (h : Omissible f x) (hmissing : ∀ m ∈ before ++ after, m.1 ∉ f.keys) :
      Respells f.owner (.object (before ++ after)) (.object (before ++ (key, x) :: after))
  -- An object is spelled in another way where it stands.
  | inObject {f : Field} {kind : ObjectKind} {before after : List (String × Json)} {key : String} {x y : Json}
      (hobject : f.object? = some kind) (hkey : key ∈ f.keys) (h : Respells kind x y) :
      Respells f.owner (.object (before ++ (key, x) :: after)) (.object (before ++ (key, y) :: after))
  -- An item is spelled in another way where it stands.
  | inItem {f : Field} {kind : ObjectKind} {before after : List (String × Json)} {key : String} {x y : Json}
      {first rest : List Json} (hitems : f.items? = some kind) (hkey : key ∈ f.keys) (h : Respells kind x y) :
      Respells f.owner (.object (before ++ (key, .array (first ++ x :: rest)) :: after))
        (.object (before ++ (key, .array (first ++ y :: rest)) :: after))

def Clear (kind : ObjectKind) (members : List (String × Json)) : Prop :=
  ∀ f : Field, f.owner = kind → Json.AtMostOne f.keys members

inductive Field.Part (f : Field) : Json → ObjectKind → Json → Prop
  | object {kind : ObjectKind} {x : Json} (h : f.object? = some kind) : f.Part x kind x
  | item {kind : ObjectKind} {items : List Json} {x : Json} (h : f.items? = some kind) (hx : x ∈ items) :
      f.Part (.array items) kind x

/-- No field is there twice, in any of the objects that the reader looks into. -/
inductive Unambiguous : ObjectKind → Json → Prop
  | object {kind : ObjectKind} {members : List (String × Json)} (hclear : Clear kind members)
      (hparts : ∀ f : Field, f.owner = kind → ∀ key ∈ f.keys, ∀ x, (key, x) ∈ members → ∀ kind' v,
        f.Part x kind' v → Unambiguous kind' v) : Unambiguous kind (.object members)
  | other {kind : ObjectKind} {v : Json} (h : ∀ members, v ≠ .object members) : Unambiguous kind v

section Members

variable {kind : ObjectKind} {f : Field} {before after members : List (String × Json)} {key key' : String} {x y : Json}

theorem atMostOne_middle_iff {keys : List String} :
    Json.AtMostOne keys (before ++ (key, x) :: after) ↔
      Json.AtMostOne keys (before ++ after) ∧ (key ∈ keys → ∀ m ∈ before ++ after, m.1 ∉ keys) := by
  have hsymm {a b : String × Json} (h : ¬ (a.1 ∈ keys ∧ b.1 ∈ keys)) : ¬ (b.1 ∈ keys ∧ a.1 ∈ keys) :=
    fun hba => h hba.symm
  rw [Json.AtMostOne, List.pairwise_middle hsymm, List.pairwise_cons]
  constructor
  · intro h
    exact ⟨h.2, fun hkey m hm hmem => h.1 m hm ⟨hkey, hmem⟩⟩
  · intro h
    exact ⟨fun m hm hmem => h.2 hmem.1 m hm hmem.2, h.1⟩

theorem Clear.of_perm {members' : List (String × Json)} (h : Clear kind members) (hperm : members.Perm members') :
    Clear kind members' :=
  fun f hf => hperm.pairwise (h f hf) fun hab hba => hab hba.symm

/-- In place of a field there may be the same field. -/
theorem Clear.replaced (h : Clear f.owner (before ++ (key, x) :: after)) (hkey : key ∈ f.keys) (hkey' : key' ∈ f.keys) :
    Clear f.owner (before ++ (key', y) :: after) := by
  intro g hg
  have hg' := atMostOne_middle_iff.1 (h g hg)
  refine atMostOne_middle_iff.2 ⟨hg'.1, fun hmem => hg'.2 ?_⟩
  rwa [Field.eq_of_mem_keys hg hmem hkey']

theorem Clear.removed (h : Clear kind (before ++ (key, x) :: after)) : Clear kind (before ++ after) :=
  fun f hf => (atMostOne_middle_iff.1 (h f hf)).1

/-- A field that is there stands alone. -/
theorem Clear.alone (h : Clear f.owner (before ++ (key, x) :: after)) (hkey : key ∈ f.keys) :
    ∀ m ∈ before ++ after, m.1 ∉ f.keys :=
  (atMostOne_middle_iff.1 (h f rfl)).2 hkey

theorem Clear.inserted (h : Clear kind (before ++ after))
    (hnew : ∀ f : Field, f.owner = kind → key ∈ f.keys → ∀ m ∈ before ++ after, m.1 ∉ f.keys) :
    Clear kind (before ++ (key, x) :: after) :=
  fun f hf => atMostOne_middle_iff.2 ⟨h f hf, hnew f hf⟩

/-- A field is found where it stands. -/
theorem Clear.find_eq (h : Clear f.owner (before ++ (key, x) :: after)) (hkey : key ∈ f.keys) :
    f.find (before ++ (key, x) :: after) = some x :=
  (Json.lookupAny_eq_some_iff (h f rfl)).2 ⟨key, hkey, List.mem_append_cons_self⟩

/-- The order of the members does not matter to what is found. -/
theorem Clear.find_perm {members' : List (String × Json)} (h : Clear kind members) (hperm : members.Perm members')
    (hf : f.owner = kind) : f.find members = f.find members' := by
  refine Option.ext fun v => ?_
  rw [Field.find, Field.find, Json.lookupAny_eq_some_iff (h f hf),
    Json.lookupAny_eq_some_iff (h.of_perm hperm f hf)]
  simp only [hperm.mem_iff]

theorem Field.find_eq_none (h : ∀ m ∈ members, m.1 ∉ f.keys) : f.find members = none :=
  Json.lookupAny_eq_none_iff.2 h

/-- The other fields are passed over. -/
theorem Field.find_middle {g : Field} (hg : g.owner = f.owner) (hne : g ≠ f) (hkey : key ∈ f.keys) :
    g.find (before ++ (key, x) :: after) = g.find (before ++ after) :=
  Json.lookupAny_middle fun hmem => hne (Field.eq_of_mem_keys hg hmem hkey)

theorem Unambiguous.clear (h : Unambiguous kind (.object members)) : Clear kind members := by
  cases h with
  | object hclear hparts => exact hclear
  | other h => exact absurd rfl (h members)

theorem Unambiguous.part (h : Unambiguous kind (.object members)) (hf : f.owner = kind) (hkey : key ∈ f.keys)
    (hmem : (key, x) ∈ members) {kind' : ObjectKind} {v : Json} (hpart : f.Part x kind' v) : Unambiguous kind' v := by
  cases h with
  | object hclear hparts => exact hparts f hf key hkey x hmem kind' v hpart
  | other h => exact absurd rfl (h members)

/-- Where some members stand already, only what is new has to be looked at. -/
theorem Unambiguous.inserted (h : Unambiguous kind (.object members))
    (hclear : Clear kind (before ++ (key, x) :: after)) (hsub : before ++ after ⊆ members)
    (hnew : ∀ f : Field, f.owner = kind → key ∈ f.keys → ∀ kind' v, f.Part x kind' v → Unambiguous kind' v) :
    Unambiguous kind (.object (before ++ (key, x) :: after)) := by
  refine .object hclear fun g hg k hk z hmem kind' v hpart => ?_
  rw [List.perm_middle.mem_iff, List.mem_cons] at hmem
  obtain hmem | hmem := hmem
  · cases hmem
    exact hnew g hg hk kind' v hpart
  · exact h.part hg hk (hsub hmem) hpart

theorem Unambiguous.replaced (h : Unambiguous f.owner (.object (before ++ (key, x) :: after))) (hkey : key ∈ f.keys)
    (hkey' : key' ∈ f.keys) (hnew : ∀ kind' v, f.Part y kind' v → Unambiguous kind' v) :
    Unambiguous f.owner (.object (before ++ (key', y) :: after)) := by
  refine h.inserted (h.clear.replaced hkey hkey') (fun m hm => ?_) fun g hg hg' => ?_
  · exact List.perm_middle.mem_iff.2 (List.mem_cons_of_mem _ hm)
  · rwa [Field.eq_of_mem_keys hg hg' hkey']

theorem Field.not_part (hobject : f.object? = none) (hitems : f.items? = none) {kind' : ObjectKind} {v : Json} :
    ¬ f.Part x kind' v := by
  intro h
  cases h with
  | object h =>
    rw [hobject] at h
    cases h
  | item h _ =>
    rw [hitems] at h
    cases h

/-- The value of a field that may be left out is looked at as a whole. -/
theorem Omissible.not_part (h : Omissible f x) {kind' : ObjectKind} {v : Json} : ¬ f.Part x kind' v := by
  cases h with
  | classification | null | zero => exact Field.not_part rfl rfl

/-- A field that has another value in its place has no more parts for it. -/
theorem Rewords.part (h : Rewords f x y) {kind' : ObjectKind} {v : Json} (hpart : f.Part y kind' v) :
    f.Part x kind' v := by
  cases h with
  | same => exact hpart
  | role | classification => exact absurd hpart (Field.not_part rfl rfl)

end Members

/-- Spelled in another way, an object has no field twice either. -/
theorem Respells.unambiguous {kind : ObjectKind} {v w : Json} (h : Respells kind v w) (hv : Unambiguous kind v) :
    Unambiguous kind w := by
  -- one case for each way of respelling; what stays where it was is unambiguous already
  induction h with
  | reordered hperm =>
    refine .object (hv.clear.of_perm hperm) fun f hf key hkey x hmem kind' v hpart => ?_
    exact hv.part hf hkey (hperm.mem_iff.2 hmem) hpart
  | extended hunknown x =>
    refine hv.inserted (hv.clear.inserted fun f hf hkey => absurd hkey (hunknown f hf)) (List.Subset.refl _) ?_
    intro f hf hkey
    exact absurd hkey (hunknown f hf)
  | reworded hkey hkey' h =>
    refine hv.replaced hkey hkey' fun kind' v hpart => ?_
    exact hv.part rfl hkey (List.mem_append_cons_self) (h.part hpart)
  | omitted hkey h =>
    refine .object hv.clear.removed fun g hg k hk z hmem kind' v hpart => ?_
    exact hv.part hg hk (List.perm_middle.mem_iff.2 (List.mem_cons_of_mem _ hmem)) hpart
  | supplied hkey h hmissing =>
    refine hv.inserted (hv.clear.inserted fun g hg hg' => ?_) (List.Subset.refl _) fun g hg hg' kind' v hpart => ?_
    · rwa [Field.eq_of_mem_keys hg hg' hkey]
    · rw [Field.eq_of_mem_keys hg hg' hkey] at hpart
      exact absurd hpart h.not_part
  | inObject hobject hkey h ih =>
    have hx := ih (hv.part rfl hkey List.mem_append_cons_self (.object hobject))
    refine hv.replaced hkey hkey fun kind' v hpart => ?_
    cases hpart with
    | object hobject' =>
      obtain rfl := Option.some.inj (hobject.symm.trans hobject')
      exact hx
    | item hitems _ => exact absurd hobject (Field.object?_of_items? hitems)
  | @inItem f kind before after key x y first rest hitems hkey h ih =>
    have hx := ih (hv.part rfl hkey List.mem_append_cons_self (.item hitems List.mem_append_cons_self))
    refine hv.replaced hkey hkey fun kind' v hpart => ?_
    cases hpart with
    | object hobject => exact absurd hobject (Field.object?_of_items? hitems)
    | item hitems' hmem =>
      obtain rfl := Option.some.inj (hitems.symm.trans hitems')
      rw [List.perm_middle.mem_iff, List.mem_cons] at hmem
      obtain rfl | hmem := hmem
      · exact hx
      · have hmem' : v ∈ first ++ x :: rest := List.perm_middle.mem_iff.2 (List.mem_cons_of_mem _ hmem)
        exact hv.part rfl hkey List.mem_append_cons_self (.item hitems hmem')

end Policy

section Unaliased

mutual
def Json.unaliased : Json → Bool
  | .array items => unaliasedItems items
  | .object members =>
    (Policy.Field.all.all fun f => decide (AtMostOne f.keys members)) && unaliasedMembers members
  | _ => true
def Json.unaliasedItems : List Json → Bool
  | [] => true
  | v :: rest => unaliased v && unaliasedItems rest
def Json.unaliasedMembers : List (String × Json) → Bool
  | [] => true
  | (_, v) :: rest => unaliased v && unaliasedMembers rest
end

theorem Json.unaliasedItems_iff {items : List Json} :
    unaliasedItems items = true ↔ ∀ v ∈ items, v.unaliased = true := by
  induction items with
  | nil => exact iff_of_true rfl (List.forall_mem_nil _)
  | cons v rest ih => rw [unaliasedItems, Bool.and_eq_true, List.forall_mem_cons, ih]

theorem Json.unaliasedMembers_iff {members : List (String × Json)} :
    unaliasedMembers members = true ↔ ∀ m ∈ members, m.2.unaliased = true := by
  induction members with
  | nil => exact iff_of_true rfl (List.forall_mem_nil _)
  | cons m rest ih => rw [unaliasedMembers, Bool.and_eq_true, List.forall_mem_cons, ih]

/-- What holds of all objects holds of those that the reader looks into. -/
theorem Policy.Unambiguous.of_unaliased {v : Json} (h : v.unaliased = true) (kind : ObjectKind) :
    Unambiguous kind v := by
  -- an item is a part of the field whose value is the list, so lists are taken with their items
  suffices hall : (∀ kind, Unambiguous kind v) ∧
      ∀ items, v = .array items → ∀ x ∈ items, ∀ kind, Unambiguous kind x from hall.1 kind
  induction v using Json.induction with
  | null | bool | number | string =>
    refine ⟨fun kind => .other fun members heq => ?_, fun items heq => ?_⟩
    · cases heq
    · cases heq
  | array items ih =>
    refine ⟨fun kind => .other fun members heq => ?_, fun items' heq x hx => ?_⟩
    · cases heq
    · cases heq
      exact (ih x hx (Json.unaliasedItems_iff.1 h x hx)).1
  | object members ih =>
    rw [Json.unaliased, Bool.and_eq_true, List.all_eq_true, Json.unaliasedMembers_iff] at h
    refine ⟨fun kind => .object (fun f hf => of_decide_eq_true (h.1 f f.mem_all)) ?_, fun items heq => ?_⟩
    · intro f hf key hkey x hmem kind' v hpart
      obtain ⟨hx, hitems⟩ := ih (key, x) hmem (h.2 (key, x) hmem)
      cases hpart with
      | object => exact hx kind'
      | item hsome hv => exact hitems _ rfl v hv kind'
    · cases heq

end Unaliased

end Fabric

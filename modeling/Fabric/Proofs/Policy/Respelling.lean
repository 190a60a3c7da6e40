import Fabric.Proofs.Policy.Canonical
import Fabric.Proofs.Policy.Overdeep
import Fabric.Proofs.Policy.Spelling
import Fabric.Proofs.Traverse
import Mathlib.Data.List.Forall2
import Mathlib.Data.Option.Defs
import Mathlib.Logic.Relation

/-!
A policy in JSON is read alike in all its spellings. What an object is read as depends on its fields alone, so the
fields are compared one by one; and the measure of depth finds the same groups as the reader does, and those that the
reader passes over.
-/
namespace Fabric

theorem Json.lookupAny_singleton (key : String) (members : List (String × Json)) :
    Json.lookupAny [key] members = Json.lookup key members := by
  rw [Json.lookupAny, List.findSome?_cons]
  cases Json.lookup key members with
  | none => rfl
  | some v => rfl

theorem nestsGroups_iff {α : Type} {holds : α → List α → Prop} {k : Nat} {a : α} :
    NestsGroups holds k a ↔
      ∃ bs, holds a bs ∧ (k = 1 ∨ ∃ j, k = j + 1 ∧ ∃ b ∈ bs, NestsGroups holds j b) := by
  constructor
  · intro h
    cases h with
    | one h => exact ⟨_, h, .inl rfl⟩
    | more h hb hk => exact ⟨_, h, .inr ⟨_, rfl, _, hb, hk⟩⟩
  · intro h
    obtain ⟨bs, h, rfl | ⟨j, rfl, b, hb, hk⟩⟩ := h
    · exact .one h
    · exact .more h hb hk

/-- Items are taken alike one after the other if each of them is. -/
theorem toOption_mapM_congr {ε α β : Type} {f : α → Except ε β} {xs ys : List α}
    (h : List.Forall₂ (fun x y => (f x).toOption = (f y).toOption) xs ys) :
    (xs.mapM f).toOption = (ys.mapM f).toOption := by
  induction h with
  | nil => rfl
  | cons hhead htail ih => simp only [List.mapM_cons, toOption_bind, hhead, ih]

namespace Policy

theorem rulesOfJson_eq_mapM (vs : List Json) : rulesOfJson vs = vs.mapM ruleOfJson := by
  induction vs with
  | nil => rw [rulesOfJson, List.mapM_nil]; rfl
  | cons v rest ih =>
    rw [rulesOfJson, List.mapM_cons, ih]
    cases ruleOfJson v with
    | error e => rfl
    | ok r => cases rest.mapM ruleOfJson <;> rfl

structure RuleAgree (v w : Json) : Prop where
  read : (ruleOfJson v).toOption = (ruleOfJson w).toOption
  nests : ∀ k, NestsGroups HoldsRules k v ↔ NestsGroups HoldsRules k w

/-- Two values are read alike where an object of the kind is read. A principal is read in an identity, and a group in
a rule. -/
def Agree : ObjectKind → Json → Json → Prop
  | .policy, v, w => (ofJson v).toOption = (ofJson w).toOption
  | .identity, v, w => (principalOfJson v).toOption = (principalOfJson w).toOption
  | .principal, v, w =>
    (principalOfJson (.object [("principal", v)])).toOption = (principalOfJson (.object [("principal", w)])).toOption
  | .rule, v, w => RuleAgree v w
  | .group, v, w => RuleAgree (.object [("nOutOf", v)]) (.object [("nOutOf", w)])

theorem Agree.refl (kind : ObjectKind) (v : Json) : Agree kind v v := by
  cases kind with
  | policy | identity | principal => exact rfl
  | rule | group => exact ⟨rfl, fun _ => Iff.rfl⟩

inductive ItemsAgree (kind : ObjectKind) : Json → Json → Prop
  | same (v : Json) : ItemsAgree kind v v
  | items {xs ys : List Json} (h : List.Forall₂ (Agree kind) xs ys) : ItemsAgree kind (.array xs) (.array ys)

def Field.Agrees : Field → Option Json → Option Json → Prop
  | .version, o, o' => (versionOfJson o).toOption = (versionOfJson o').toOption
  | .identities, o, o' => Option.Rel (ItemsAgree .identity) o o'
  | .rule, o, o' => Option.Rel (Agree .rule) o o'
  | .classification, o, o' => (checkClassification o).toOption = (checkClassification o').toOption
  | .principal, o, o' => Option.Rel (Agree .principal) o o'
  | .mspId, o, o' => o = o'
  | .role, o, o' => (roleOfJson o).toOption = (roleOfJson o').toOption
  | .signedBy, o, o' => o = o'
  | .group, o, o' => Option.Rel (Agree .group) o o'
  | .count, o, o' => o = o'
  | .rules, o, o' => Option.Rel (ItemsAgree .rule) o o'

theorem Field.agrees_refl (f : Field) (o : Option Json) : f.Agrees o o := by
  have hrel {r : Json → Json → Prop} (hr : ∀ v, r v v) : Option.Rel r o o := by
    cases o with
    | none => exact .none
    | some v => exact .some (hr v)
  cases f with
  | identities | rules => exact hrel fun v => .same v
  | rule | principal | group => exact hrel (Agree.refl _)
  | _ => exact rfl

section Reading

variable {members members' : List (String × Json)}

/-- An identity is read by its fields. -/
theorem toOption_principalOfJson (members : List (String × Json)) :
    (principalOfJson (.object members)).toOption =
      (checkClassification (Field.classification.find members)).toOption.bind fun _ =>
        (Field.principal.find members).bind fun x => (principalOfJson (.object [("principal", x)])).toOption := by
  have hprincipal : Field.principal.find members = Json.lookup "principal" members := Json.lookupAny_singleton _ _
  have hclass : Field.classification.find members = Json.lookupAny classificationKeys members := rfl
  rw [hprincipal, hclass, principalOfJson]
  cases checkClassification (Json.lookupAny classificationKeys members) with
  | error e => rfl
  | ok u =>
    cases Json.lookup "principal" members with
    | none => rfl
    | some x => cases x <;> rfl

theorem toOption_principal (members : List (String × Json)) :
    (principalOfJson (.object [("principal", .object members)])).toOption =
      (Field.mspId.find members).bind fun m => m.string?.bind fun mspId =>
        (roleOfJson (Field.role.find members)).toOption.map fun r => ⟨mspId, r⟩ := by
  have hrole : Field.role.find members = Json.lookup "role" members := Json.lookupAny_singleton _ _
  have hmspId : Field.mspId.find members = Json.lookupAny mspIdKeys members := rfl
  have hclass : checkClassification (Json.lookupAny classificationKeys [("principal", .object members)]) = .ok () := rfl
  have hprincipal : Json.lookup "principal" [("principal", .object members)] = some (.object members) := rfl
  have hdone : (Except.ok () : Except PolicyError Unit).toOption = some () := rfl
  rw [hrole, hmspId, principalOfJson, hclass, hprincipal, toOption_bind, hdone, Option.bind_some]
  dsimp only
  cases Json.lookupAny mspIdKeys members with
  | none => rfl
  | some m =>
    cases m with
    | string mspId => cases roleOfJson (Json.lookup "role" members) <;> rfl
    | _ => rfl

/-- A rule is read by its signer, and by its group if it names none. -/
theorem toOption_ruleOfJson (members : List (String × Json)) :
    (ruleOfJson (.object members)).toOption =
      (Field.signedBy.find members).elim
        ((Field.group.find members).bind fun x => (ruleOfJson (.object [("nOutOf", x)])).toOption)
        fun index => (word? index).map .signedBy := by
  have hsigned : Field.signedBy.find members = Json.lookupAny signedByKeys members := rfl
  have hgroup : Field.group.find members = Json.lookupAny groupKeys members := rfl
  rw [hsigned, hgroup, ruleOfJson_eq, RuleNode.ofJson]
  cases Json.lookupAny signedByKeys members with
  | some index =>
    dsimp only [Option.elim]
    cases word? index <;> rfl
  | none =>
    dsimp only [Option.elim]
    cases Json.lookupAny groupKeys members with
    | none => rfl
    | some x =>
      have hsigned : Json.lookupAny signedByKeys [("nOutOf", x)] = none := rfl
      have hgroup : Json.lookupAny groupKeys [("nOutOf", x)] = some x := rfl
      rw [Option.bind_some, ruleOfJson_eq (.object [("nOutOf", x)]), RuleNode.ofJson, hsigned, hgroup]
      cases x <;> rfl

theorem holdsRules_object_iff {rules : List Json} :
    HoldsRules (.object members) rules ↔
      ∃ x, Field.group.find members = some x ∧ HoldsRules (.object [("nOutOf", x)]) rules := by
  constructor
  · intro h
    obtain ⟨_, inner, hmembers, hgroup, hrules⟩ := h
    cases hmembers
    exact ⟨_, hgroup, _, inner, rfl, rfl, hrules⟩
  · intro h
    obtain ⟨x, hfind, _, inner, hmembers, hgroup, hrules⟩ := h
    cases hmembers
    cases hgroup
    exact ⟨members, inner, rfl, hfind, hrules⟩

/-- What is a group does not depend on whether a signer is named beside it. -/
theorem nestsGroups_object_iff {k : Nat} :
    NestsGroups HoldsRules k (.object members) ↔
      ∃ x, Field.group.find members = some x ∧ NestsGroups HoldsRules k (.object [("nOutOf", x)]) := by
  constructor
  · intro h
    obtain ⟨rules, hrules, hk⟩ := nestsGroups_iff.1 h
    obtain ⟨x, hx, hrules⟩ := holdsRules_object_iff.1 hrules
    exact ⟨x, hx, nestsGroups_iff.2 ⟨rules, hrules, hk⟩⟩
  · intro h
    obtain ⟨x, hx, h⟩ := h
    obtain ⟨rules, hrules, hk⟩ := nestsGroups_iff.1 h
    exact nestsGroups_iff.2 ⟨rules, holdsRules_object_iff.2 ⟨x, hx, hrules⟩, hk⟩

/-- A group is read by its fields. -/
theorem toOption_group (members : List (String × Json)) :
    (ruleOfJson (.object [("nOutOf", .object members)])).toOption =
      ((Field.count.find members).bind word?).bind fun n => (Field.rules.find members).bind fun rules =>
        rules.items?.bind fun items => (items.mapM ruleOfJson).toOption.map (.nOutOf n) := by
  have hcount : Field.count.find members = Json.lookup "n" members := Json.lookupAny_singleton _ _
  have hrules : Field.rules.find members = Json.lookup "rules" members := Json.lookupAny_singleton _ _
  have hsigned : Json.lookupAny signedByKeys [("nOutOf", .object members)] = none := rfl
  have hgroup : Json.lookupAny groupKeys [("nOutOf", .object members)] = some (.object members) := rfl
  rw [hcount, hrules, ruleOfJson_eq, RuleNode.ofJson, hsigned, hgroup]
  dsimp only
  cases (Json.lookup "n" members).bind word? with
  | none => rfl
  | some n =>
    cases Json.lookup "rules" members with
    | none => rfl
    | some rules =>
      cases rules with
      | array items =>
        dsimp only
        rw [rulesOfJson_eq_mapM, toOption_map]
        rfl
      | _ => rfl

theorem holdsRules_group_iff {rules : List Json} :
    HoldsRules (.object [("nOutOf", .object members)]) rules ↔ Field.rules.find members = some (.array rules) := by
  have hrules : Field.rules.find members = Json.lookup "rules" members := Json.lookupAny_singleton _ _
  rw [hrules]
  constructor
  · intro h
    obtain ⟨_, inner, hmembers, hgroup, hrules⟩ := h
    cases hmembers
    cases hgroup
    exact hrules
  · intro h
    exact ⟨_, members, rfl, rfl, h⟩

/-- A policy is read by its fields, once its rule is found not to be too deep. -/
theorem toOption_ofJson (members : List (String × Json)) :
    (ofJson (.object members)).toOption =
      (Field.rule.find members).bind fun rule => (checkDepth groupTree rule).toOption.bind fun _ =>
        (versionOfJson (Field.version.find members)).toOption.bind fun version =>
          (identitiesOfJson (Field.identities.find members)).toOption.bind fun identities =>
            (ruleOfJson rule).toOption.bind fun r => (validated ⟨version, identities, r⟩).toOption := by
  have hrule : Field.rule.find members = Json.lookup "rule" members := Json.lookupAny_singleton _ _
  have hversion : Field.version.find members = Json.lookup "version" members := Json.lookupAny_singleton _ _
  have hidentities : Field.identities.find members = Json.lookup "identities" members := Json.lookupAny_singleton _ _
  rw [hrule, hversion, hidentities, ofJson]
  cases Json.lookup "rule" members with
  | none => rfl
  | some rule => simp only [toOption_bind, Option.bind_some]

end Reading

section Fields

variable {members members' : List (String × Json)}

theorem checkDepth_congr {v w : Json} (h : ∀ k, NestsGroups HoldsRules k v ↔ NestsGroups HoldsRules k w) :
    checkDepth groupTree v = checkDepth groupTree w := by
  have hwithin : groupTree.withinLimit maxDepth [(v, 0)] = groupTree.withinLimit maxDepth [(w, 0)] := by
    rw [Bool.eq_iff_iff, groupTree.withinLimit_iff_nestsGroups fun _ _ => holdsRules_iff,
      groupTree.withinLimit_iff_nestsGroups fun _ _ => holdsRules_iff]
    simp only [List.forall_mem_singleton, h]
  rw [checkDepth, checkDepth, hwithin]

theorem identitiesOfJson_congr {o o' : Option Json} (h : Field.identities.Agrees o o') :
    (identitiesOfJson o).toOption = (identitiesOfJson o').toOption := by
  cases h with
  | none => rfl
  | some h =>
    cases h with
    | same => rfl
    | items h => exact toOption_mapM_congr h

theorem exists_nestsGroups_congr {xs ys : List Json} (h : List.Forall₂ RuleAgree xs ys) (k : Nat) :
    (∃ x ∈ xs, NestsGroups HoldsRules k x) ↔ ∃ y ∈ ys, NestsGroups HoldsRules k y := by
  induction h with
  | nil => exact iff_of_eq rfl
  | cons hhead htail ih => rw [List.exists_mem_cons_iff, List.exists_mem_cons_iff, hhead.nests k, ih]

/-- Rules whose fields are taken alike are read alike. -/
theorem RuleAgree.of_fields (hsigned : Field.signedBy.Agrees (Field.signedBy.find members) (Field.signedBy.find members'))
    (hgroup : Field.group.Agrees (Field.group.find members) (Field.group.find members')) :
    RuleAgree (.object members) (.object members') := by
  have hsame : Field.signedBy.find members = Field.signedBy.find members' := hsigned
  refine ⟨?_, fun k => ?_⟩
  · rw [toOption_ruleOfJson, toOption_ruleOfJson, hsame]
    congr 1
    generalize Field.group.find members = o at hgroup
    generalize Field.group.find members' = o' at hgroup
    cases hgroup with
    | none => rfl
    | some h => exact h.read
  · rw [nestsGroups_object_iff, nestsGroups_object_iff]
    generalize Field.group.find members = o at hgroup
    generalize Field.group.find members' = o' at hgroup
    cases hgroup with
    | none => exact Iff.rfl
    | some h => simp only [Option.some.injEq, exists_eq_left', h.nests k]

/-- Groups whose counts and rules are taken alike are read alike. -/
theorem RuleAgree.of_group_fields (hcount : Field.count.Agrees (Field.count.find members) (Field.count.find members'))
    (hrules : Field.rules.Agrees (Field.rules.find members) (Field.rules.find members')) :
    RuleAgree (.object [("nOutOf", .object members)]) (.object [("nOutOf", .object members')]) := by
  have hsame : Field.count.find members = Field.count.find members' := hcount
  refine ⟨?_, fun k => ?_⟩
  · rw [toOption_group, toOption_group, hsame]
    generalize Field.rules.find members = o at hrules
    generalize Field.rules.find members' = o' at hrules
    cases hrules with
    | none => rfl
    | some h =>
      cases h with
      | same => rfl
      | items h =>
        have hread := toOption_mapM_congr (h.imp fun _ _ (hxy : RuleAgree _ _) => hxy.read)
        simp only [Option.bind_some, Json.items?, hread]
  · simp only [nestsGroups_iff (a := Json.object [("nOutOf", _)]), holdsRules_group_iff]
    generalize Field.rules.find members = o at hrules
    generalize Field.rules.find members' = o' at hrules
    cases hrules with
    | none => exact Iff.rfl
    | some h =>
      cases h with
      | same => exact Iff.rfl
      | items h => simp only [Option.some.injEq, Json.array.injEq, exists_eq_left', exists_nestsGroups_congr h]

/-- Objects are read alike if each of their fields is. -/
theorem Agree.object {kind : ObjectKind}
    (h : ∀ f : Field, f.owner = kind → f.Agrees (f.find members) (f.find members')) :
    Agree kind (.object members) (.object members') := by
  cases kind with
  | policy =>
    -- the depth is measured on the rule as it stands, so its groups have to be the same as well
    have hversion : (versionOfJson (Field.version.find members)).toOption = _ := h .version rfl
    have hidentities := identitiesOfJson_congr (h .identities rfl)
    have hrule := h .rule rfl
    rw [Agree, toOption_ofJson, toOption_ofJson, hversion, hidentities]
    generalize Field.rule.find members = o at hrule
    generalize Field.rule.find members' = o' at hrule
    cases hrule with
    | none => rfl
    | some h =>
      have hdepth := checkDepth_congr h.nests
      have hread := h.read
      simp only [Option.bind_some, hdepth, hread]
  | identity =>
    have hclass : (checkClassification (Field.classification.find members)).toOption = _ := h .classification rfl
    have hprincipal := h .principal rfl
    rw [Agree, toOption_principalOfJson, toOption_principalOfJson, hclass]
    generalize Field.principal.find members = o at hprincipal
    generalize Field.principal.find members' = o' at hprincipal
    cases hprincipal with
    | none => rfl
    | some h => rw [Option.bind_some, Option.bind_some, h]
  | principal =>
    have hmspId : Field.mspId.find members = Field.mspId.find members' := h .mspId rfl
    have hrole : (roleOfJson (Field.role.find members)).toOption = _ := h .role rfl
    rw [Agree, toOption_principal, toOption_principal, hmspId, hrole]
  | rule => exact .of_fields (h .signedBy rfl) (h .group rfl)
  | group => exact .of_group_fields (h .count rfl) (h .rules rfl)

end Fields

section Respelling

variable {f : Field} {x y : Json}

theorem RoleSpelling.roleOfJson {r : Role} (h : RoleSpelling r x) : roleOfJson (some x) = .ok r := by
  cases h with
  | name h => exact Role.parse_eq_ok_iff.2 h
  | code => cases r <;> rfl

theorem ByRole.checkClassification (h : ByRole x) : checkClassification (some x) = .ok () := by
  cases h with
  | name h => exact if_pos h
  | code => rfl

theorem Rewords.agrees (h : Rewords f x y) : f.Agrees (some x) (some y) := by
  cases h with
  | same => exact f.agrees_refl _
  | role hx hy => rw [Field.Agrees, hx.roleOfJson, hy.roleOfJson]
  | classification hx hy => rw [Field.Agrees, hx.checkClassification, hy.checkClassification]

theorem Omissible.agrees (h : Omissible f x) : f.Agrees (some x) none ∧ f.Agrees none (some x) := by
  cases h with
  | classification h =>
    have hread : (Policy.checkClassification (some x)).toOption = (Policy.checkClassification none).toOption := by
      rw [h.checkClassification]
      rfl
    exact ⟨hread, hread.symm⟩
  | null | zero => exact ⟨rfl, rfl⟩

theorem Agree.agrees_object {kind : ObjectKind} (h : Agree kind x y) (hf : f.object? = some kind) :
    f.Agrees (some x) (some y) := by
  cases f with
  | rule | principal | group =>
    cases hf
    exact .some h
  | _ => cases hf

theorem Agree.agrees_items {kind : ObjectKind} (h : Agree kind x y) (hf : f.items? = some kind)
    (first rest : List Json) :
    f.Agrees (some (.array (first ++ x :: rest))) (some (.array (first ++ y :: rest))) := by
  have hitems : List.Forall₂ (Agree kind) (first ++ x :: rest) (first ++ y :: rest) := by
    induction first with
    | nil => exact .cons h (List.forall₂_same.2 fun v _ => Agree.refl kind v)
    | cons v first ih => exact .cons (Agree.refl kind v) ih
  cases f with
  | identities | rules =>
    cases hf
    exact .some (.items hitems)
  | _ => cases hf

/-- In place of a value there may be one that is taken alike. -/
theorem Agree.replaced {before after : List (String × Json)} {key key' : String}
    (h : Clear f.owner (before ++ (key, x) :: after)) (hkey : key ∈ f.keys) (hkey' : key' ∈ f.keys)
    (hxy : f.Agrees (some x) (some y)) :
    Agree f.owner (.object (before ++ (key, x) :: after)) (.object (before ++ (key', y) :: after)) := by
  refine Agree.object fun g hg => ?_
  by_cases hgf : g = f
  · subst hgf
    rw [h.find_eq hkey, (h.replaced hkey hkey').find_eq hkey']
    exact hxy
  · rw [Field.find_middle hg hgf hkey, Field.find_middle hg hgf hkey']
    exact g.agrees_refl _

/-- An object is read alike if it is spelled in another way in one place. -/
theorem Respells.agree {kind : ObjectKind} {v w : Json} (h : Respells kind v w) (hv : Unambiguous kind v) :
    Agree kind v w := by
  -- in each case the fields are compared one by one, and all but the one that is respelled are found as before
  induction h with
  | reordered hperm =>
    refine Agree.object fun f hf => ?_
    rw [hv.clear.find_perm hperm hf]
    exact f.agrees_refl _
  | extended hunknown x =>
    refine Agree.object fun f hf => ?_
    rw [Field.find, Field.find, Json.lookupAny_middle (hunknown f hf)]
    exact f.agrees_refl _
  | reworded hkey hkey' h => exact Agree.replaced hv.clear hkey hkey' h.agrees
  | @omitted f before after key x hkey h =>
    refine Agree.object fun g hg => ?_
    by_cases hgf : g = f
    · subst hgf
      rw [hv.clear.find_eq hkey, Field.find_eq_none (hv.clear.alone hkey)]
      exact h.agrees.1
    · rw [Field.find_middle hg hgf hkey]
      exact g.agrees_refl _
  | @supplied f before after key x hkey h hmissing =>
    have hclear := (Respells.supplied hkey h hmissing).unambiguous hv
    refine Agree.object fun g hg => ?_
    by_cases hgf : g = f
    · subst hgf
      rw [hclear.clear.find_eq hkey, Field.find_eq_none hmissing]
      exact h.agrees.2
    · rw [Field.find_middle hg hgf hkey]
      exact g.agrees_refl _
  | inObject hobject hkey h ih =>
    have hx := ih (hv.part rfl hkey List.mem_append_cons_self (.object hobject))
    exact Agree.replaced hv.clear hkey hkey (hx.agrees_object hobject)
  | inItem hitems hkey h ih =>
    have hx := ih (hv.part rfl hkey List.mem_append_cons_self (.item hitems List.mem_append_cons_self))
    exact Agree.replaced hv.clear hkey hkey (hx.agrees_items hitems _ _)

section Runs

variable {kind : ObjectKind} {key : String}

theorem Respells.run_inObject (before after : List (String × Json)) (hobject : f.object? = some kind)
    (hkey : key ∈ f.keys) (h : Relation.ReflTransGen (Respells kind) x y) :
    Relation.ReflTransGen (Respells f.owner) (.object (before ++ (key, x) :: after))
      (.object (before ++ (key, y) :: after)) := by
  induction h with
  | refl => exact .refl
  | tail hrun hstep ih => exact ih.tail (.inObject hobject hkey hstep)

theorem Respells.run_inItem (before after : List (String × Json)) (first rest : List Json)
    (hitems : f.items? = some kind) (hkey : key ∈ f.keys) (h : Relation.ReflTransGen (Respells kind) x y) :
    Relation.ReflTransGen (Respells f.owner) (.object (before ++ (key, .array (first ++ x :: rest)) :: after))
      (.object (before ++ (key, .array (first ++ y :: rest)) :: after)) := by
  induction h with
  | refl => exact .refl
  | tail hrun hstep ih => exact ih.tail (.inItem hitems hkey hstep)

end Runs

end Respelling

/-- However a policy is spelled in JSON, in as many places as there are, it is read as the same policy, if no object
has two members for one field. -/
theorem ofJson_respelled {v w : Json} (hv : v.unaliased = true) (h : Relation.ReflTransGen (Respells .policy) v w)
    (p : Policy) : ofJson w = .ok p ↔ ofJson v = .ok p := by
  have hread : Unambiguous .policy w ∧ (ofJson v).toOption = (ofJson w).toOption := by
    -- each step is read alike only where no field is there twice, so this is carried along
    induction h with
    | refl => exact ⟨.of_unaliased hv .policy, rfl⟩
    | tail hrun hstep ih => exact ⟨hstep.unambiguous ih.1, ih.2.trans (hstep.agree ih.1)⟩
  rw [← toOption_eq_some_iff, ← toOption_eq_some_iff, hread.2]

/-- Every key in its other spelling, a role by its number, and a classification and a version that are left out. -/
theorem ofJson_respelled_snake :
    let p : Policy := ⟨0, [⟨"Org1MSP", .member⟩], .nOutOf 1 [.signedBy 0]⟩
    let rule (group signer : String) : Json := .object [(group,
      .object [("n", Json.ofNat 1), ("rules", .array [.object [(signer, Json.ofNat 0)]])])]
    let v : Json := .object [
      ("identities", .array [.object [
        ("principal", .object [("mspIdentifier", .string "Org1MSP"), ("role", .string "MEMBER")]),
        ("principalClassification", .string "ROLE")]]),
      ("rule", rule "nOutOf" "signedBy"), ("version", Json.ofInt 0)]
    let w : Json := .object [
      ("identities", .array [.object [
        ("principal", .object [("role", Json.ofInt 0), ("msp_id", .string "Org1MSP"), ("note", .null)])]]),
      ("rule", rule "n_out_of" "signed_by")]
    ofJson v = .ok p ∧ ofJson w = .ok p := by
  intro p rule v w
  have hp : p.validate = .ok () := by
    rw [validate_eq_ok_iff]
    simp [p, Rule.WellFormed, Rule.AllWellFormed, Rule.nesting, Rule.nestingList, maxDepth]
  have hv : ofJson v = .ok p := ofJson_sorted_of_valid p hp
  have hprincipal : Relation.ReflTransGen (Respells .principal)
      (.object [("mspIdentifier", .string "Org1MSP"), ("role", .string "MEMBER")])
      (.object [("role", Json.ofInt 0), ("msp_id", .string "Org1MSP"), ("note", .null)]) := by
    refine .head (@Respells.reworded .mspId [] _ _ "msp_id" _ _ (by decide) (by decide) (.same ..)) ?_
    refine .head (@Respells.reworded .role [_] [] "role" "role" _ (Json.ofInt 0) (by decide) (by decide)
      (.role (.name (Role.toUpper_name .member)) .code)) ?_
    refine .head (.reordered (.swap ..)) ?_
    exact .single (@Respells.extended .principal [_, _] [] "note" (by intro f; cases f <;> decide) .null)
  have hidentity : Relation.ReflTransGen (Respells .identity)
      (.object [("principal", .object [("mspIdentifier", .string "Org1MSP"), ("role", .string "MEMBER")]),
        ("principalClassification", .string "ROLE")])
      (.object [("principal", .object [("role", Json.ofInt 0), ("msp_id", .string "Org1MSP"), ("note", .null)])]) := by
    refine .head (@Respells.omitted .classification [_] [] _ _ (by decide) (.classification (.name ?_))) ?_
    · exact toUpper_of_toList rfl
    · exact Respells.run_inObject (f := .principal) [] [] rfl (by decide) hprincipal
  have hrule : Relation.ReflTransGen (Respells .rule) (rule "nOutOf" "signedBy") (rule "n_out_of" "signed_by") := by
    have hsigner : Respells .rule (.object [("signedBy", Json.ofNat 0)]) (.object [("signed_by", Json.ofNat 0)]) :=
      @Respells.reworded .signedBy [] [] _ _ _ _ (by decide) (by decide) (.same ..)
    have hgroup := @Respells.inItem .rules .rule [("n", Json.ofNat 1)] [] "rules" _ _ [] [] rfl (by decide) hsigner
    refine .head (@Respells.inObject .group .group [] [] "nOutOf" _ _ rfl (by decide) hgroup) ?_
    exact .single (@Respells.reworded .group [] [] _ _ _ _ (by decide) (by decide) (.same ..))
  have hrun : Relation.ReflTransGen (Respells .policy) v w := by
    refine .head (@Respells.omitted .version [_, _] [] _ _ (by decide) .zero) ?_
    refine .trans (Respells.run_inItem (f := .identities) [] [_] [] [] rfl (by decide) hidentity) ?_
    exact Respells.run_inObject (f := .rule) [_] [] rfl (by decide) hrule
  exact ⟨hv, (ofJson_respelled (by decide +kernel) hrun p).2 hv⟩

end Policy

end Fabric

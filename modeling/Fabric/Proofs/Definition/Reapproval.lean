import Fabric.Proofs.Collected
import Fabric.Proofs.Policy.RoundTrip
import Fabric.Proofs.View.Definition

namespace Fabric

open Message (ApplicationPolicy BoolMap CollectionPackage MspRole StaticCollection)
open Wire (Passes)

namespace Compact

mutual
/-- Each principal of an expression has its place as an index in the rule. -/
theorem index_lt_of_unsigned {identities : List Principal} :
    ∀ {e : Expr}, (e.rule identities).Unsigned →
      ∀ x ∈ e.principals, (UInt32.ofNat (identities.idxOf x)).toNat < signedSize
  | .principal y, h, x, hx => by
    obtain rfl := List.mem_singleton.1 hx
    exact h
  | .group _ _, h, x, hx => index_lt_of_allUnsigned h.2 x hx
theorem index_lt_of_allUnsigned {identities : List Principal} :
    ∀ {es : List Expr}, Rule.AllUnsigned (Expr.rules identities es) →
      ∀ x ∈ Expr.principalsOf es, (UInt32.ofNat (identities.idxOf x)).toNat < signedSize
  | [], _, _, hx => by cases hx
  | e :: es, h, x, hx => by
    rw [Expr.principalsOf, List.mem_append] at hx
    obtain hx | hx := hx
    · exact index_lt_of_unsigned h.1 x hx
    · exact index_lt_of_allUnsigned h.2 x hx
end

/-- The index of one principal more would be written with a sign. -/
theorem length_identities_of_unsigned {e : Expr} (h : e.policy.rule.Unsigned) :
    e.policy.identities.length ≤ signedSize := by
  by_contra hlong
  have hplace : signedSize < e.policy.identities.length := Nat.lt_of_not_le hlong
  -- the principals are listed once each, so the one in this place has it as its index
  have hindex : e.policy.identities.idxOf e.policy.identities[signedSize] = signedSize :=
    (nodup_eraseDups e.principals).idxOf_getElem signedSize hplace
  have hlt := index_lt_of_unsigned h _ (List.mem_eraseDups.1 (List.getElem_mem hplace))
  change (UInt32.ofNat (e.policy.identities.idxOf e.policy.identities[signedSize])).toNat < signedSize at hlt
  rw [hindex] at hlt
  exact absurd hlt (by decide)

/-- A policy that was read from a text is read again, as the same policy, from the text that it is printed as. -/
theorem parse_rendered {t text : String} {p : Policy} (ht : parse t = .ok p) (hunsigned : p.rule.Unsigned)
    (hquote : ∀ x ∈ p.identities, '\'' ∉ x.mspId.toList) (htext : render p = .ok text) : parse text = .ok p := by
  have hids := mspId_ne_empty_of_parse ht
  obtain ⟨hvalid, rfl⟩ := render_eq_ok_iff.1 htext
  obtain ⟨e, -, -, rfl, -⟩ := parse_eq_ok_iff.1 ht
  have hlong := length_identities_of_unsigned hunsigned
  have hlength : e.policy.identities.length ≤ UInt32.size :=
    Nat.le_trans hlong (by decide)
  have hprint : Printable e.policy := by
    intro x hx
    rw [referenced_policy hlength] at hx
    have hmem : x ∈ e.policy.identities := List.mem_eraseDups.2 hx
    exact ⟨hids x hmem, hquote x hmem⟩
  -- the text has the principals in the order of the policy, so that they get the same indices again
  rw [parse_printed_of_printable hvalid hprint, reindexed_policy hlength]

end Compact

structure PolicyInput.Textual (input : PolicyInput) : Prop where
  text : ∃ t, input = .compact t ∨ input = .json (.string t)
  unquoted : ∀ p, input.normalize = .ok p → ∀ x ∈ p.identities, '\'' ∉ x.mspId.toList

/-- A policy is given again: as it was, or as the text that is shown of it. -/
inductive PolicyInput.Retold (text : String) (input : PolicyInput) : PolicyInput → Prop
  | kept : Retold text input input
  | shown (h : input.Textual) : Retold text input (.compact text)

inductive ValidationParameter.Retold : PolicyView → ValidationParameter → ValidationParameter → Prop
  | kept {view : PolicyView} {v : ValidationParameter} : Retold view v v
  | signaturePolicy {text : String} {input input' : PolicyInput} (h : input.Retold text input') :
    Retold (.signaturePolicy text) (.signaturePolicy input) (.signaturePolicy input')

inductive CollectionEndorsement.Retold :
    PolicyView → Option CollectionEndorsement → Option CollectionEndorsement → Prop
  | kept {view : PolicyView} {e : Option CollectionEndorsement} : Retold view e e
  | signaturePolicy {text : String} {input input' : PolicyInput} (h : input.Retold text input') :
    Retold (.signaturePolicy text) (some ⟨some input, none⟩) (some ⟨some input', none⟩)

inductive CollectionDefinition.Retold (view : CollectionView) (c : CollectionDefinition) : CollectionDefinition → Prop
  | intro {members : PolicyInput} {endorsement : Option CollectionEndorsement}
    (hmembers : c.memberOrgsPolicy.Retold view.memberOrgsPolicy members)
    (hendorsement : CollectionEndorsement.Retold view.endorsementPolicy c.endorsementPolicy endorsement) :
    Retold view c { c with memberOrgsPolicy := members, endorsementPolicy := endorsement }

inductive CollectionDefinition.AllRetold :
    List CollectionView → List CollectionDefinition → List CollectionDefinition → Prop
  | nil : AllRetold [] [] []
  | cons {view : CollectionView} {views : List CollectionView} {c c' : CollectionDefinition}
    {cs cs' : List CollectionDefinition} (h : c.Retold view c') (rest : AllRetold views cs cs') :
    AllRetold (view :: views) (c :: cs) (c' :: cs')

inductive ChaincodeDefinition.Retold (view : DefinitionView) (d : ChaincodeDefinition) : ChaincodeDefinition → Prop
  | intro {validation : ValidationParameter} {collections : List CollectionDefinition}
    (hvalidation : ValidationParameter.Retold view.validationParameter d.validation validation)
    (hcollections : CollectionDefinition.AllRetold view.collections d.collections collections) :
    Retold view d { d with validation := validation, collections := collections }

section

variable {input input' : PolicyInput} {p : Policy} {text : String}

theorem PolicyInput.Textual.exists_parse (h : input.Textual) : ∃ t, input.normalize = Compact.parse t := by
  obtain ⟨t, rfl | rfl⟩ := h.text
  · exact ⟨t, rfl⟩
  · exact ⟨t, rfl⟩

theorem PolicyView.rendered_of_render (hpasses : Passes (Wire.encode p.toMessage))
    (h : render p.toMessage = .ok text) : p.rule.Unsigned ∧ Compact.render p = .ok text := by
  rw [render] at h
  cases hread : (Policy.ofMessage p.toMessage).bind Compact.render with
  | error e =>
    rw [hread] at h
    cases h
  | ok text' =>
    rw [hread] at h
    obtain rfl := Except.ok.inj h
    obtain ⟨q, hq, hrendered⟩ := bind_eq_ok_iff.1 hread
    obtain ⟨⟨-, hunsigned⟩, rfl⟩ := (Policy.ofMessage_eq_ok_iff_of_passes hpasses).1 hq
    exact ⟨hunsigned, hrendered⟩

/-- What is shown of a policy stands for it as the text did that it was given as. -/
theorem PolicyInput.Retold.normalize_eq (h : input.Retold text input') (hp : input.normalize = .ok p)
    (hpasses : Passes (Wire.encode p.toMessage)) (htext : PolicyView.render p.toMessage = .ok text) :
    input'.normalize = input.normalize := by
  cases h with
  | kept => rfl
  | shown htextual =>
    obtain ⟨hunsigned, hrendered⟩ := PolicyView.rendered_of_render hpasses htext
    obtain ⟨t, ht⟩ := htextual.exists_parse
    rw [hp]
    exact Compact.parse_rendered (ht.symm.trans hp) hunsigned (htextual.unquoted p hp) hrendered

end

theorem ValidationParameter.Retold.check_eq {s : Settings} {view : PolicyView} {v v' : ValidationParameter}
    {m : ApplicationPolicy} (h : Retold view v v') (hm : v.toMessage s = .ok m)
    (hview : PolicyView.ofMessage m = .ok view) (hpasses : Passes (Wire.encode m)) : v'.check s = v.check s := by
  cases h with
  | kept => rfl
  | signaturePolicy h =>
    obtain ⟨p, hp, hm⟩ := bind_eq_ok_iff.1 hm
    cases hm
    obtain ⟨_, hrender, heq⟩ := map_eq_ok_iff.1 hview
    obtain rfl := PolicyView.signaturePolicy.inj heq
    have hsame := h.normalize_eq hp (Message.ApplicationPolicy.passes_signature hpasses) hrender
    rw [check, check, toMessage, toMessage, hsame]

/-- The policy on changes to a collection turns into the same message when it is given as it is shown. -/
theorem CollectionEndorsement.Retold.checkOptional_eq {view : PolicyView} {e e' : Option CollectionEndorsement}
    {field : String} {m : StaticCollection} (h : Retold view e e')
    (hm : checkOptional field e = .accepted m.endorsementPolicy)
    (hview : CollectionView.endorsementOf m = .ok view) (hpasses : Passes (Wire.encode m)) (field' : String) :
    checkOptional field' e' = checkOptional field' e := by
  cases h with
  | kept => rfl
  | signaturePolicy h =>
    obtain ⟨policy, hpolicy, hsome⟩ := Checked.map_eq_accepted_iff.1 hm
    have hpolicyPasses : Passes (Wire.encode policy) := Message.StaticCollection.passes_endorsement hpasses hsome.symm
    obtain ⟨p, hp, rfl⟩ := PolicyInput.exists_normalize hpolicy
    rw [CollectionView.endorsementOf, ← hsome] at hview
    obtain ⟨_, hrender, heq⟩ := map_eq_ok_iff.1 hview
    obtain rfl := PolicyView.signaturePolicy.inj heq
    have hsame := h.normalize_eq hp (Message.ApplicationPolicy.passes_signature hpolicyPasses) hrender
    rw [checkOptional, checkOptional, check, check]
    dsimp only
    rw [hsame]

namespace CollectionDefinition

def CheckedAlike (c c' : CollectionDefinition) : Prop := c'.name = c.name ∧ ∀ path, c'.check path = c.check path

theorem checkFrom_congr {cs cs' : List CollectionDefinition} (h : List.Forall₂ CheckedAlike cs cs')
    (earlier : List String) (index : Nat) : checkFrom earlier index cs' = checkFrom earlier index cs := by
  induction h generalizing earlier index with
  | nil => rfl
  | cons h _ ih => rw [checkFrom, checkFrom, h.1, h.2, ih]

theorem checkPackage_congr {cs cs' : List CollectionDefinition} (h : List.Forall₂ CheckedAlike cs cs') :
    checkPackage cs' = checkPackage cs := by
  cases h with
  | nil => rfl
  | cons h rest =>
    have hsame := checkFrom_congr (.cons h rest) [] 0
    rw [checkPackage, checkPackage, hsame]
    rfl

/-- A collection that is given as it is shown passes its check like the one that was committed. -/
theorem Retold.checkedAlike {path : String} {view : CollectionView} {c c' : CollectionDefinition}
    {m : StaticCollection} (h : c.Retold view c') (hm : c.check path = .accepted m)
    (hview : CollectionView.ofMessage m = .ok view) (hpasses : Passes (Wire.encode m)) : CheckedAlike c c' := by
  obtain ⟨hmembers, hendorsement⟩ := h
  refine ⟨rfl, ?_⟩
  intro path'
  obtain ⟨members, endorsement, hcheckedMembers, hcheckedEndorsement, rfl⟩ := check_eq_accepted hm
  obtain ⟨p, hp, rfl⟩ := checkMembers_eq_accepted hcheckedMembers
  obtain ⟨membersView, hmembersView, hview⟩ := bind_eq_ok_iff.1 hview
  obtain ⟨endorsementView, hendorsementView, hview⟩ := bind_eq_ok_iff.1 hview
  obtain rfl := Except.ok.inj hview
  have hmembersPasses := Message.MembershipPolicy.passes_signature (Message.StaticCollection.passes_members hpasses rfl)
  have hsame := hmembers.normalize_eq hp hmembersPasses hmembersView
  rw [check, check, checkMembers, checkMembers]
  dsimp only
  rw [hsame, hendorsement.checkOptional_eq hcheckedEndorsement hendorsementView hpasses]

theorem AllRetold.checkedAlike {views : List CollectionView} {cs cs' : List CollectionDefinition}
    {ms : List Message.Collection} (h : AllRetold views cs cs')
    (hms : List.Forall₂ (fun c m => ∃ path static, c.check path = .accepted static ∧ m = ⟨some static⟩) cs ms)
    (hviews : (ms.filterMap (·.static)).mapM CollectionView.ofMessage = .ok views)
    (hpasses : ∀ m ∈ ms, Passes (Wire.encode m)) : List.Forall₂ CheckedAlike cs cs' := by
  rw [mapM_eq_ok_iff] at hviews
  induction h generalizing ms with
  | nil => exact .nil
  | cons h _ ih =>
    obtain ⟨_, rest, ⟨path, static, hstatic, rfl⟩, hrest, rfl⟩ := List.forall₂_cons_left_iff.1 hms
    rw [List.forall_mem_cons] at hpasses
    obtain ⟨hview, hviews⟩ := List.forall₂_cons.1 hviews
    exact .cons (h.checkedAlike hstatic hview (Message.Collection.passes_static hpasses.1)) (ih hrest hviews hpasses.2)

end CollectionDefinition

theorem DefinitionView.parts_of_decode {name : String} {r : Message.QueryDefinitionResult} {view : DefinitionView}
    (hr : Keyed.Ordered r.approvals) (hpasses : Passes (Wire.encode r)) (h : decode name (Wire.encode r) = .ok view) :
    PolicyView.decode r.validationParameter = .ok view.validationParameter ∧
      CollectionView.ofPackage r.collections = .ok view.collections := by
  obtain ⟨r', hread, h⟩ := bind_eq_ok_iff.1 h
  have hsame := (Message.QueryDefinitionResult.faithful hr).decode_of_passes hpasses
  obtain rfl := Except.ok.inj (hsame.symm.trans (decodeMessage_eq_ok_iff.1 hread))
  obtain ⟨validation, hvalidation, h⟩ := bind_eq_ok_iff.1 h
  obtain ⟨collections, hcollections, h⟩ := bind_eq_ok_iff.1 h
  obtain rfl := Except.ok.inj h
  exact ⟨hvalidation, hcollections⟩

/-- The definition with the texts that are shown comes to the same arguments. -/
theorem ChaincodeDefinition.Retold.check_eq {s : Settings} {d d' : ChaincodeDefinition} {args : CommonArgs}
    {name : String} {view : DefinitionView} {approvals : BoolMap} (h : d.Retold view d')
    (hargs : d.check s = .accepted args) (hordered : Keyed.Ordered approvals)
    (hpasses : Passes (Wire.encode (args.told approvals)))
    (hview : DefinitionView.decode name (Wire.encode (args.told approvals)) = .ok view) :
    d'.check s = d.check s := by
  obtain @⟨validation', collections', hvalidation, hcollections⟩ := h
  obtain ⟨validation, package, hparameter, hpackage, rfl⟩ := check_eq_accepted hargs
  obtain ⟨hparameterView, hpackageView⟩ := DefinitionView.parts_of_decode hordered hpasses hview
  have hparameterPasses := Message.QueryDefinitionResult.passes_validationParameter hordered hpasses
  have hsame : validation'.check s = d.validation.check s := by
    apply hvalidation.check_eq (Checked.ofExcept_eq_accepted_iff.1 hparameter) _ hparameterPasses
    rwa [← PolicyView.decode_encode hparameterPasses]
  have hsamePackage : CollectionDefinition.checkPackage collections' =
      CollectionDefinition.checkPackage d.collections := by
    apply CollectionDefinition.checkPackage_congr
    obtain ⟨hnone, rfl⟩ | ⟨ms, hms, rfl⟩ := CollectionDefinition.checkPackage_eq_accepted hpackage
    · -- whatever is shown, there is no collection to give again
      rw [hnone] at hcollections ⊢
      generalize view.collections = views at hcollections
      cases hcollections
      exact .nil
    · exact hcollections.checkedAlike (CollectionDefinition.checkFrom_eq_accepted hms) hpackageView fun m hm =>
        Message.CollectionPackage.passes_collection
          (Message.QueryDefinitionResult.passes_collections hordered hpasses rfl) hm
  rw [check, check]
  dsimp only
  rw [hsame, hsamePackage]

/-- What is shown of a committed definition can be approved and committed again: where policies were given as texts, the
texts that are shown in their place come to the same bytes. -/
theorem LifecycleCall.retold_commits {s : Settings} {d : ChaincodeDefinition} {c : LifecycleCall}
    (hc : commit s d = .ok c) :
    ∃ args, d.commonArgs s = .ok args ∧ c.args = Wire.encode args.commit ∧
      (Passes c.args → Wire.decode c.args = .ok args.commit) ∧
      ∀ (name : String) (approvals : BoolMap), Keyed.Ordered approvals → Passes (Wire.encode (args.told approvals)) →
        ∀ view, DefinitionView.decode name (Wire.encode (args.told approvals)) = .ok view →
          ∀ d', d.Retold view d' →
            commit s d' = .ok c ∧ ∀ source, approve s d' source = approve s d source := by
  obtain ⟨args, hcheck, rfl⟩ := commit_eq_ok_iff.1 hc
  have hargs : d.commonArgs s = .ok args := by
    rw [ChaincodeDefinition.commonArgs_eq, Checked.toExcept_eq_ok_iff, hcheck]
  refine ⟨args, hargs, rfl, (Message.CommitArgs.faithful _).decode_of_passes, ?_⟩
  intro name approvals hordered hpasses view hview d' hd'
  have hsame := hd'.check_eq hcheck hordered hpasses hview
  constructor
  · exact commit_eq_ok_iff.2 ⟨args, hsame.trans hcheck, rfl⟩
  · intro source
    rw [approve, approve, ChaincodeDefinition.approveArgs_eq, ChaincodeDefinition.approveArgs_eq,
      ChaincodeDefinition.checkApproval, ChaincodeDefinition.checkApproval, hsame]

/-- Letter case, spaces, quotes, the keyword of a group and repeated principals make no difference. -/
theorem LifecycleCall.retold_commits_respelled :
    let d : ChaincodeDefinition :=
      { name := "basic", version := "1.0", sequence := 1,
        validation := .signaturePolicy (.compact " or( \"Org1MSP.Member\" ) "),
        collections := [
          { name := "first", memberOrgsPolicy := .compact "OUTOF(1,b.peer,'a.Admin',b.PEER)",
            endorsementPolicy := some ⟨some (.json (.string "and(a.client,a.client)")), none⟩ }] }
    let d' : ChaincodeDefinition :=
      { name := "basic", version := "1.0", sequence := 1,
        validation := .signaturePolicy (.compact "AND('Org1MSP.MEMBER')"),
        collections := [
          { name := "first", memberOrgsPolicy := .compact "OR('b.PEER', 'a.ADMIN', 'b.PEER')",
            endorsementPolicy := some ⟨some (.compact "AND('a.CLIENT', 'a.CLIENT')"), none⟩ }] }
    ∃ c, commit {} d = .ok c ∧ commit {} d' = .ok c := by
  intro d d'
  have hshown : ((d.commonArgs {}).toOption.any fun args => decide (Passes (Wire.encode (args.told [])) ∧
      ((DefinitionView.decode "basic" (Wire.encode (args.told []))).toOption.any fun view => decide (
        view.validationParameter = .signaturePolicy "AND('Org1MSP.MEMBER')" ∧
        view.collections = [⟨"first", 0, 0, 0, false, false, "OR('b.PEER', 'a.ADMIN', 'b.PEER')",
          .signaturePolicy "AND('a.CLIENT', 'a.CLIENT')"⟩])) = true)) = true := by
    decide +kernel
  obtain ⟨args, hargs, hpasses, hshown⟩ := exists_ok_of_any hshown
  obtain ⟨view, hview, hvalidation, hcollections⟩ := exists_ok_of_any hshown
  obtain ⟨c, hc⟩ : ∃ c, commit {} d = .ok c := by
    rw [commit, ChaincodeDefinition.commitArgs, hargs]
    exact ⟨_, rfl⟩
  have htextual : ∀ (input : PolicyInput) (t : String), (input = .compact t ∨ input = .json (.string t)) →
      (input.normalize.toOption.all fun p => p.identities.all fun x => !x.mspId.toList.contains '\'') = true →
      input.Textual := by
    intro input t hinput hunquoted
    refine ⟨⟨t, hinput⟩, ?_⟩
    intro p hp x hx
    rw [hp] at hunquoted
    simpa using List.all_eq_true.1 hunquoted x hx
  obtain ⟨args', hargs', -, -, hretold⟩ := retold_commits hc
  obtain rfl := Except.ok.inj (hargs.symm.trans hargs')
  have hd' : d.Retold view d' := by
    apply @ChaincodeDefinition.Retold.intro view d d'.validation d'.collections
    · rw [hvalidation]
      exact .signaturePolicy (.shown (htextual _ _ (.inl rfl) (by decide +kernel)))
    · rw [hcollections]
      refine .cons ?_ .nil
      exact .intro (.shown (htextual _ _ (.inl rfl) (by decide +kernel)))
        (.signaturePolicy (.shown (htextual _ _ (.inr rfl) (by decide +kernel))))
  exact ⟨c, hc, (hretold "basic" [] List.Pairwise.nil hpasses view hview d' hd').1⟩

end Fabric

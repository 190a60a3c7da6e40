import Fabric.Message.Collection
import Fabric.Proofs.Wire.Faithful

namespace Fabric.Message

open Wire Wire.Fields

attribute [local simp] putInt32 putWord putText putBytes putBool int32 Fields.bool Value.ofInt32 Value.ofBool

theorem ConfigPolicy.faithful (p : ConfigPolicy) : Faithful p where
  admits := .cons (.plain (.int32 _)) (.last (.plain (.bytes _)))
  restored := by simp [Codec.toFields, Codec.ofFields]

theorem ImplicitMetaPolicy.faithful (p : ImplicitMetaPolicy) : Faithful p where
  admits := .cons (.plain (.text _)) (.last (.plain (.int32 _)))
  restored := by simp [Codec.toFields, Codec.ofFields]

theorem MspRole.faithful (r : MspRole) : Faithful r where
  admits := .cons (.plain (.text _)) (.last (.plain (.int32 _)))
  restored := by simp [Codec.toFields, Codec.ofFields]

theorem MspPrincipal.faithful (p : MspPrincipal) : Faithful p where
  admits := .cons (.plain (.int32 _)) (.last (.plain (.bytes _)))
  restored := by simp [Codec.toFields, Codec.ofFields]

namespace SignaturePolicy

/-- Proofs about the messages go by the rules of a group. -/
@[elab_as_elim]
theorem induction {motive : SignaturePolicy → Prop} (unset : motive .unset) (signedBy : ∀ i, motive (.signedBy i))
    (nOutOf : ∀ n rules, (∀ r ∈ rules, motive r) → motive (.nOutOf n rules)) : ∀ r, motive r
  | .unset => unset
  | .signedBy i => signedBy i
  | .nOutOf n rules => nOutOf n rules fun r _ => induction unset signedBy nOutOf r

theorem ruleFields_eq (rules : List SignaturePolicy) :
    ruleFields rules = putMessages 2 (rules.map Codec.toFields) := by
  induction rules with
  | nil => rfl
  | cons r rest ih => rw [ruleFields, ih]; rfl

theorem rulesOf_putInt32 (n : Int32) (fields : Fields) : rulesOf (putInt32 1 n ++ fields) = rulesOf fields := by
  rw [putInt32, put]
  split
  · rfl
  · rw [List.cons_append, List.nil_append, Value.ofInt32, rulesOf]
    simp

theorem rulesOf_ruleFields {rules : List SignaturePolicy} (h : ∀ r ∈ rules, ofFields (toFields r) = r) :
    rulesOf (ruleFields rules) = rules := by
  induction rules with
  | nil => simp [ruleFields, rulesOf]
  | cons r rest ih =>
    rw [List.forall_mem_cons] at h
    rw [ruleFields, rulesOf, h.1, ih h.2]

theorem faithful (r : SignaturePolicy) : Faithful r := by
  induction r using SignaturePolicy.induction with
  | unset =>
    exact ⟨.last (.unchosen _), by simp [Codec.toFields, Codec.ofFields, toFields, ofFields]⟩
  | signedBy i =>
    refine ⟨.last (.chosen (List.mem_cons_self ..) (.int32 i)), ?_⟩
    simp [Codec.toFields, Codec.ofFields, toFields, ofFields, Value.ofInt32]
  | nOutOf n rules ih =>
    have hgroup : MessageType.nOutOf.Admits (putInt32 1 n ++ ruleFields rules) := by
      rw [ruleFields_eq]
      exact .cons (.plain (.int32 n)) (.last (.messages ih 2))
    have hn : Fields.int32 (putInt32 1 n ++ ruleFields rules) 1 = n := by
      rw [ruleFields_eq]
      simp
    refine ⟨.last (.chosen (List.mem_cons_of_mem _ (List.mem_singleton_self _)) (.message hgroup)), ?_⟩
    show ofFields [(2, .message (putInt32 1 n ++ ruleFields rules))] = nOutOf n rules
    rw [ofFields, hn, rulesOf_putInt32, rulesOf_ruleFields fun r hr => (ih r hr).restored]

end SignaturePolicy

theorem PolicyEnvelope.faithful (e : PolicyEnvelope) : Faithful e := by
  have hrules : ∀ r ∈ e.rule, Faithful r := fun r _ => r.faithful
  have hidentities : ∀ i ∈ e.identities, Faithful i := fun i _ => i.faithful
  constructor <;> unfold instCodecPolicyEnvelope <;> dsimp only
  · rw [List.append_assoc]
    exact .cons (.plain (.int32 _)) (.cons (.message? hrules 2) (.last (.messages hidentities 3)))
  · simp [option_restored hrules, list_restored hidentities]

theorem ApplicationPolicy.faithful (p : ApplicationPolicy) : Faithful p := by
  cases p with
  | unset => exact ⟨.last (.unchosen _), rfl⟩
  | signature envelope =>
    have henvelope := envelope.faithful
    exact ⟨.last (.chosen (List.mem_cons_self ..) (.message henvelope.admits)),
      congrArg ApplicationPolicy.signature henvelope.restored⟩
  | reference name => exact ⟨.last (.chosen (List.mem_cons_of_mem _ (List.mem_singleton_self _)) (.text name)), rfl⟩

theorem MembershipPolicy.faithful (p : MembershipPolicy) : Faithful p := by
  have hsignature : ∀ e ∈ p.signature, Faithful e := fun e _ => e.faithful
  constructor <;> unfold instCodecMembershipPolicy <;> dsimp only
  · exact .last (.choice? (List.mem_singleton_self _) hsignature)
  · simp [option_restored hsignature]

theorem StaticCollection.faithful (c : StaticCollection) : Faithful c := by
  have hmembers : ∀ p ∈ c.memberOrgsPolicy, Faithful p := fun p _ => p.faithful
  have hendorsement : ∀ p ∈ c.endorsementPolicy, Faithful p := fun p _ => p.faithful
  constructor <;> unfold instCodecStaticCollection <;> dsimp only
  · simp only [List.append_assoc]
    exact .cons (.plain (.text _)) <| .cons (.message? hmembers 2) <| .cons (.plain (.int32 _)) <|
      .cons (.plain (.int32 _)) <| .cons (.plain (.uint64 _)) <| .cons (.plain (.bool _)) <|
      .cons (.plain (.bool _)) <| .last (.message? hendorsement 8)
  · simp [option_restored hmembers, option_restored hendorsement]

theorem Collection.faithful (c : Collection) : Faithful c := by
  have hstatic : ∀ s ∈ c.static, Faithful s := fun s _ => s.faithful
  constructor <;> unfold instCodecCollection <;> dsimp only
  · exact .last (.choice? (List.mem_singleton_self _) hstatic)
  · simp [option_restored hstatic]

theorem CollectionPackage.faithful (p : CollectionPackage) : Faithful p := by
  have hcollections : ∀ c ∈ p.collections, Faithful c := fun c _ => c.faithful
  constructor <;> unfold instCodecCollectionPackage <;> dsimp only
  · exact .last (.messages hcollections 1)
  · simp [list_restored hcollections]

end Fabric.Message

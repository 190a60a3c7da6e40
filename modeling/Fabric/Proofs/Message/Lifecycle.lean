import Fabric.Message.Lifecycle
import Fabric.Proofs.Message.Policy

namespace Fabric.Message

open Wire Wire.Fields

attribute [local simp] putInt64 putText putBytes putBool int64 Fields.bool Value.ofInt64 Value.ofBool

theorem InstallArgs.faithful (a : InstallArgs) : Faithful a where
  admits := .last (.plain (.bytes _))
  restored := by simp [Codec.toFields, Codec.ofFields]

theorem InstallResult.faithful (r : InstallResult) : Faithful r where
  admits := .cons (.plain (.text _)) (.last (.plain (.text _)))
  restored := by simp [Codec.toFields, Codec.ofFields]

theorem ReferencedChaincode.faithful (c : ReferencedChaincode) : Faithful c where
  admits := .cons (.plain (.text _)) (.last (.plain (.text _)))
  restored := by simp [Codec.toFields, Codec.ofFields]

theorem References.faithful (r : References) : Faithful r := by
  have hchaincodes : ∀ c ∈ r.chaincodes, Faithful c := fun c _ => c.faithful
  constructor <;> unfold instCodecReferences <;> dsimp only
  · exact .last (.messages hchaincodes 1)
  · simp [list_restored hchaincodes]

theorem InstalledChaincode.faithful {c : InstalledChaincode} (h : Keyed.Ordered c.references) : Faithful c := by
  have hvalue : ∀ e ∈ c.references, Codec.ofFields
      (((putText 1 e.1 ++ put 2 (.message (Codec.toFields e.2))).message? 2).getD []) = e.2 := by
    intro e _
    have hmessage : ((put 2 (.message (Codec.toFields e.2))).message? 2).getD [] = Codec.toFields e.2 := by
      cases Codec.toFields e.2 <;> simp [put, Value.isDefault, message?, get?]
    simp [hmessage, e.2.faithful.restored]
  have hreferences := entries_restored h (fun r => .message (Codec.toFields r))
    (fun fields => Codec.ofFields ((fields.message? 2).getD [])) hvalue 3
  constructor <;> unfold instCodecInstalledChaincode <;> dsimp only
  · rw [List.append_assoc]
    exact .cons (.plain (.text _)) <| .cons (.plain (.text _)) <|
      .last (.entries h (fun r => .message (Codec.toFields r)) (fun e _ => .message e.2.faithful.admits) 3)
  · simp [hreferences]

theorem InstalledChaincodes.faithful {r : InstalledChaincodes}
    (h : ∀ c ∈ r.chaincodes, Keyed.Ordered c.references) : Faithful r := by
  have hchaincodes : ∀ c ∈ r.chaincodes, Faithful c := fun c hc => InstalledChaincode.faithful (h c hc)
  constructor <;> unfold instCodecInstalledChaincodes <;> dsimp only
  · exact .last (.messages hchaincodes 1)
  · simp [list_restored hchaincodes]

theorem ChaincodeSource.faithful (s : ChaincodeSource) : Faithful s := by
  cases s with
  | unset => exact ⟨.last (.unchosen _), rfl⟩
  | unavailable => exact ⟨.last (.chosen (List.mem_cons_self ..) (.message .nil)), rfl⟩
  | localPackage packageId =>
    refine ⟨.last (.chosen (List.mem_cons_of_mem _ (List.mem_singleton_self _))
      (.message (.last (.plain (.text packageId))))), ?_⟩
    simp [Codec.toFields, Codec.ofFields, putMessage]

theorem CommitArgs.admits (a : CommitArgs) : SlotsAdmit definitionSlots (Codec.toFields a) := by
  have hcollections : ∀ p ∈ a.collections, Faithful p := fun p _ => p.faithful
  unfold instCodecCommitArgs
  dsimp only
  simp only [List.append_assoc]
  exact .cons (.plain (.int64 _)) <| .cons (.plain (.text _)) <| .cons (.plain (.text _)) <|
    .cons (.plain (.text _)) <| .cons (.plain (.text _)) <| .cons (.plain (.bytes _)) <|
    .cons (.message? hcollections 7) <| .last (.plain (.bool _))

theorem CommitArgs.faithful (a : CommitArgs) : Faithful a where
  admits := a.admits
  restored := by
    have hcollections : ∀ p ∈ a.collections, Faithful p := fun p _ => p.faithful
    unfold instCodecCommitArgs
    dsimp only
    simp [option_restored hcollections]

theorem ReadinessArgs.faithful (a : ReadinessArgs) : Faithful a where
  admits := CommitArgs.admits ⟨a.sequence, a.name, a.version, a.endorsementPlugin, a.validationPlugin,
    a.validationParameter, a.collections, a.initRequired⟩
  restored := by
    have hcollections : ∀ p ∈ a.collections, Faithful p := fun p _ => p.faithful
    unfold instCodecReadinessArgs
    dsimp only
    simp [option_restored hcollections]

/-- An approval has the fields of a commit, and the source of the package after them. -/
theorem ApproveArgs.faithful (a : ApproveArgs) : Faithful a := by
  have hcollections : ∀ p ∈ a.collections, Faithful p := fun p _ => p.faithful
  have hsource : ∀ s ∈ a.source, Faithful s := fun s _ => s.faithful
  constructor
  · exact .append (.last (.message? hsource 9)) (CommitArgs.admits ⟨a.sequence, a.name, a.version,
      a.endorsementPlugin, a.validationPlugin, a.validationParameter, a.collections, a.initRequired⟩)
  · unfold instCodecApproveArgs
    dsimp only
    simp [option_restored hcollections, option_restored hsource]

namespace BoolMap

section Apart

variable {fields more : Fields} {number : Nat}

@[simp] theorem ofFields_append_right (h : fields.get? number = none) :
    BoolMap.ofFields number (fields ++ more) = BoolMap.ofFields number more := by
  rw [BoolMap.ofFields, entries_append_right h, BoolMap.ofFields]

@[simp] theorem get?_toFields_of_ne {m : BoolMap} {number' : Nat} (h : number' ≠ number) :
    (m.toFields number').get? number = none :=
  get?_putEntries_of_ne h

end Apart

variable {m : BoolMap} (hm : Keyed.Ordered m)
include hm

theorem admits (number : Nat) : Slot.Admits (.keyed number .bool) (m.toFields number) :=
  .entries hm Value.ofBool (fun e _ => .bool e.2) number

theorem restored (number : Nat) : BoolMap.ofFields number (m.toFields number) = m :=
  entries_restored hm Value.ofBool (fun fields => fields.bool 2) (fun e _ => by simp) number

end BoolMap

theorem ReadinessResult.faithful {r : ReadinessResult} (h : Keyed.Ordered r.approvals) : Faithful r where
  admits := .last (BoolMap.admits h 1)
  restored := congrArg ReadinessResult.mk (BoolMap.restored h 1)

theorem QueryDefinitionResult.faithful {r : QueryDefinitionResult} (h : Keyed.Ordered r.approvals) :
    Faithful r := by
  have hcollections : ∀ p ∈ r.collections, Faithful p := fun p _ => p.faithful
  constructor <;> unfold instCodecQueryDefinitionResult <;> dsimp only
  · simp only [List.append_assoc]
    exact .cons (.plain (.int64 _)) <| .cons (.plain (.text _)) <| .cons (.plain (.text _)) <|
      .cons (.plain (.text _)) <| .cons (.plain (.bytes _)) <| .cons (.message? hcollections 6) <|
      .cons (.plain (.bool _)) <| .last (BoolMap.admits h 8)
  · simp [option_restored hcollections, BoolMap.restored h]

theorem QueryDefinitionArgs.faithful (a : QueryDefinitionArgs) : Faithful a where
  admits := .last (.plain (.text _))
  restored := by simp [Codec.toFields, Codec.ofFields]

theorem ListedDefinition.faithful (d : ListedDefinition) : Faithful d := by
  have hcollections : ∀ p ∈ d.collections, Faithful p := fun p _ => p.faithful
  constructor <;> unfold instCodecListedDefinition <;> dsimp only
  · simp only [List.append_assoc]
    exact .cons (.plain (.text _)) <| .cons (.plain (.int64 _)) <| .cons (.plain (.text _)) <|
      .cons (.plain (.text _)) <| .cons (.plain (.text _)) <| .cons (.plain (.bytes _)) <|
      .cons (.message? hcollections 7) <| .last (.plain (.bool _))
  · simp [option_restored hcollections]

theorem QueryDefinitionsResult.faithful (r : QueryDefinitionsResult) : Faithful r := by
  have hdefinitions : ∀ d ∈ r.definitions, Faithful d := fun d _ => d.faithful
  constructor <;> unfold instCodecQueryDefinitionsResult <;> dsimp only
  · exact .last (.messages hdefinitions 1)
  · simp [list_restored hdefinitions]

end Fabric.Message

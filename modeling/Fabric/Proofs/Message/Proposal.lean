import Fabric.Message.Transaction
import Fabric.Proofs.Message.Envelope

namespace Fabric.Message

open Wire Wire.Fields

attribute [local simp] putInt32 putText putBytes putBool int32 Fields.bool Value.ofInt32 Value.ofBool

theorem ChaincodeId.faithful (i : ChaincodeId) : Faithful i where
  admits := by
    simp only [Codec.toFields, List.append_assoc]
    exact .cons (.plain (.text _)) <| .cons (.plain (.text _)) <| .last (.plain (.text _))
  restored := by simp [Codec.toFields, Codec.ofFields]

namespace BytesMap

section Apart

variable {fields more : Fields} {number : Nat}

@[simp] theorem get?_toFields_of_ne {m : BytesMap} {number' : Nat} (h : number' ≠ number) :
    (m.toFields number').get? number = none :=
  get?_putEntries_of_ne h

@[simp] theorem ofFields_append_right (h : fields.get? number = none) :
    BytesMap.ofFields number (fields ++ more) = BytesMap.ofFields number more := by
  rw [BytesMap.ofFields, entries_append_right h, BytesMap.ofFields]

@[simp] theorem ofFields_append_left (h : more.get? number = none) :
    BytesMap.ofFields number (fields ++ more) = BytesMap.ofFields number fields := by
  rw [BytesMap.ofFields, entries_append_left h, BytesMap.ofFields]

end Apart

variable {m : BytesMap} (hm : Keyed.Ordered m)
include hm

theorem admits (number : Nat) : Slot.Admits (.keyed number .bytes) (m.toFields number) :=
  .entries hm Value.bytes (fun e _ => .bytes e.2) number

theorem restored (number : Nat) : BytesMap.ofFields number (m.toFields number) = m :=
  entries_restored hm Value.bytes (fun fields => fields.bytes 2) (fun e _ => by simp) number

end BytesMap

theorem ChaincodeInput.faithful {i : ChaincodeInput} (h : Keyed.Ordered i.decorations) : Faithful i := by
  constructor <;> unfold instCodecChaincodeInput <;> dsimp only
  · rw [List.append_assoc]
    exact .cons (.blobs i.args 1) <| .cons (BytesMap.admits h 2) <| .last (.plain (.bool _))
  · simp [BytesMap.restored h]

theorem ChaincodeSpec.faithful {s : ChaincodeSpec} (h : ∀ i ∈ s.input, Keyed.Ordered i.decorations) :
    Faithful s := by
  have hid : ∀ i ∈ s.chaincodeId, Faithful i := fun i _ => i.faithful
  have hinput : ∀ i ∈ s.input, Faithful i := fun i hi => ChaincodeInput.faithful (h i hi)
  constructor <;> unfold instCodecChaincodeSpec <;> dsimp only
  · simp only [List.append_assoc]
    exact .cons (.plain (.int32 _)) <| .cons (.message? hid 2) <| .cons (.message? hinput 3) <|
      .last (.plain (.int32 _))
  · simp [option_restored hid, option_restored hinput]

theorem ChaincodeInvocation.faithful {i : ChaincodeInvocation}
    (h : ∀ s ∈ i.spec, ∀ input ∈ s.input, Keyed.Ordered input.decorations) : Faithful i := by
  have hspec : ∀ s ∈ i.spec, Faithful s := fun s hs => ChaincodeSpec.faithful (h s hs)
  constructor <;> unfold instCodecChaincodeInvocation <;> dsimp only
  · exact .last (.message? hspec 1)
  · simp [option_restored hspec]

theorem SignedProposal.faithful (p : SignedProposal) : Faithful p where
  admits := .cons (.plain (.bytes _)) (.last (.plain (.bytes _)))
  restored := by simp [Codec.toFields, Codec.ofFields]

theorem Proposal.faithful (p : Proposal) : Faithful p where
  admits := by
    simp only [Codec.toFields, List.append_assoc]
    exact .cons (.plain (.bytes _)) <| .cons (.plain (.bytes _)) <| .last (.plain (.bytes _))
  restored := by simp [Codec.toFields, Codec.ofFields]

theorem ChaincodeExtension.faithful (e : ChaincodeExtension) : Faithful e := by
  have hid : ∀ i ∈ e.chaincodeId, Faithful i := fun i _ => i.faithful
  constructor <;> unfold instCodecChaincodeExtension <;> dsimp only
  · exact .last (.message? hid 2)
  · simp [option_restored hid]

theorem ProposalPayload.faithful {p : ProposalPayload} (h : Keyed.Ordered p.transientMap) : Faithful p := by
  constructor <;> unfold instCodecProposalPayload <;> dsimp only
  · exact .cons (.plain (.bytes _)) (.last (BytesMap.admits h 2))
  · simp [BytesMap.restored h]

theorem Response.faithful (r : Response) : Faithful r where
  admits := by
    simp only [Codec.toFields, List.append_assoc]
    exact .cons (.plain (.int32 _)) <| .cons (.plain (.text _)) <| .last (.plain (.bytes _))
  restored := by simp [Codec.toFields, Codec.ofFields]

theorem Endorsement.faithful (e : Endorsement) : Faithful e where
  admits := .cons (.plain (.bytes _)) (.last (.plain (.bytes _)))
  restored := by simp [Codec.toFields, Codec.ofFields]

theorem ProposalResponse.faithful (r : ProposalResponse) : Faithful r := by
  have htimestamp : ∀ t ∈ r.timestamp, Faithful t := fun t _ => t.faithful
  have hresponse : ∀ a ∈ r.response, Faithful a := fun a _ => a.faithful
  have hendorsement : ∀ e ∈ r.endorsement, Faithful e := fun e _ => e.faithful
  constructor <;> unfold instCodecProposalResponse <;> dsimp only
  · simp only [List.append_assoc]
    exact .cons (.plain (.int32 _)) <| .cons (.message? htimestamp 2) <| .cons (.message? hresponse 4) <|
      .cons (.plain (.bytes _)) <| .last (.message? hendorsement 6)
  · simp [option_restored htimestamp, option_restored hresponse, option_restored hendorsement]

theorem EndorsedAction.faithful (a : EndorsedAction) : Faithful a := by
  have hendorsements : ∀ e ∈ a.endorsements, Faithful e := fun e _ => e.faithful
  constructor <;> unfold instCodecEndorsedAction <;> dsimp only
  · exact .cons (.plain (.bytes _)) (.last (.messages hendorsements 2))
  · simp [list_restored hendorsements]

theorem ActionPayload.faithful (p : ActionPayload) : Faithful p := by
  have haction : ∀ a ∈ p.action, Faithful a := fun a _ => a.faithful
  constructor <;> unfold instCodecActionPayload <;> dsimp only
  · exact .cons (.plain (.bytes _)) (.last (.message? haction 2))
  · simp [option_restored haction]

theorem TransactionAction.faithful (a : TransactionAction) : Faithful a where
  admits := .cons (.plain (.bytes _)) (.last (.plain (.bytes _)))
  restored := by simp [Codec.toFields, Codec.ofFields]

theorem Transaction.faithful (t : Transaction) : Faithful t := by
  have hactions : ∀ a ∈ t.actions, Faithful a := fun a _ => a.faithful
  constructor <;> unfold instCodecTransaction <;> dsimp only
  · exact .last (.messages hactions 1)
  · simp [list_restored hactions]

end Fabric.Message

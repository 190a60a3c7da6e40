import Fabric.Message.Channel
import Fabric.Proofs.Wire.Faithful

namespace Fabric.Message

open Wire Wire.Fields

attribute [local simp] putInt32 putInt64 putWord putText putBytes int32 int64 Value.ofInt32 Value.ofInt64

theorem Timestamp.faithful (t : Timestamp) : Faithful t where
  admits := .cons (.plain (.int64 _)) (.last (.plain (.int32 _)))
  restored := by simp [Codec.toFields, Codec.ofFields]

theorem Header.faithful (h : Header) : Faithful h where
  admits := .cons (.plain (.bytes _)) (.last (.plain (.bytes _)))
  restored := by simp [Codec.toFields, Codec.ofFields]

theorem ChannelHeader.faithful (h : ChannelHeader) : Faithful h := by
  have htimestamp : ∀ t ∈ h.timestamp, Faithful t := fun t _ => t.faithful
  constructor <;> unfold instCodecChannelHeader <;> dsimp only
  · simp only [List.append_assoc]
    exact .cons (.plain (.int32 _)) <| .cons (.plain (.int32 _)) <| .cons (.message? htimestamp 3) <|
      .cons (.plain (.text _)) <| .cons (.plain (.text _)) <| .cons (.plain (.uint64 _)) <|
      .cons (.plain (.bytes _)) <| .last (.plain (.bytes _))
  · simp [option_restored htimestamp]

theorem SignatureHeader.faithful (h : SignatureHeader) : Faithful h where
  admits := .cons (.plain (.bytes _)) (.last (.plain (.bytes _)))
  restored := by simp [Codec.toFields, Codec.ofFields]

theorem Payload.faithful (p : Payload) : Faithful p := by
  have hheader : ∀ h ∈ p.header, Faithful h := fun h _ => h.faithful
  constructor <;> unfold instCodecPayload <;> dsimp only
  · exact .cons (.message? hheader 1) (.last (.plain (.bytes _)))
  · simp [option_restored hheader]

theorem Envelope.faithful (e : Envelope) : Faithful e where
  admits := .cons (.plain (.bytes _)) (.last (.plain (.bytes _)))
  restored := by simp [Codec.toFields, Codec.ofFields]

theorem SerializedIdentity.faithful (i : SerializedIdentity) : Faithful i where
  admits := .cons (.plain (.text _)) (.last (.plain (.bytes _)))
  restored := by simp [Codec.toFields, Codec.ofFields]

theorem SeekPosition.faithful (p : SeekPosition) : Faithful p := by
  cases p with
  | unset => exact ⟨.last (.unchosen _), rfl⟩
  | newest =>
    have hnewest : MessageType.seekNewest.Admits [] := .nil
    exact ⟨.last (.chosen (List.mem_cons_self ..) (.message hnewest)), rfl⟩
  | oldest =>
    have holdest : MessageType.seekOldest.Admits [] := .nil
    exact ⟨.last (.chosen (List.mem_cons_of_mem _ (List.mem_cons_self ..)) (.message holdest)), rfl⟩
  | block number =>
    have hblock : MessageType.seekSpecified.Admits (putWord 1 number) := .last (.plain (.uint64 number))
    refine ⟨.last (.chosen (by decide) (.message hblock)), ?_⟩
    simp [Codec.toFields, Codec.ofFields, putMessage]

theorem SeekInfo.faithful (s : SeekInfo) : Faithful s := by
  have hstart : ∀ p ∈ s.start, Faithful p := fun p _ => p.faithful
  have hstop : ∀ p ∈ s.stop, Faithful p := fun p _ => p.faithful
  constructor <;> unfold instCodecSeekInfo <;> dsimp only
  · simp only [List.append_assoc]
    exact .cons (.message? hstart 1) <| .cons (.message? hstop 2) <| .last (.plain (.int32 _))
  · simp [option_restored hstart, option_restored hstop]

theorem ConfigSignature.faithful (s : ConfigSignature) : Faithful s where
  admits := .cons (.plain (.bytes _)) (.last (.plain (.bytes _)))
  restored := by simp [Codec.toFields, Codec.ofFields]

theorem ConfigUpdateEnvelope.faithful (e : ConfigUpdateEnvelope) : Faithful e := by
  have hsignatures : ∀ s ∈ e.signatures, Faithful s := fun s _ => s.faithful
  constructor <;> unfold instCodecConfigUpdateEnvelope <;> dsimp only
  · exact .cons (.plain (.bytes _)) (.last (.messages hsignatures 2))
  · simp [list_restored hsignatures]

end Fabric.Message

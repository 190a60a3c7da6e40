import Fabric.Proofs.Message.Proposal
import Fabric.Proofs.Message.RoundTrip
import Fabric.Proofs.Wire.Apparent
import Fabric.Request.Invocation

namespace Fabric.Message

open Wire Wire.Fields Wire.Value

variable {n : Nat}

theorem SignedProposal.blockNesting_le_iff {p : SignedProposal} (h : (encode p).length < UInt64.size) :
    blockNesting (encode p) ≤ n + 1 ↔ blockNesting p.proposal ≤ n ∧ blockNesting p.signature ≤ n := by
  rw [p.faithful.blockNesting_encode h]
  simp only [Codec.toFields, apparentOfFields_append_le_iff, apparentOfFields_putBytes_le_iff]

theorem Proposal.blockNesting_le_iff {p : Proposal} (h : (encode p).length < UInt64.size) :
    blockNesting (encode p) ≤ n + 1 ↔
      blockNesting p.header ≤ n ∧ blockNesting p.payload ≤ n ∧ blockNesting p.extension ≤ n := by
  rw [p.faithful.blockNesting_encode h]
  simp only [Codec.toFields, apparentOfFields_append_le_iff, apparentOfFields_putBytes_le_iff, and_assoc]

theorem Header.blockNesting_le_iff {header : Header} (h : (encode header).length < UInt64.size) :
    blockNesting (encode header) ≤ n + 1 ↔
      blockNesting header.channelHeader ≤ n ∧ blockNesting header.signatureHeader ≤ n := by
  rw [header.faithful.blockNesting_encode h]
  simp only [Codec.toFields, apparentOfFields_append_le_iff, apparentOfFields_putBytes_le_iff]

theorem SignatureHeader.blockNesting_le_iff {header : SignatureHeader} (h : (encode header).length < UInt64.size) :
    blockNesting (encode header) ≤ n + 1 ↔ blockNesting header.creator ≤ n ∧ blockNesting header.nonce ≤ n := by
  rw [header.faithful.blockNesting_encode h]
  simp only [Codec.toFields, apparentOfFields_append_le_iff, apparentOfFields_putBytes_le_iff]

theorem SerializedIdentity.blockNesting_le_iff {i : SerializedIdentity} (h : (encode i).length < UInt64.size) :
    blockNesting (encode i) ≤ n + 1 ↔ blockNesting (Bytes.ofText i.mspId) ≤ n ∧ blockNesting i.certificate ≤ n := by
  rw [i.faithful.blockNesting_encode h]
  simp only [Codec.toFields, apparentOfFields_append_le_iff, apparentOfFields_putText_le_iff,
    apparentOfFields_putBytes_le_iff]

theorem Timestamp.apparent_le (t : Timestamp) : apparentOfFields (Codec.toFields t) ≤ n := by
  simp only [Codec.toFields, apparentOfFields_append_le_iff, apparentOfFields_putInt32, apparentOfFields_putInt64,
    and_true]

/-- A header seems nested one level more than the deepest of its texts and byte strings. -/
theorem ChannelHeader.blockNesting_le_iff {header : ChannelHeader} (h : (encode header).length < UInt64.size) :
    blockNesting (encode header) ≤ n + 1 ↔
      blockNesting (Bytes.ofText header.channelId) ≤ n ∧ blockNesting (Bytes.ofText header.txId) ≤ n ∧
        blockNesting header.extension ≤ n ∧ blockNesting header.tlsCertHash ≤ n := by
  have htime : apparentOfFields (putMessage? 3 (header.timestamp.map Codec.toFields)) ≤ n + 1 := by
    rw [apparentOfFields_putMessage?_le_iff]
    exact fun t _ => t.apparent_le
  have hfields : Codec.toFields header =
      putInt32 1 header.type ++ putInt32 2 header.version ++ putMessage? 3 (header.timestamp.map Codec.toFields) ++
        putText 4 header.channelId ++ putText 5 header.txId ++ putWord 6 header.epoch ++ putBytes 7 header.extension ++
        putBytes 8 header.tlsCertHash := rfl
  rw [header.faithful.blockNesting_encode h, hfields]
  simp only [apparentOfFields_append_le_iff, apparentOfFields_putInt32, apparentOfFields_putWord, htime,
    apparentOfFields_putText_le_iff, apparentOfFields_putBytes_le_iff, and_true, true_and, and_assoc]

theorem ChaincodeId.apparent_le_iff {i : ChaincodeId} :
    apparentOfFields (Codec.toFields i) ≤ n + 1 ↔ blockNesting (Bytes.ofText i.path) ≤ n ∧
      blockNesting (Bytes.ofText i.name) ≤ n ∧ blockNesting (Bytes.ofText i.version) ≤ n := by
  simp only [Codec.toFields, apparentOfFields_append_le_iff, apparentOfFields_putText_le_iff, and_assoc]

theorem ChaincodeExtension.blockNesting_le_iff {i : ChaincodeId}
    (h : (encode (⟨some i⟩ : ChaincodeExtension)).length < UInt64.size) :
    blockNesting (encode (⟨some i⟩ : ChaincodeExtension)) ≤ n + 2 ↔ blockNesting (Bytes.ofText i.path) ≤ n ∧
      blockNesting (Bytes.ofText i.name) ≤ n ∧ blockNesting (Bytes.ofText i.version) ≤ n := by
  have hfields : Codec.toFields (⟨some i⟩ : ChaincodeExtension) = putMessage? 2 ((some i).map Codec.toFields) := rfl
  rw [(ChaincodeExtension.faithful _).blockNesting_encode h, hfields, apparentOfFields_putMessage?_le_iff]
  simp only [Option.mem_some_iff, forall_eq', ChaincodeId.apparent_le_iff]

theorem ChaincodeInput.apparent_le_iff {args : List Bytes} {isInit : Bool} :
    apparentOfFields (Codec.toFields (⟨args, [], isInit⟩ : ChaincodeInput)) ≤ n + 1 ↔
      ∀ a ∈ args, blockNesting a ≤ n := by
  have hfields : Codec.toFields (⟨args, [], isInit⟩ : ChaincodeInput) = putBlobs 1 args ++ [] ++ putBool 3 isInit := rfl
  simp only [hfields, List.append_nil, apparentOfFields_append_le_iff, apparentOfFields_putBlobs_le_iff,
    apparentOfFields_putBool, and_true]

theorem ChaincodeSpec.apparent_le_iff {s : ChaincodeSpec} :
    apparentOfFields (Codec.toFields s) ≤ n + 1 ↔
      (∀ i ∈ s.chaincodeId, apparentOfFields (Codec.toFields i) ≤ n) ∧
        ∀ i ∈ s.input, apparentOfFields (Codec.toFields i) ≤ n := by
  have hfields : Codec.toFields s = putInt32 1 s.type ++ putMessage? 2 (s.chaincodeId.map Codec.toFields) ++
      putMessage? 3 (s.input.map Codec.toFields) ++ putInt32 4 s.timeout := rfl
  simp only [hfields, apparentOfFields_append_le_iff, apparentOfFields_putInt32, apparentOfFields_putMessage?_le_iff,
    true_and, and_true]

/-- An argument is three levels deeper than the call: it is in the input, which is in the specification. -/
theorem ChaincodeInvocation.blockNesting_le_iff {type timeout : Int32} {i : ChaincodeId} {args : List Bytes}
    {isInit : Bool}
    (h : (encode (⟨some ⟨type, some i, some ⟨args, [], isInit⟩, timeout⟩⟩ : ChaincodeInvocation)).length < UInt64.size) :
    blockNesting (encode (⟨some ⟨type, some i, some ⟨args, [], isInit⟩, timeout⟩⟩ : ChaincodeInvocation)) ≤ n + 3 ↔
      (blockNesting (Bytes.ofText i.path) ≤ n ∧ blockNesting (Bytes.ofText i.name) ≤ n ∧
        blockNesting (Bytes.ofText i.version) ≤ n) ∧ ∀ a ∈ args, blockNesting a ≤ n := by
  have hordered : ∀ s ∈ some (⟨type, some i, some ⟨args, [], isInit⟩, timeout⟩ : ChaincodeSpec),
      ∀ input ∈ s.input, Keyed.Ordered input.decorations := by
    simp only [Option.mem_some_iff, forall_eq']
    exact List.Pairwise.nil
  have hfields : Codec.toFields (⟨some ⟨type, some i, some ⟨args, [], isInit⟩, timeout⟩⟩ : ChaincodeInvocation) =
      putMessage? 1 ((some ⟨type, some i, some ⟨args, [], isInit⟩, timeout⟩ : Option ChaincodeSpec).map
        Codec.toFields) := rfl
  rw [(ChaincodeInvocation.faithful hordered).blockNesting_encode h, hfields, apparentOfFields_putMessage?_le_iff]
  simp only [Option.mem_some_iff, forall_eq', ChaincodeSpec.apparent_le_iff, ChaincodeId.apparent_le_iff,
    ChaincodeInput.apparent_le_iff]

theorem BytesMap.apparent_le_iff {m : BytesMap} (hm : Keyed.Ordered m) {number : Nat} :
    apparentOfFields (m.toFields number) ≤ n + 2 ↔
      ∀ e ∈ m, blockNesting (Bytes.ofText e.1) ≤ n ∧ blockNesting e.2 ≤ n := by
  rw [BytesMap.toFields, apparentOfFields_putEntries_le_iff ((Keyed.ordered_map _).2 hm), List.forall_mem_map]
  simp only [apparentOfFields_putBytes_le_iff]

/-- A value of transient data is two levels deeper than the payload, as it is in a message with its key. -/
theorem ProposalPayload.blockNesting_le_iff {p : ProposalPayload} (hmap : Keyed.Ordered p.transientMap)
    (h : (encode p).length < UInt64.size) :
    blockNesting (encode p) ≤ n + 2 ↔ blockNesting p.input ≤ n + 1 ∧
      ∀ e ∈ p.transientMap, blockNesting (Bytes.ofText e.1) ≤ n ∧ blockNesting e.2 ≤ n := by
  have hfields : Codec.toFields p = putBytes 1 p.input ++ p.transientMap.toFields 2 := rfl
  rw [(ProposalPayload.faithful hmap).blockNesting_encode h, hfields, apparentOfFields_append_le_iff,
    apparentOfFields_putBytes_le_iff, BytesMap.apparent_le_iff hmap]

/-- A policy in an argument is as deep as its groups are, at two levels each. -/
theorem SignaturePolicy.blockNesting_encode_nested (n : Nat) (hn : 22 * n < UInt64.size) :
    blockNesting (encode (nested n)) = 2 * n := by
  have happarent : ∀ k, apparentOfFields (toFields (nested k)) = 2 * k := by
    intro k
    induction k with
    | zero => rfl
    | succ k ih =>
      have hfields : toFields (nested (k + 1)) = [(2, .message [(2, .message (toFields (nested k)))])] := rfl
      simp only [hfields, apparentOfFields, apparent, ih]
      omega
  have hlen := Nat.lt_of_le_of_lt (length_encode_nested n hn) hn
  rw [(faithful _).blockNesting_encode hlen]
  exact happarent n

section Length

theorem SignedProposal.length_proposal_le (p : SignedProposal) : p.proposal.length ≤ (encode p).length :=
  length_le_of_putBytes (List.subset_append_left _ _)

theorem Proposal.length_header_le (p : Proposal) : p.header.length ≤ (encode p).length :=
  length_le_of_putBytes (List.subset_append_of_subset_left _ (List.subset_append_left _ _))

theorem Proposal.length_payload_le (p : Proposal) : p.payload.length ≤ (encode p).length :=
  length_le_of_putBytes (List.subset_append_of_subset_left _ (List.subset_append_right _ _))

theorem Header.length_channelHeader_le (header : Header) : header.channelHeader.length ≤ (encode header).length :=
  length_le_of_putBytes (List.subset_append_left _ _)

theorem Header.length_signatureHeader_le (header : Header) :
    header.signatureHeader.length ≤ (encode header).length :=
  length_le_of_putBytes (List.subset_append_right _ _)

theorem SignatureHeader.length_creator_le (header : SignatureHeader) :
    header.creator.length ≤ (encode header).length :=
  length_le_of_putBytes (List.subset_append_left _ _)

theorem ChannelHeader.length_extension_le (header : ChannelHeader) :
    header.extension.length ≤ (encode header).length :=
  length_le_of_putBytes (List.subset_append_of_subset_left _ (List.subset_append_right _ _))

theorem ProposalPayload.length_input_le (p : ProposalPayload) : p.input.length ≤ (encode p).length :=
  length_le_of_putBytes (List.subset_append_left _ _)

theorem SignedProposal.length_encode_le {p : SignedProposal} (hproposal : p.proposal.length < UInt64.size)
    (hsignature : p.signature.length < UInt64.size) :
    (encode p).length ≤ p.proposal.length + p.signature.length + 22 := by
  have hproposalSize : (encodeFields (putBytes 1 p.proposal)).length ≤ _ :=
    length_encodeFields_putBytes_le (by decide) hproposal
  have hsignatureSize : (encodeFields (putBytes 2 p.signature)).length ≤ _ :=
    length_encodeFields_putBytes_le (by decide) hsignature
  simp only [Wire.encode, Fields.encode, Codec.toFields, encodeFields_append, List.length_append]
  omega

theorem Proposal.length_encode_le {p : Proposal} (hheader : p.header.length < UInt64.size)
    (hpayload : p.payload.length < UInt64.size) (hextension : p.extension.length < UInt64.size) :
    (encode p).length ≤ p.header.length + p.payload.length + p.extension.length + 33 := by
  have hheaderSize : (encodeFields (putBytes 1 p.header)).length ≤ _ :=
    length_encodeFields_putBytes_le (by decide) hheader
  have hpayloadSize : (encodeFields (putBytes 2 p.payload)).length ≤ _ :=
    length_encodeFields_putBytes_le (by decide) hpayload
  have hextensionSize : (encodeFields (putBytes 3 p.extension)).length ≤ _ :=
    length_encodeFields_putBytes_le (by decide) hextension
  simp only [Wire.encode, Fields.encode, Codec.toFields, encodeFields_append, List.length_append]
  omega

theorem ProposalPayload.length_encode_le {input : Bytes} (hinput : input.length < UInt64.size) :
    (encode (⟨input, []⟩ : ProposalPayload)).length ≤ input.length + 11 := by
  have hfields : Codec.toFields (⟨input, []⟩ : ProposalPayload) = putBytes 1 input ++ [] := rfl
  rw [Wire.encode, Fields.encode, hfields, List.append_nil]
  exact length_encodeFields_putBytes_le (by decide) hinput

end Length

end Fabric.Message

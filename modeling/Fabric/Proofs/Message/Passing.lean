import Fabric.Proofs.Message.Lifecycle
import Fabric.Proofs.Message.Proposal
import Fabric.Proofs.Wire.Passing

namespace Fabric.Message

open Wire Wire.Fields

theorem Envelope.passes_payload {e : Envelope} (h : Passes (encode e)) : Passes e.payload :=
  e.faithful.passes_bytes h (List.subset_append_left _ _)

theorem Payload.passes_data {p : Payload} (h : Passes (encode p)) : Passes p.data :=
  p.faithful.passes_bytes h (List.subset_append_right _ _)

theorem Payload.passes_header {header : Header} {data : Bytes} (h : Passes (encode (⟨some header, data⟩ : Payload))) :
    Passes (encode header) :=
  (Payload.faithful _).passes_message h (List.mem_cons_self ..)

theorem Header.passes_channelHeader {header : Header} (h : Passes (encode header)) : Passes header.channelHeader :=
  header.faithful.passes_bytes h (List.subset_append_left _ _)

theorem Header.passes_signatureHeader {header : Header} (h : Passes (encode header)) :
    Passes header.signatureHeader :=
  header.faithful.passes_bytes h (List.subset_append_right _ _)

theorem SignatureHeader.passes_creator {header : SignatureHeader} (h : Passes (encode header)) :
    Passes header.creator :=
  header.faithful.passes_bytes h (List.subset_append_left _ _)

theorem SignedProposal.passes_proposal {p : SignedProposal} (h : Passes (encode p)) : Passes p.proposal :=
  p.faithful.passes_bytes h (List.subset_append_left _ _)

theorem Proposal.passes_header {p : Proposal} (h : Passes (encode p)) : Passes p.header :=
  p.faithful.passes_bytes h <|
    List.subset_append_of_subset_left _ (List.subset_append_left _ _)

theorem Proposal.passes_payload {p : Proposal} (h : Passes (encode p)) : Passes p.payload :=
  p.faithful.passes_bytes h <|
    List.subset_append_of_subset_left _ (List.subset_append_right _ _)

theorem ProposalPayload.passes_input {p : ProposalPayload} (hmap : Keyed.Ordered p.transientMap)
    (h : Passes (encode p)) : Passes p.input :=
  (ProposalPayload.faithful hmap).passes_bytes h (List.subset_append_left _ _)

theorem Transaction.passes_action {action : TransactionAction} {more : List TransactionAction}
    (h : Passes (encode (⟨action :: more⟩ : Transaction))) : Passes (encode action) :=
  (Transaction.faithful _).passes_message h (List.mem_cons_self ..)

theorem TransactionAction.passes_payload {a : TransactionAction} (h : Passes (encode a)) : Passes a.payload :=
  a.faithful.passes_bytes h (List.subset_append_right _ _)

theorem ActionPayload.passes_proposalPayload {p : ActionPayload} (h : Passes (encode p)) :
    Passes p.proposalPayload :=
  p.faithful.passes_bytes h (List.subset_append_left _ _)

section

variable {r : QueryDefinitionResult} (hr : Keyed.Ordered r.approvals) (h : Passes (encode r))
include hr h

theorem QueryDefinitionResult.passes_validationParameter : Passes r.validationParameter := by
  have hfield : putBytes 5 r.validationParameter ⊆ Codec.toFields r := by
    intro f hf
    simp only [Codec.toFields, List.mem_append]
    exact .inl (.inl (.inl (.inr hf)))
  exact (QueryDefinitionResult.faithful hr).passes_bytes h hfield

theorem QueryDefinitionResult.passes_collections {package : CollectionPackage} (hp : r.collections = some package) :
    Passes (encode package) := by
  have hfield : (6, .message (Codec.toFields package)) ∈ Codec.toFields r := by
    simp only [Codec.toFields, List.mem_append, hp]
    exact .inl (.inl (.inr (List.mem_singleton_self _)))
  exact (QueryDefinitionResult.faithful hr).passes_message h hfield

end

theorem CollectionPackage.passes_collection {p : CollectionPackage} (h : Passes (encode p)) {c : Collection}
    (hc : c ∈ p.collections) : Passes (encode c) :=
  p.faithful.passes_message h (List.mem_map_of_mem (List.mem_map_of_mem hc))

theorem Collection.passes_static {c : StaticCollection} (h : Passes (encode (⟨some c⟩ : Collection))) :
    Passes (encode c) :=
  (Collection.faithful _).passes_message h (List.mem_singleton_self _)

theorem StaticCollection.passes_members {c : StaticCollection} (h : Passes (encode c)) {m : MembershipPolicy}
    (hm : c.memberOrgsPolicy = some m) : Passes (encode m) := by
  have hfield : (2, .message (Codec.toFields m)) ∈ Codec.toFields c := by
    simp only [Codec.toFields, List.append_assoc, List.mem_append, hm]
    exact .inr (.inl (List.mem_singleton_self _))
  exact c.faithful.passes_message h hfield

theorem StaticCollection.passes_endorsement {c : StaticCollection} (h : Passes (encode c)) {p : ApplicationPolicy}
    (hp : c.endorsementPolicy = some p) : Passes (encode p) := by
  have hfield : (8, .message (Codec.toFields p)) ∈ Codec.toFields c := by
    simp only [Codec.toFields, List.mem_append, hp]
    exact .inr (List.mem_singleton_self _)
  exact c.faithful.passes_message h hfield

theorem MembershipPolicy.passes_signature {e : PolicyEnvelope}
    (h : Passes (encode (⟨some e⟩ : MembershipPolicy))) : Passes (encode e) :=
  (MembershipPolicy.faithful _).passes_message h (List.mem_singleton_self _)

theorem ApplicationPolicy.passes_signature {e : PolicyEnvelope} (h : Passes (encode (ApplicationPolicy.signature e))) :
    Passes (encode e) :=
  (ApplicationPolicy.faithful _).passes_message h (List.mem_singleton_self _)

theorem PolicyEnvelope.passes_identity {e : PolicyEnvelope} (h : Passes (encode e)) {x : MspPrincipal}
    (hx : x ∈ e.identities) : Passes (encode x) := by
  have hfield : (3, .message (Codec.toFields x)) ∈ Codec.toFields e := by
    simp only [Codec.toFields, List.mem_append]
    exact .inr (List.mem_map_of_mem (List.mem_map_of_mem hx))
  exact e.faithful.passes_message h hfield

theorem MspPrincipal.passes_principal {x : MspPrincipal} (h : Passes (encode x)) : Passes x.principal :=
  x.faithful.passes_bytes h (List.subset_append_right _ _)

end Fabric.Message

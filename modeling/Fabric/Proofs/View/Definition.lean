import Fabric.Proofs.Definition.Acceptance
import Fabric.Proofs.Message.Passing
import Fabric.Proofs.Policy.Envelope
import Fabric.Proofs.Policy.OwnApproval
import Fabric.Proofs.Policy.RoundTrip
import Fabric.Proofs.Request.Traced
import Fabric.View.Lifecycle

namespace Fabric

open Message (ApplicationPolicy ApproveArgs BoolMap CollectionPackage MembershipPolicy MspRole PolicyEnvelope
  QueryDefinitionResult StaticCollection)
open Wire (Passes)

def PolicyInput.rendered (input : PolicyInput) : Except PolicyError String := input.normalize.bind Compact.render

def PolicyInput.Unsigned (input : PolicyInput) : Prop := ∀ p, input.normalize = .ok p → p.rule.Unsigned

section

variable {p : Policy} (hp : p.validate = .ok ())
include hp

end

inductive ValidationParameter.ShownAs (s : Settings) : ValidationParameter → PolicyView → Prop
  | channelDefault : ShownAs s .channelDefault (.policyReference s.defaultPolicyReference)
  | policyReference {name : String} : ShownAs s (.policyReference name) (.policyReference name)
  | signaturePolicy {input : PolicyInput} {text : String} (h : input.rendered = .ok text) :
    ShownAs s (.signaturePolicy input) (.signaturePolicy text)

inductive CollectionEndorsement.ShownAs : Option CollectionEndorsement → PolicyView → Prop
  | unset : ShownAs none .unset
  | policyReference {name : String} : ShownAs (some ⟨none, some name⟩) (.policyReference name)
  | signaturePolicy {input : PolicyInput} {text : String} (h : input.rendered = .ok text) :
    ShownAs (some ⟨some input, none⟩) (.signaturePolicy text)

structure CollectionDefinition.ShownAs (c : CollectionDefinition) (v : CollectionView) : Prop where
  name : v.name = c.name
  requiredPeerCount : v.requiredPeerCount = c.requiredPeerCount
  maximumPeerCount : v.maximumPeerCount = c.maximumPeerCount
  blockToLive : v.blockToLive = c.blockToLive
  memberOnlyRead : v.memberOnlyRead = c.memberOnlyRead
  memberOnlyWrite : v.memberOnlyWrite = c.memberOnlyWrite
  members : c.memberOrgsPolicy.rendered = .ok v.memberOrgsPolicy
  endorsement : CollectionEndorsement.ShownAs c.endorsementPolicy v.endorsementPolicy

/-- A message that can be read holds the policy that it was made of, if that is valid and nothing in it turns
negative. -/
theorem Policy.ofMessage_eq_ok_iff_of_passes {p q : Policy} (h : Passes (Wire.encode p.toMessage)) :
    ofMessage p.toMessage = .ok q ↔ (p.validate = .ok () ∧ p.rule.Unsigned) ∧ q = p := by
  apply ofMessage_eq_ok_iff_of_principals
  intro x hx
  have hmem : principalToMessage x ∈ p.toMessage.identities := List.mem_map_of_mem hx
  have hpasses := Message.MspPrincipal.passes_principal (Message.PolicyEnvelope.passes_identity h hmem)
  exact principalOfMessage_of_decode ((MspRole.faithful _).decode_of_passes hpasses)

section

variable {input : PolicyInput} {p : Policy} (hp : input.normalize = .ok p) (hunsigned : input.Unsigned)
  (h : Passes (Wire.encode p.toMessage))
include hp hunsigned h

end

/-- A policy that is written is shown as what it is read as; no bytes at all are the policy that is not set. -/
theorem PolicyView.decode_encode {m : ApplicationPolicy} (h : Passes (Wire.encode m)) :
    decode (Wire.encode m) = ofMessage m := by
  have hread : Wire.decode (Wire.encode m) = .ok m := m.faithful.decode_of_passes h
  cases hbytes : Wire.encode m with
  | nil =>
    have hunset : Wire.decode (Wire.encode ApplicationPolicy.unset) = .ok ApplicationPolicy.unset :=
      (ApplicationPolicy.faithful .unset).decode_of_passes Passes.nil
    rw [hbytes] at hread
    obtain rfl := Except.ok.inj (hunset.symm.trans hread)
    rfl
  | cons x rest =>
    rw [hbytes] at hread
    simp only [decode, List.isEmpty_cons, decodeMessage_eq_ok_iff.2 hread, bind, Except.bind]
    rfl

def CommonArgs.told (a : CommonArgs) (approvals : BoolMap) : QueryDefinitionResult :=
  ⟨a.sequence, a.version, a.endorsementPlugin, a.validationPlugin, a.validationParameter, a.collections,
    a.initRequired, approvals⟩

/-- A committed definition can be shown if its validation and its collections can. -/
theorem DefinitionView.decode_eq {name : String} {b : Bytes} {r : QueryDefinitionResult}
    {validationParameter : PolicyView} {collections : List CollectionView} (hread : Wire.decode b = .ok r)
    (hvalidation : PolicyView.decode r.validationParameter = .ok validationParameter)
    (hcollections : CollectionView.ofPackage r.collections = .ok collections) :
    decode name b = .ok ⟨name, r.sequence, r.version, r.endorsementPlugin, r.validationPlugin, validationParameter,
      collections, r.initRequired, r.approvals⟩ := by
  simp only [decode, decodeMessage_eq_ok_iff.2 hread, hvalidation, hcollections, bind, Except.bind]
  rfl

end Fabric

import Fabric.Proofs.Request.Acceptance
import Fabric.Proofs.Request.Transaction

namespace Fabric

open Message (Header ProposalPayload SignatureHeader)
open Wire (Passes)

structure TransactionContext.DerivedFrom (context : TransactionContext) (p : Provider) (identity : SigningIdentity)
    (nonce : Bytes) : Prop where
  used : context.nonce = nonce
  creator : context.creator = identity.serialize
  digest : p.digest .sha256 (nonce ++ identity.serialize) = .ok context.txId

theorem TransactionContext.derivedFrom {p : Provider} {identity : SigningIdentity} {nonce : Bytes}
    {context : TransactionContext} (h : (derive p identity nonce).outcome = .ok context) :
    context.DerivedFrom p identity nonce := by
  obtain ⟨txId, htxId, h⟩ := Traced.outcome_bind_eq_ok_iff.1 h
  obtain rfl := Except.ok.inj h
  exact ⟨rfl, rfl, Traced.outcome_digest_eq_ok_iff.1 htxId⟩

/-- There is only one context of a nonce. -/
theorem TransactionContext.DerivedFrom.eq {p : Provider} {identity : SigningIdentity} {nonce : Bytes}
    {context : TransactionContext} (h : context.DerivedFrom p identity nonce) {txId : String}
    (htxId : p.digest .sha256 (nonce ++ identity.serialize) = .ok txId) :
    context = ⟨nonce, identity.serialize, txId⟩ := by
  obtain ⟨used, creator, derived⟩ := context
  obtain ⟨rfl, rfl, hderived⟩ := h
  rw [htxId] at hderived
  rw [Except.ok.inj hderived]

section

variable {context : TransactionContext} {channelHeader : Message.ChannelHeader}

theorem TransactionContext.header_channelHeader :
    (context.header channelHeader).channelHeader = Wire.encode channelHeader := by
  rw [header]

theorem TransactionContext.header_signatureHeader :
    (context.header channelHeader).signatureHeader = Wire.encode context.signatureHeader := by
  rw [header]

variable (h : Passes (Wire.encode (context.header channelHeader)))
include h

theorem TransactionContext.decode_channelHeader :
    Wire.decode (context.header channelHeader).channelHeader = .ok channelHeader := by
  have hpasses := Header.passes_channelHeader h
  rw [header_channelHeader] at hpasses ⊢
  exact channelHeader.faithful.decode_of_passes hpasses

theorem TransactionContext.decode_signatureHeader :
    Wire.decode (context.header channelHeader).signatureHeader = .ok context.signatureHeader := by
  have hpasses := Header.passes_signatureHeader h
  rw [header_signatureHeader] at hpasses ⊢
  exact context.signatureHeader.faithful.decode_of_passes hpasses

end

namespace ProposalContent

def header (c : ProposalContent) (context : TransactionContext) (now : Message.Timestamp) (tlsCertHash : Bytes) :
    Header :=
  context.header (context.channelHeader .endorserTransaction now c.channelId c.extension tlsCertHash)

variable {c : ProposalContent} {context : TransactionContext} {now : Message.Timestamp} {tlsCertHash : Bytes}

theorem proposal_header :
    (c.proposal context now tlsCertHash).header = Wire.encode (c.header context now tlsCertHash) := by
  rw [proposal, header]

theorem proposal_payload : (c.proposal context now tlsCertHash).payload = Wire.encode c.payload := by
  rw [proposal]

section

variable (h : Passes (Wire.encode (c.proposal context now tlsCertHash)))
include h

theorem passes_header : Passes (Wire.encode (c.header context now tlsCertHash)) := by
  rw [← proposal_header]
  exact Message.Proposal.passes_header h

theorem passes_payload : Passes (Wire.encode c.payload) := by
  rw [← proposal_payload]
  exact Message.Proposal.passes_payload h

theorem passes_signatureHeader : Passes (Wire.encode context.signatureHeader) := by
  rw [← TransactionContext.header_signatureHeader]
  exact Header.passes_signatureHeader (passes_header h)

theorem decode_signatureHeader :
    Wire.decode (c.header context now tlsCertHash).signatureHeader = .ok context.signatureHeader :=
  TransactionContext.decode_signatureHeader (passes_header h)

/-- Whoever makes a proposal may send it for ordering. -/
theorem committable {identity : SigningIdentity} (hcreator : context.creator = identity.serialize)
    (hmap : Keyed.Ordered c.transientMap) :
    Committable identity (c.proposal context now tlsCertHash) (c.header context now tlsCertHash)
      (context.channelHeader .endorserTransaction now c.channelId c.extension tlsCertHash) c.payload where
  headerRead := by
    rw [proposal_header]
    exact (Message.Header.faithful _).decode_of_passes (passes_header h)
  creatorRead := by
    refine ⟨context.nonce, ?_⟩
    rw [← hcreator]
    exact decode_signatureHeader h
  channelHeaderRead := TransactionContext.decode_channelHeader (passes_header h)
  payloadRead := by
    rw [proposal_payload]
    exact (Message.ProposalPayload.faithful hmap).decode_of_passes (passes_payload h)

end

section

variable {p : Provider} {w : Surroundings} {s : Settings} {identity : SigningIdentity} {nonce : Option Bytes}

/-- There is a proposal if the provider answers. -/
theorem exists_signed (hdigest : ∀ m, ∃ text, p.digest .sha256 m = .ok text)
    (hsign : ∀ m, ∃ signature, p.sign identity.key m = .ok signature) (htls : c.tlsCertificate = none) :
    ∃ e, (c.sign p w s identity nonce).outcome = .ok e := by
  rw [sign, htls]
  refine Traced.exists_outcome_bind ⟨[], rfl⟩ fun certHash => ?_
  refine Traced.exists_outcome_bind ?derived fun context => ?_
  case derived => exact Traced.exists_outcome_bind (Traced.exists_outcome_digest (hdigest _)) fun text => ⟨_, rfl⟩
  exact Traced.exists_outcome_bind (Traced.exists_outcome_sign (hsign _)) fun signature => ⟨_, rfl⟩

/-- The proposal that comes out is the content's, in the context of the nonce, and its bytes come with it. -/
theorem signed_of_outcome {e : EndorsementProposal} (h : (c.sign p w s identity nonce).outcome = .ok e) :
    ∃ context certHash, context.DerivedFrom p identity (nonce.getD (w.nonce s)) ∧
      (Fabric.tlsCertHash p c.tlsCertificate).outcome = .ok certHash ∧ e.txId = context.txId ∧
      e.proposal = c.proposal context w.now certHash ∧ e.signed.proposal = Wire.encode e.proposal := by
  rw [sign] at h
  obtain ⟨certHash, hcertHash, h⟩ := Traced.outcome_bind_eq_ok_iff.1 h
  obtain ⟨context, hcontext, h⟩ := Traced.outcome_bind_eq_ok_iff.1 h
  dsimp only at h
  generalize hproposal : c.proposal context w.now certHash = proposal at h
  generalize hbytes : Wire.encode proposal = bytes at h
  obtain ⟨signature, -, h⟩ := Traced.outcome_bind_eq_ok_iff.1 h
  obtain rfl := Except.ok.inj h
  exact ⟨context, certHash, TransactionContext.derivedFrom hcontext, hcertHash, rfl, hproposal.symm, hbytes.symm⟩

/-- The proposal is by the identity and has the id that is returned with it. -/
theorem sign_of_outcome {e : EndorsementProposal} (h : (c.sign p w s identity nonce).outcome = .ok e) :
    ∃ context certHash, context.creator = identity.serialize ∧ e.txId = context.txId ∧
      e.proposal = c.proposal context w.now certHash ∧ e.signed.proposal = Wire.encode e.proposal := by
  obtain ⟨context, certHash, hcontext, -, htxId, hproposal, hbytes⟩ := signed_of_outcome h
  exact ⟨context, certHash, hcontext.creator, htxId, hproposal, hbytes⟩

end

end ProposalContent

/-- What is asked for is accepted before anything is signed. -/
theorem EndorsementRequest.sign_of_outcome {r : EndorsementRequest} {p : Provider} {w : Surroundings} {s : Settings}
    {nonce : Option Bytes} {e : EndorsementProposal} (h : (r.sign p w s nonce).outcome = .ok e) :
    ∃ identity tls, r.validate = .ok (identity, tls) ∧
      (ProposalContent.sign ⟨r.channelId, r.spec s, r.transientMap, tls⟩ p w s identity nonce).outcome = .ok e := by
  obtain ⟨⟨identity, tls⟩, hcheck, h⟩ := Traced.outcome_bind_eq_ok_iff.1 h
  exact ⟨identity, tls, hcheck, h⟩

end Fabric

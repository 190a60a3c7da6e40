import Fabric.Definition.Call
import Fabric.Proofs.View.Transaction
import Fabric.Request.ConfigUpdate

namespace Fabric

open Message (ChaincodeInvocation ChannelHeader ConfigSignature ConfigUpdateEnvelope Header Payload ProposalPayload
  SeekInfo SignatureHeader)
open Wire (Passes)

/-- The headers name the kind of the request, its channel, who makes it with which nonce, and the id that the provider
gives for these. -/
structure Message.Header.Identifies (h : Header) (p : Provider) (identity : SigningIdentity) (nonce : Bytes)
    (type : HeaderType) (channelId txId : String) : Prop where
  creator : Wire.decode h.signatureHeader = .ok (⟨identity.serialize, nonce⟩ : SignatureHeader)
  channel : ∃ channelHeader : ChannelHeader, Wire.decode h.channelHeader = .ok channelHeader ∧
    channelHeader.type = type.code ∧ channelHeader.channelId = channelId ∧ channelHeader.txId = txId
  derived : p.digest .sha256 (nonce ++ identity.serialize) = .ok txId

section

variable {p : Provider} {identity : SigningIdentity} {nonce : Bytes} {context : TransactionContext}

/-- Headers that are made in a context tell of it. -/
theorem TransactionContext.DerivedFrom.identifies (hcontext : context.DerivedFrom p identity nonce)
    {type : HeaderType} {now : Message.Timestamp} {channelId : String} {extension tlsCertHash : Bytes}
    (h : Passes (Wire.encode (context.header (context.channelHeader type now channelId extension tlsCertHash)))) :
    (context.header (context.channelHeader type now channelId extension tlsCertHash)).Identifies p identity nonce type
      channelId context.txId := by
  refine ⟨?_, ⟨_, decode_channelHeader h, rfl, rfl, rfl⟩, hcontext.digest⟩
  rw [← hcontext.creator, ← hcontext.used]
  exact decode_signatureHeader h

/-- An envelope that is signed in a context is read as its headers, which tell of the context, and its data. -/
theorem TransactionContext.DerivedFrom.identifies_signPayload (hcontext : context.DerivedFrom p identity nonce)
    {type : HeaderType} {now : Message.Timestamp} {channelId : String} {tlsCertHash data : Bytes} {e : SignedEnvelope}
    (he : (signPayload p identity context.txId
      (context.header (context.channelHeader type now channelId [] tlsCertHash)) data).outcome = .ok e)
    (h : Passes e.envelope.payload) :
    Passes data ∧ ∃ header, Wire.decode e.envelope.payload = .ok (⟨some header, data⟩ : Payload) ∧
      header.Identifies p identity nonce type channelId e.txId := by
  obtain ⟨hpayload, htxId⟩ := signPayload_of_outcome he
  rw [hpayload] at h ⊢
  rw [htxId]
  exact ⟨Payload.passes_data h, _, (Payload.faithful _).decode_of_passes h,
    hcontext.identifies (Payload.passes_header h)⟩

end

section

variable {p : Provider} {w : Surroundings} {s : Settings}

/-- The headers of a proposal say for whom it was signed, with which nonce and on which channel. -/
theorem ProposalContent.identifies {c : ProposalContent} {identity : SigningIdentity} {nonce : Option Bytes}
    {e : EndorsementProposal} (he : (c.sign p w s identity nonce).outcome = .ok e) (h : Passes e.signed.proposal) :
    Wire.decode e.signed.proposal = .ok e.proposal ∧
      ∃ header, Wire.decode e.proposal.header = .ok (header : Header) ∧
        header.Identifies p identity (nonce.getD (w.nonce s)) .endorserTransaction c.channelId e.txId := by
  obtain ⟨context, certHash, hcontext, -, htxId, hproposal, hbytes⟩ := signed_of_outcome he
  rw [hbytes] at h ⊢
  refine ⟨e.proposal.faithful.decode_of_passes h, c.header context w.now certHash, ?_, ?_⟩
  · rw [hproposal] at h ⊢
    rw [proposal_header]
    exact (Header.faithful _).decode_of_passes (passes_header h)
  · rw [hproposal] at h
    rw [htxId]
    exact hcontext.identifies (passes_header h)

/-- So do the headers of a request for blocks, next to the range that is asked for. -/
theorem SeekRequest.identifies {r : SeekRequest} {e : SignedEnvelope} (he : (r.sign p w s).outcome = .ok e)
    (h : Passes e.envelope.payload) :
    ∃ header data, Wire.decode e.envelope.payload = .ok (⟨some header, data⟩ : Payload) ∧
      header.Identifies p r.identity (w.nonce s) .deliverSeekInfo r.channelId e.txId ∧
      Wire.decode data = .ok (⟨some r.start.toMessage, some r.stop.toMessage, r.behavior.code⟩ : SeekInfo) := by
  obtain ⟨_, -, he⟩ := Traced.outcome_bind_eq_ok_iff.1 he
  obtain ⟨certHash, -, he⟩ := Traced.outcome_bind_eq_ok_iff.1 he
  obtain ⟨context, hcontext, he⟩ := Traced.outcome_bind_eq_ok_iff.1 he
  obtain ⟨hdata, header, hpayload, hheader⟩ :=
    (TransactionContext.derivedFrom hcontext).identifies_signPayload he h
  exact ⟨header, _, hpayload, hheader, r.info.faithful.decode_of_passes hdata⟩

/-- So do those of a change to a configuration, next to the change and its signatures. -/
theorem ConfigUpdate.identifies {identity : SigningIdentity} {channelId : String} {update : Bytes}
    {signatures : List ConfigSignature} {e : SignedEnvelope}
    (he : (ConfigUpdate.sign p w s identity channelId update signatures).outcome = .ok e)
    (h : Passes e.envelope.payload) :
    ∃ header data, Wire.decode e.envelope.payload = .ok (⟨some header, data⟩ : Payload) ∧
      header.Identifies p identity (w.nonce s) .configUpdate channelId e.txId ∧
      Wire.decode data = .ok (⟨update, signatures⟩ : ConfigUpdateEnvelope) := by
  obtain ⟨_, -, he⟩ := Traced.outcome_bind_eq_ok_iff.1 he
  obtain ⟨context, hcontext, he⟩ := Traced.outcome_bind_eq_ok_iff.1 he
  obtain ⟨hdata, header, hpayload, hheader⟩ :=
    (TransactionContext.derivedFrom hcontext).identifies_signPayload he h
  exact ⟨header, _, hpayload, hheader, (ConfigUpdateEnvelope.faithful _).decode_of_passes hdata⟩

inductive LifecycleCall.Built : LifecycleCall → Prop
  | install {package : Bytes} {c : LifecycleCall} (h : install package = .ok c) : Built c
  | queryInstalled : Built queryInstalled
  | approve {s : Settings} {d : ChaincodeDefinition} {source : PackageSource} {c : LifecycleCall}
    (h : approve s d source = .ok c) : Built c
  | checkReadiness {s : Settings} {d : ChaincodeDefinition} {c : LifecycleCall} (h : checkReadiness s d = .ok c) :
    Built c
  | commit {s : Settings} {d : ChaincodeDefinition} {c : LifecycleCall} (h : commit s d = .ok c) : Built c
  | queryDefinition {name : String} {c : LifecycleCall} (h : queryDefinition name = .ok c) : Built c
  | queryDefinitions : Built queryDefinitions

theorem LifecycleCall.function_of_bind {α : Type} {x : Except RequestError α} {name : String} {args : α → Bytes}
    {scope : CallScope} {c : LifecycleCall}
    (h : (x >>= fun a => pure (⟨name, args a, scope⟩ : LifecycleCall)) = .ok c) : c.function = name := by
  obtain ⟨a, -, h⟩ := bind_eq_ok_iff.1 h
  cases h
  rfl

/-- A function that is called has a name. -/
theorem LifecycleCall.Built.function_ne_empty {c : LifecycleCall} (h : c.Built) : c.function ≠ "" := by
  cases h with
  | install h =>
    rw [LifecycleCall.install] at h
    split at h
    · cases h
    · cases h
      change "InstallChaincode" ≠ ""
      decide
  | queryInstalled => decide
  | approve h =>
    rw [function_of_bind h]
    decide
  | checkReadiness h =>
    rw [function_of_bind h]
    decide
  | commit h =>
    rw [function_of_bind h]
    decide
  | queryDefinition h =>
    rw [function_of_bind h]
    decide
  | queryDefinitions => decide

def CallScope.channelOf : CallScope → String → String
  | .peer, _ => ""
  | .channel, channelId => channelId

theorem LifecycleCall.checkChannel_eq_ok {c : LifecycleCall} {channelId named : String}
    (h : c.checkChannel channelId = .ok named) : named = c.scope.channelOf channelId := by
  rw [checkChannel] at h
  cases hscope : c.scope with
  | peer =>
    rw [hscope] at h
    cases h
    rfl
  | channel =>
    rw [hscope] at h
    obtain ⟨_, -, h⟩ := bind_eq_ok_iff.1 h
    cases h
    rfl

/-- The call of a chaincode that manages others is a proposal on the channel of its scope. What it calls is the one that
the settings name. -/
theorem LifecycleCall.identifies {c : LifecycleCall} {identity : SigningIdentity} {channelId : String}
    {e : EndorsementProposal} (he : (c.sign p w s identity channelId).outcome = .ok e)
    (h : Passes e.signed.proposal) :
    Wire.decode e.signed.proposal = .ok e.proposal ∧
      (∃ header, Wire.decode e.proposal.header = .ok (header : Header) ∧
        header.Identifies p identity (w.nonce s) .endorserTransaction (c.scope.channelOf channelId) e.txId) ∧
      (c.Built → ∃ payload, Wire.decode e.proposal.payload = .ok (payload : ProposalPayload) ∧
        payload.transientMap = [] ∧
        Wire.decode payload.input = .ok (⟨some ⟨ChaincodeType.golang.code, some ⟨"", s.lifecycleChaincode, ""⟩,
          some ⟨[Bytes.ofText c.function, c.args], [], false⟩, timeoutCode s.proposalTimeout⟩⟩ :
            ChaincodeInvocation)) := by
  obtain ⟨named, hnamed, he⟩ := Traced.outcome_bind_eq_ok_iff.1 he
  obtain rfl := checkChannel_eq_ok hnamed
  obtain ⟨hread, hheader⟩ := ProposalContent.identifies he h
  refine ⟨hread, hheader, ?_⟩
  intro hbuilt
  have hargs : invocationArgs (some c.function) [c.args] = [Bytes.ofText c.function, c.args] := by
    rw [invocationArgs, if_neg]
    rw [String.isEmpty_iff]
    exact hbuilt.function_ne_empty
  obtain ⟨context, certHash, -, -, -, hproposal, hbytes⟩ := ProposalContent.signed_of_outcome he
  rw [hbytes, hproposal] at h
  have hpayload := ProposalContent.passes_payload h
  have hinput := ProposalPayload.passes_input List.Pairwise.nil hpayload
  refine ⟨(c.content s (c.scope.channelOf channelId)).payload, ?_, rfl, ?_⟩
  · rw [hproposal, ProposalContent.proposal_payload]
    exact (ProposalPayload.faithful List.Pairwise.nil).decode_of_passes hpayload
  · rw [← hargs]
    exact decode_chaincodeSpec List.Pairwise.nil hinput

end

end Fabric

import Fabric.Json.Ascii
import Fabric.Main
import Fabric.Request.ConfigUpdate
import Fabric.View.Lifecycle
import Fabric.Proofs.Wire.NestingLimit
import Fabric.Proofs.Policy.Forgery
import Fabric.Proofs.Policy.Envelope
import Fabric.Proofs.Policy.Kind
import Fabric.Proofs.Policy.Legacy
import Fabric.Proofs.Policy.Overdeep
import Fabric.Proofs.Policy.OwnApproval
import Fabric.Proofs.Message.RoundTrip
import Fabric.Proofs.Request.EndorseCommit
import Fabric.Proofs.Text.Order
import Fabric.Proofs.View.Proposal
import Fabric.Proofs.Request.Binding
import Fabric.Proofs.Definition.Acceptance
import Fabric.Proofs.Definition.Agreement
import Fabric.Proofs.View.Definition
import Fabric.Proofs.Message.Nesting
import Fabric.Proofs.Request.Continuing
import Fabric.Proofs.Policy.Approving
import Fabric.Proofs.Policy.GroupText
import Fabric.Proofs.Definition.PolicyDocument
import Fabric.Proofs.Request.ArmourForms
import Fabric.Proofs.Request.Nonce
import Fabric.Proofs.Request.ProposalHash
import Fabric.Proofs.Policy.Respelling
import Fabric.Proofs.Collected
import Fabric.Proofs.View.DefinitionList
import Fabric.Proofs.Definition.Violations
import Fabric.Proofs.Definition.Reapproval
import Fabric.Proofs.Crypto.Unwrapping
import Fabric.Proofs.Request.BadFields
import Fabric.Proofs.Crypto.Spacing
import Fabric.Proofs.Policy.Checking
import Fabric.Proofs.Policy.ImplicitMeta
import Fabric.Proofs.Crypto.Signature
import Fabric.Proofs.Wire.NestingCheck
import Fabric.Proofs.Json.Moments
import Fabric.Proofs.Policy.Room
import Fabric.Proofs.Policy.CallDepth

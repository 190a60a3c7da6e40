/-!
The message types of the protocol and their fields. A slot says how often a field may hold a value;
the slots of a type stand in the order of their field numbers.
-/
namespace Fabric.Wire

inductive MessageType
  | timestamp
  | header
  | channelHeader
  | signatureHeader
  | payload
  | envelope
  | policy
  | signaturePolicyEnvelope
  | signaturePolicy
  | nOutOf
  | implicitMetaPolicy
  | configUpdateEnvelope
  | configSignature
  | serializedIdentity
  | mspPrincipal
  | mspRole
  | seekNewest
  | seekOldest
  | seekSpecified
  | seekPosition
  | seekInfo
  | chaincodeId
  | chaincodeInput
  | chaincodeSpec
  | chaincodeInvocationSpec
  | signedProposal
  | proposal
  | chaincodeHeaderExtension
  | chaincodeProposalPayload
  | chaincodeAction
  | proposalResponse
  | response
  | proposalResponsePayload
  | endorsement
  | transaction
  | transactionAction
  | chaincodeActionPayload
  | chaincodeEndorsedAction
  | applicationPolicy
  | collectionConfigPackage
  | collectionConfig
  | staticCollectionConfig
  | collectionPolicyConfig
  | installChaincodeArgs
  | installChaincodeResult
  | queryInstalledChaincodesArgs
  | queryInstalledChaincodesResult
  | installedChaincode
  | references
  | referencedChaincode
  | chaincodeSource
  | unavailable
  | localPackage
  | approveArgs
  | checkReadinessArgs
  | checkReadinessResult
  | commitArgs
  | queryDefinitionArgs
  | queryDefinitionResult
  | queryDefinitionsArgs
  | queryDefinitionsResult
  | chaincodeDefinition
deriving DecidableEq, Repr

/-- What a field holds. Enumerations are 32-bit integers, so that unknown numbers are kept. -/
inductive Kind
  | bool
  | int32
  | int64
  | uint64
  | text
  | bytes
  | message (type : MessageType)
deriving DecidableEq, Repr

inductive Slot
  /-- One value, left out when it is the default. -/
  | plain (number : Nat) (kind : Kind)
  /-- One value or none. -/
  | optional (number : Nat) (kind : Kind)
  /-- Any number of values. -/
  | repeated (number : Nat) (kind : Kind)
  /-- Values under distinct texts, in order of those. -/
  | keyed (number : Nat) (kind : Kind)
  /-- One value of one of several fields, or none. -/
  | oneOf (choices : List (Nat × Kind))
deriving DecidableEq, Repr

/-- An entry of a keyed field is a message of its own. -/
def entrySlots (kind : Kind) : List Slot := [.plain 1 .text, .plain 2 kind]

/-- The fields that tell one chaincode definition from another, from field number 1 on. -/
def definitionSlots : List Slot :=
  [.plain 1 .int64, .plain 2 .text, .plain 3 .text, .plain 4 .text, .plain 5 .text, .plain 6 .bytes,
    .optional 7 (.message .collectionConfigPackage), .plain 8 .bool]

namespace MessageType

def slots : MessageType → List Slot
  | .timestamp => [.plain 1 .int64, .plain 2 .int32]
  | .header => [.plain 1 .bytes, .plain 2 .bytes]
  | .channelHeader =>
    [.plain 1 .int32, .plain 2 .int32, .optional 3 (.message .timestamp), .plain 4 .text, .plain 5 .text,
      .plain 6 .uint64, .plain 7 .bytes, .plain 8 .bytes]
  | .signatureHeader => [.plain 1 .bytes, .plain 2 .bytes]
  | .payload => [.optional 1 (.message .header), .plain 2 .bytes]
  | .envelope => [.plain 1 .bytes, .plain 2 .bytes]
  | .policy => [.plain 1 .int32, .plain 2 .bytes]
  | .signaturePolicyEnvelope =>
    [.plain 1 .int32, .optional 2 (.message .signaturePolicy), .repeated 3 (.message .mspPrincipal)]
  | .signaturePolicy => [.oneOf [(1, .int32), (2, .message .nOutOf)]]
  | .nOutOf => [.plain 1 .int32, .repeated 2 (.message .signaturePolicy)]
  | .implicitMetaPolicy => [.plain 1 .text, .plain 2 .int32]
  | .configUpdateEnvelope => [.plain 1 .bytes, .repeated 2 (.message .configSignature)]
  | .configSignature => [.plain 1 .bytes, .plain 2 .bytes]
  | .serializedIdentity => [.plain 1 .text, .plain 2 .bytes]
  | .mspPrincipal => [.plain 1 .int32, .plain 2 .bytes]
  | .mspRole => [.plain 1 .text, .plain 2 .int32]
  | .seekNewest => []
  | .seekOldest => []
  | .seekSpecified => [.plain 1 .uint64]
  | .seekPosition =>
    [.oneOf [(1, .message .seekNewest), (2, .message .seekOldest), (3, .message .seekSpecified)]]
  | .seekInfo =>
    [.optional 1 (.message .seekPosition), .optional 2 (.message .seekPosition), .plain 3 .int32]
  | .chaincodeId => [.plain 1 .text, .plain 2 .text, .plain 3 .text]
  | .chaincodeInput => [.repeated 1 .bytes, .keyed 2 .bytes, .plain 3 .bool]
  | .chaincodeSpec =>
    [.plain 1 .int32, .optional 2 (.message .chaincodeId), .optional 3 (.message .chaincodeInput),
      .plain 4 .int32]
  | .chaincodeInvocationSpec => [.optional 1 (.message .chaincodeSpec)]
  | .signedProposal => [.plain 1 .bytes, .plain 2 .bytes]
  | .proposal => [.plain 1 .bytes, .plain 2 .bytes, .plain 3 .bytes]
  | .chaincodeHeaderExtension => [.optional 2 (.message .chaincodeId)]
  | .chaincodeProposalPayload => [.plain 1 .bytes, .keyed 2 .bytes]
  | .chaincodeAction =>
    [.plain 1 .bytes, .plain 2 .bytes, .optional 3 (.message .response), .optional 4 (.message .chaincodeId)]
  | .proposalResponse =>
    [.plain 1 .int32, .optional 2 (.message .timestamp), .optional 4 (.message .response), .plain 5 .bytes,
      .optional 6 (.message .endorsement)]
  | .response => [.plain 1 .int32, .plain 2 .text, .plain 3 .bytes]
  | .proposalResponsePayload => [.plain 1 .bytes, .plain 2 .bytes]
  | .endorsement => [.plain 1 .bytes, .plain 2 .bytes]
  | .transaction => [.repeated 1 (.message .transactionAction)]
  | .transactionAction => [.plain 1 .bytes, .plain 2 .bytes]
  | .chaincodeActionPayload => [.plain 1 .bytes, .optional 2 (.message .chaincodeEndorsedAction)]
  | .chaincodeEndorsedAction => [.plain 1 .bytes, .repeated 2 (.message .endorsement)]
  | .applicationPolicy => [.oneOf [(1, .message .signaturePolicyEnvelope), (2, .text)]]
  | .collectionConfigPackage => [.repeated 1 (.message .collectionConfig)]
  | .collectionConfig => [.oneOf [(1, .message .staticCollectionConfig)]]
  | .staticCollectionConfig =>
    [.plain 1 .text, .optional 2 (.message .collectionPolicyConfig), .plain 3 .int32, .plain 4 .int32,
      .plain 5 .uint64, .plain 6 .bool, .plain 7 .bool, .optional 8 (.message .applicationPolicy)]
  | .collectionPolicyConfig => [.oneOf [(1, .message .signaturePolicyEnvelope)]]
  | .installChaincodeArgs => [.plain 1 .bytes]
  | .installChaincodeResult => [.plain 1 .text, .plain 2 .text]
  | .queryInstalledChaincodesArgs => []
  | .queryInstalledChaincodesResult => [.repeated 1 (.message .installedChaincode)]
  | .installedChaincode => [.plain 1 .text, .plain 2 .text, .keyed 3 (.message .references)]
  | .references => [.repeated 1 (.message .referencedChaincode)]
  | .referencedChaincode => [.plain 1 .text, .plain 2 .text]
  | .chaincodeSource => [.oneOf [(1, .message .unavailable), (2, .message .localPackage)]]
  | .unavailable => []
  | .localPackage => [.plain 1 .text]
  | .approveArgs => definitionSlots ++ [.optional 9 (.message .chaincodeSource)]
  | .checkReadinessArgs => definitionSlots
  | .checkReadinessResult => [.keyed 1 .bool]
  | .commitArgs => definitionSlots
  | .queryDefinitionArgs => [.plain 1 .text]
  | .queryDefinitionResult =>
    [.plain 1 .int64, .plain 2 .text, .plain 3 .text, .plain 4 .text, .plain 5 .bytes,
      .optional 6 (.message .collectionConfigPackage), .plain 7 .bool, .keyed 8 .bool]
  | .queryDefinitionsArgs => []
  | .queryDefinitionsResult => [.repeated 1 (.message .chaincodeDefinition)]
  | .chaincodeDefinition =>
    [.plain 1 .text, .plain 2 .int64, .plain 3 .text, .plain 4 .text, .plain 5 .text, .plain 6 .bytes,
      .optional 7 (.message .collectionConfigPackage), .plain 8 .bool]

/-- The numbers of the keyed fields, whose entries are read as blocks even if their keys say otherwise. -/
def keyedNumbers (t : MessageType) : List Nat :=
  t.slots.filterMap fun
    | .keyed number _ => some number
    | _ => none

/-- The full name of the type in the protocol's definition files. -/
def name : MessageType → String
  | .timestamp => "google.protobuf.Timestamp"
  | .header => "common.Header"
  | .channelHeader => "common.ChannelHeader"
  | .signatureHeader => "common.SignatureHeader"
  | .payload => "common.Payload"
  | .envelope => "common.Envelope"
  | .policy => "common.Policy"
  | .signaturePolicyEnvelope => "common.SignaturePolicyEnvelope"
  | .signaturePolicy => "common.SignaturePolicy"
  | .nOutOf => "common.SignaturePolicy.NOutOf"
  | .implicitMetaPolicy => "common.ImplicitMetaPolicy"
  | .configUpdateEnvelope => "common.ConfigUpdateEnvelope"
  | .configSignature => "common.ConfigSignature"
  | .serializedIdentity => "msp.SerializedIdentity"
  | .mspPrincipal => "msp.MSPPrincipal"
  | .mspRole => "msp.MSPRole"
  | .seekNewest => "orderer.SeekNewest"
  | .seekOldest => "orderer.SeekOldest"
  | .seekSpecified => "orderer.SeekSpecified"
  | .seekPosition => "orderer.SeekPosition"
  | .seekInfo => "orderer.SeekInfo"
  | .chaincodeId => "peer.ChaincodeID"
  | .chaincodeInput => "peer.ChaincodeInput"
  | .chaincodeSpec => "peer.ChaincodeSpec"
  | .chaincodeInvocationSpec => "peer.ChaincodeInvocationSpec"
  | .signedProposal => "peer.SignedProposal"
  | .proposal => "peer.Proposal"
  | .chaincodeHeaderExtension => "peer.ChaincodeHeaderExtension"
  | .chaincodeProposalPayload => "peer.ChaincodeProposalPayload"
  | .chaincodeAction => "peer.ChaincodeAction"
  | .proposalResponse => "peer.ProposalResponse"
  | .response => "peer.Response"
  | .proposalResponsePayload => "peer.ProposalResponsePayload"
  | .endorsement => "peer.Endorsement"
  | .transaction => "peer.Transaction"
  | .transactionAction => "peer.TransactionAction"
  | .chaincodeActionPayload => "peer.ChaincodeActionPayload"
  | .chaincodeEndorsedAction => "peer.ChaincodeEndorsedAction"
  | .applicationPolicy => "peer.ApplicationPolicy"
  | .collectionConfigPackage => "peer.CollectionConfigPackage"
  | .collectionConfig => "peer.CollectionConfig"
  | .staticCollectionConfig => "peer.StaticCollectionConfig"
  | .collectionPolicyConfig => "peer.CollectionPolicyConfig"
  | .installChaincodeArgs => "lifecycle.InstallChaincodeArgs"
  | .installChaincodeResult => "lifecycle.InstallChaincodeResult"
  | .queryInstalledChaincodesArgs => "lifecycle.QueryInstalledChaincodesArgs"
  | .queryInstalledChaincodesResult => "lifecycle.QueryInstalledChaincodesResult"
  | .installedChaincode => "lifecycle.QueryInstalledChaincodesResult.InstalledChaincode"
  | .references => "lifecycle.QueryInstalledChaincodesResult.References"
  | .referencedChaincode => "lifecycle.QueryInstalledChaincodesResult.Chaincode"
  | .chaincodeSource => "lifecycle.ChaincodeSource"
  | .unavailable => "lifecycle.ChaincodeSource.Unavailable"
  | .localPackage => "lifecycle.ChaincodeSource.Local"
  | .approveArgs => "lifecycle.ApproveChaincodeDefinitionForMyOrgArgs"
  | .checkReadinessArgs => "lifecycle.CheckCommitReadinessArgs"
  | .checkReadinessResult => "lifecycle.CheckCommitReadinessResult"
  | .commitArgs => "lifecycle.CommitChaincodeDefinitionArgs"
  | .queryDefinitionArgs => "lifecycle.QueryChaincodeDefinitionArgs"
  | .queryDefinitionResult => "lifecycle.QueryChaincodeDefinitionResult"
  | .queryDefinitionsArgs => "lifecycle.QueryChaincodeDefinitionsArgs"
  | .queryDefinitionsResult => "lifecycle.QueryChaincodeDefinitionsResult"
  | .chaincodeDefinition => "lifecycle.QueryChaincodeDefinitionsResult.ChaincodeDefinition"

def all : List MessageType :=
  [.timestamp, .header, .channelHeader, .signatureHeader, .payload, .envelope, .policy,
    .signaturePolicyEnvelope, .signaturePolicy, .nOutOf, .implicitMetaPolicy, .configUpdateEnvelope,
    .configSignature, .serializedIdentity, .mspPrincipal, .mspRole, .seekNewest, .seekOldest,
    .seekSpecified, .seekPosition, .seekInfo, .chaincodeId, .chaincodeInput, .chaincodeSpec,
    .chaincodeInvocationSpec, .signedProposal, .proposal, .chaincodeHeaderExtension,
    .chaincodeProposalPayload, .chaincodeAction, .proposalResponse, .response,
    .proposalResponsePayload, .endorsement, .transaction, .transactionAction, .chaincodeActionPayload,
    .chaincodeEndorsedAction, .applicationPolicy, .collectionConfigPackage, .collectionConfig,
    .staticCollectionConfig, .collectionPolicyConfig, .installChaincodeArgs, .installChaincodeResult,
    .queryInstalledChaincodesArgs, .queryInstalledChaincodesResult, .installedChaincode, .references,
    .referencedChaincode, .chaincodeSource, .unavailable, .localPackage, .approveArgs,
    .checkReadinessArgs, .checkReadinessResult, .commitArgs, .queryDefinitionArgs,
    .queryDefinitionResult, .queryDefinitionsArgs, .queryDefinitionsResult, .chaincodeDefinition]

def ofName? (s : String) : Option MessageType := all.find? fun t => t.name = s

end MessageType

end Fabric.Wire

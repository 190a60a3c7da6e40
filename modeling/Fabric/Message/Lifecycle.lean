import Fabric.Message.Collection

namespace Fabric.Message

open Wire Wire.Fields

structure InstallArgs where
  package : Bytes
deriving DecidableEq, Repr

instance : Codec InstallArgs where
  type := .installChaincodeArgs
  toFields a := putBytes 1 a.package
  ofFields f := ⟨f.bytes 1⟩

structure InstallResult where
  packageId : String
  label : String
deriving DecidableEq, Repr

instance : Codec InstallResult where
  type := .installChaincodeResult
  toFields r := putText 1 r.packageId ++ putText 2 r.label
  ofFields f := ⟨f.text 1, f.text 2⟩

/-- The name and version of a chaincode that uses a package. -/
structure ReferencedChaincode where
  name : String
  version : String
deriving DecidableEq, Repr

instance : Codec ReferencedChaincode where
  type := .referencedChaincode
  toFields c := putText 1 c.name ++ putText 2 c.version
  ofFields f := ⟨f.text 1, f.text 2⟩

structure References where
  chaincodes : List ReferencedChaincode
deriving DecidableEq, Repr

instance : Codec References where
  type := .references
  toFields r := putMessages 1 (r.chaincodes.map Codec.toFields)
  ofFields f := ⟨(f.messages 1).map Codec.ofFields⟩

structure InstalledChaincode where
  packageId : String
  label : String
  /-- What uses the package, under the names of channels. -/
  references : List (String × References)
deriving DecidableEq, Repr

instance : Codec InstalledChaincode where
  type := .installedChaincode
  toFields c :=
    putText 1 c.packageId ++ putText 2 c.label ++
      putEntries 3 (c.references.map fun (channel, r) =>
        (channel, put 2 (.message (Codec.toFields r))))
  ofFields f :=
    ⟨f.text 1, f.text 2, (f.entries 3).map fun (channel, entry) =>
      (channel, Codec.ofFields ((entry.message? 2).getD []))⟩

structure InstalledChaincodes where
  chaincodes : List InstalledChaincode
deriving DecidableEq, Repr

instance : Codec InstalledChaincodes where
  type := .queryInstalledChaincodesResult
  toFields r := putMessages 1 (r.chaincodes.map Codec.toFields)
  ofFields f := ⟨(f.messages 1).map Codec.ofFields⟩

/-- Where an organisation has a chaincode's package from. -/
inductive ChaincodeSource
  | unset
  | unavailable
  | localPackage (packageId : String)
deriving DecidableEq, Repr

instance : Codec ChaincodeSource where
  type := .chaincodeSource
  toFields
    | .unset => []
    | .unavailable => putMessage 1 []
    | .localPackage packageId => putMessage 2 (putText 1 packageId)
  ofFields
    | (1, .message _) :: _ => .unavailable
    | (2, .message f) :: _ => .localPackage (Fields.text f 1)
    | _ => .unset

/-- The arguments that commit a definition. -/
structure CommitArgs where
  sequence : Int64
  name : String
  version : String
  endorsementPlugin : String
  validationPlugin : String
  validationParameter : Bytes
  collections : Option CollectionPackage
  initRequired : Bool
deriving Repr

instance : Codec CommitArgs where
  type := .commitArgs
  toFields a :=
    putInt64 1 a.sequence ++ putText 2 a.name ++ putText 3 a.version ++ putText 4 a.endorsementPlugin ++
      putText 5 a.validationPlugin ++ putBytes 6 a.validationParameter ++
      putMessage? 7 (a.collections.map Codec.toFields) ++ putBool 8 a.initRequired
  ofFields f :=
    ⟨f.int64 1, f.text 2, f.text 3, f.text 4, f.text 5, f.bytes 6, (f.message? 7).map Codec.ofFields, f.bool 8⟩

/-- The arguments of the question who has approved a definition. -/
structure ReadinessArgs where
  sequence : Int64
  name : String
  version : String
  endorsementPlugin : String
  validationPlugin : String
  validationParameter : Bytes
  collections : Option CollectionPackage
  initRequired : Bool
deriving Repr

instance : Codec ReadinessArgs where
  type := .checkReadinessArgs
  toFields a :=
    putInt64 1 a.sequence ++ putText 2 a.name ++ putText 3 a.version ++ putText 4 a.endorsementPlugin ++
      putText 5 a.validationPlugin ++ putBytes 6 a.validationParameter ++
      putMessage? 7 (a.collections.map Codec.toFields) ++ putBool 8 a.initRequired
  ofFields f :=
    ⟨f.int64 1, f.text 2, f.text 3, f.text 4, f.text 5, f.bytes 6, (f.message? 7).map Codec.ofFields, f.bool 8⟩

/-- The arguments that approve a definition. -/
structure ApproveArgs where
  sequence : Int64
  name : String
  version : String
  endorsementPlugin : String
  validationPlugin : String
  validationParameter : Bytes
  collections : Option CollectionPackage
  initRequired : Bool
  source : Option ChaincodeSource
deriving Repr

instance : Codec ApproveArgs where
  type := .approveArgs
  toFields a :=
    putInt64 1 a.sequence ++ putText 2 a.name ++ putText 3 a.version ++ putText 4 a.endorsementPlugin ++
      putText 5 a.validationPlugin ++ putBytes 6 a.validationParameter ++
      putMessage? 7 (a.collections.map Codec.toFields) ++ putBool 8 a.initRequired ++
      putMessage? 9 (a.source.map Codec.toFields)
  ofFields f :=
    ⟨f.int64 1, f.text 2, f.text 3, f.text 4, f.text 5, f.bytes 6, (f.message? 7).map Codec.ofFields, f.bool 8,
      (f.message? 9).map Codec.ofFields⟩

/-- Truth values under texts, in order of those. -/
abbrev BoolMap := List (String × Bool)

def BoolMap.toFields (number : Nat) (m : BoolMap) : Fields :=
  putEntries number (m.map fun (key, value) => (key, putBool 2 value))

def BoolMap.ofFields (number : Nat) (f : Fields) : BoolMap :=
  (f.entries number).map fun (key, entry) => (key, entry.bool 2)

structure ReadinessResult where
  approvals : BoolMap
deriving DecidableEq, Repr

instance : Codec ReadinessResult where
  type := .checkReadinessResult
  toFields r := r.approvals.toFields 1
  ofFields f := ⟨BoolMap.ofFields 1 f⟩

structure QueryDefinitionArgs where
  name : String
deriving DecidableEq, Repr

instance : Codec QueryDefinitionArgs where
  type := .queryDefinitionArgs
  toFields a := putText 1 a.name
  ofFields f := ⟨f.text 1⟩

/-- A definition as it is reported, without its name. -/
structure QueryDefinitionResult where
  sequence : Int64
  version : String
  endorsementPlugin : String
  validationPlugin : String
  validationParameter : Bytes
  collections : Option CollectionPackage
  initRequired : Bool
  approvals : BoolMap
deriving Repr

instance : Codec QueryDefinitionResult where
  type := .queryDefinitionResult
  toFields r :=
    putInt64 1 r.sequence ++ putText 2 r.version ++ putText 3 r.endorsementPlugin ++
      putText 4 r.validationPlugin ++ putBytes 5 r.validationParameter ++
      putMessage? 6 (r.collections.map Codec.toFields) ++ putBool 7 r.initRequired ++
      r.approvals.toFields 8
  ofFields f :=
    ⟨f.int64 1, f.text 2, f.text 3, f.text 4, f.bytes 5, (f.message? 6).map Codec.ofFields, f.bool 7,
      BoolMap.ofFields 8 f⟩

/-- One definition in a list of them. -/
structure ListedDefinition where
  name : String
  sequence : Int64
  version : String
  endorsementPlugin : String
  validationPlugin : String
  validationParameter : Bytes
  collections : Option CollectionPackage
  initRequired : Bool
deriving Repr

instance : Codec ListedDefinition where
  type := .chaincodeDefinition
  toFields d :=
    putText 1 d.name ++ putInt64 2 d.sequence ++ putText 3 d.version ++ putText 4 d.endorsementPlugin ++
      putText 5 d.validationPlugin ++ putBytes 6 d.validationParameter ++
      putMessage? 7 (d.collections.map Codec.toFields) ++ putBool 8 d.initRequired
  ofFields f :=
    ⟨f.text 1, f.int64 2, f.text 3, f.text 4, f.text 5, f.bytes 6, (f.message? 7).map Codec.ofFields, f.bool 8⟩

structure QueryDefinitionsResult where
  definitions : List ListedDefinition
deriving Repr

instance : Codec QueryDefinitionsResult where
  type := .queryDefinitionsResult
  toFields r := putMessages 1 (r.definitions.map Codec.toFields)
  ofFields f := ⟨(f.messages 1).map Codec.ofFields⟩

end Fabric.Message

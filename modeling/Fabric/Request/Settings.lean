namespace Fabric

structure Settings where
  /-- The number of bytes in a nonce. -/
  nonceLength : UInt64 := 24
  endorsementPlugin : String := "escc"
  validationPlugin : String := "vscc"
  /-- The policy of a definition that names none. -/
  defaultPolicyReference : String := "/Channel/Application/Endorsement"
  /-- The chaincode that manages the others. -/
  lifecycleChaincode : String := "_lifecycle"
  /-- None if zero. -/
  proposalTimeout : UInt32 := 0
deriving DecidableEq, Repr

end Fabric

import Fabric.Message.Proposal

namespace Fabric.Message

open Wire Wire.Fields

structure EndorsedAction where
  responsePayload : Bytes
  endorsements : List Endorsement
deriving DecidableEq, Repr

instance : Codec EndorsedAction where
  type := .chaincodeEndorsedAction
  toFields a := putBytes 1 a.responsePayload ++ putMessages 2 (a.endorsements.map Codec.toFields)
  ofFields f := ⟨f.bytes 1, (f.messages 2).map Codec.ofFields⟩

structure ActionPayload where
  proposalPayload : Bytes
  action : Option EndorsedAction
deriving DecidableEq, Repr

instance : Codec ActionPayload where
  type := .chaincodeActionPayload
  toFields p := putBytes 1 p.proposalPayload ++ putMessage? 2 (p.action.map Codec.toFields)
  ofFields f := ⟨f.bytes 1, (f.message? 2).map Codec.ofFields⟩

structure TransactionAction where
  header : Bytes
  payload : Bytes
deriving DecidableEq, Repr

instance : Codec TransactionAction where
  type := .transactionAction
  toFields a := putBytes 1 a.header ++ putBytes 2 a.payload
  ofFields f := ⟨f.bytes 1, f.bytes 2⟩

structure Transaction where
  actions : List TransactionAction
deriving DecidableEq, Repr

instance : Codec Transaction where
  type := .transaction
  toFields t := putMessages 1 (t.actions.map Codec.toFields)
  ofFields f := ⟨(f.messages 1).map Codec.ofFields⟩

end Fabric.Message

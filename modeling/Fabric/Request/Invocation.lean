import Fabric.Message.Proposal
import Fabric.Request.Error
import Fabric.Word

namespace Fabric

open Message (ChaincodeId ChaincodeInput ChaincodeSpec)

inductive ChaincodeType
  | golang
  | node
  | java
  | car
deriving DecidableEq, Repr

namespace ChaincodeType

def name : ChaincodeType → String
  | .golang => "golang"
  | .node => "node"
  | .java => "java"
  | .car => "car"

/-- The number of the type in messages. -/
def code : ChaincodeType → Int32
  | .golang => 1
  | .node => 2
  | .car => 3
  | .java => 4

/-- Reads the name of a type, in any letter case. -/
def parse (s : String) : Except RequestError ChaincodeType :=
  match s.toLower with
  | "golang" | "go" => .ok .golang
  | "node" => .ok .node
  | "java" => .ok .java
  | "car" => .ok .car
  | name => .error (.validation [⟨"chaincode_type", .unknownChaincodeType name⟩])

end ChaincodeType

/-- The arguments begin with the function's name, if there is one. -/
def invocationArgs (function : Option String) (args : List Bytes) : List Bytes :=
  match function with
  | none => args
  | some f => if f.isEmpty then args else Bytes.ofText f :: args

def chaincodeInput (function : Option String) (args : List Bytes) (isInit : Bool) : ChaincodeInput :=
  ⟨invocationArgs function args, [], isInit⟩

/-- A timeout that is too large becomes the largest one. -/
def timeoutCode (timeout : UInt32) : Int32 :=
  (Word.int32? timeout.toNat).getD Int32.maxValue

def chaincodeSpec (name : String) (version : Option String) (type : ChaincodeType) (input : ChaincodeInput)
    (timeout : UInt32) : ChaincodeSpec :=
  ⟨type.code, some ⟨"", name, version.getD ""⟩, some input, timeoutCode timeout⟩

end Fabric

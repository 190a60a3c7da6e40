import Fabric.Crypto.Error
import Fabric.Policy.Error
import Fabric.Text.Blank

namespace Fabric

/-- What is wrong with a field. -/
inductive Reason
  | required
  | undecodable (e : CryptoError)
  | badPolicy (e : PolicyError)
  | badValidation (e : PolicyError)
  | belowOne
  | negative
  | belowRequired (maximum least : Int32)
  | duplicateCollection (name : String)
  | twoPolicies
  | noPolicy
  | emptyKeys
  | notCreator
  | afterStop (start stop : UInt64)
  | unknownChaincodeType (name : String)
  | other (text : String)

def Reason.message : Reason → String
  | .required => "is required"
  | .undecodable e => e.message
  | .badPolicy e => e.message
  | .badValidation e => s!"policy error: {e.message}"
  | .belowOne => "must be at least 1"
  | .negative => "must not be negative"
  | .belowRequired maximum least => s!"{maximum.toInt} is below required_peer_count {least.toInt}"
  | .duplicateCollection name => s!"duplicate collection '{name}'"
  | .twoPolicies => "set either signaturePolicy or channelConfigPolicyReference, not both"
  | .noPolicy => "requires signaturePolicy or channelConfigPolicyReference"
  | .emptyKeys => "keys must not be empty"
  | .notCreator => "is not the creator of the proposal"
  | .afterStop start stop => s!"block {start} is after stop block {stop}"
  | .unknownChaincodeType name => s!"unknown chaincode type '{name}'"
  | .other text => text

structure Violation where
  field : String
  reason : Reason

def Violation.message (v : Violation) : String := v.field ++ " " ++ v.reason.message

def Violation.messages (vs : List Violation) : String := String.intercalate "; " (vs.map Violation.message)

/-- What is wrong with bytes that were received. -/
inductive EncodingFault
  | undecodable (e : Wire.DecodeError)
  | badDigest
  | noHeader
  | noActions

def EncodingFault.message : EncodingFault → String
  | .undecodable e => e.message
  | .badDigest => "provider returned bad digest: not hexadecimal"
  | .noHeader => "envelope payload has no header"
  | .noActions => "transaction has no actions"

inductive RequestError
  | validation (violations : List Violation)
  | policy (e : PolicyError)
  | crypto (e : CryptoError)
  | encoding (fault : EncodingFault)
  | noSuccessfulEndorsements (count : Nat)
  | rejected (status : Int32) (message : String)

def RequestError.message : RequestError → String
  | .validation violations => s!"validation failed: {Violation.messages violations}"
  | .policy e => s!"policy error: {e.message}"
  | .crypto e => s!"crypto error: {e.message}"
  | .encoding fault => s!"encoding error: {fault.message}"
  | .noSuccessfulEndorsements count => s!"no successful endorsements among {count} responses"
  | .rejected status message => s!"peer returned status {status.toInt}: {message}"

end Fabric

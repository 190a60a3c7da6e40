import Fabric.Json.Printer
import Fabric.Wire.Message

namespace Fabric

/-- What is wrong with a policy written as JSON. -/
inductive NotationFault
  | malformed
  | missing (key : String)
  | invalidVersion (v : Json)
  | identitiesNotArray
  | identityNotObject (v : Json)
  | unsupportedClassification (v : Json)
  | missingPrincipal
  | missingMspId
  | missingRole
  | ruleNotObject (v : Json)
  | unknownRule (v : Json)
  | invalidIndex (v : Json)
  | groupNotObject
  | missingRules
  | legacyRuleNotObject (v : Json)
  | invalidLegacyIndex (v : Json)
  | legacyRulesNotArray (key : String)

def NotationFault.message : NotationFault → String
  | .malformed => "not a document of the expected form"
  | .missing key => s!"missing '{key}'"
  | .invalidVersion v => s!"invalid version: {v.compact}"
  | .identitiesNotArray => "'identities' must be an array"
  | .identityNotObject v => s!"identity must be an object: {v.compact}"
  | .unsupportedClassification v => s!"unsupported principal classification: {v.compact}"
  | .missingPrincipal => "identity is missing 'principal'"
  | .missingMspId => "principal is missing an msp identifier"
  | .missingRole => "principal is missing 'role'"
  | .ruleNotObject v => s!"rule must be an object: {v.compact}"
  | .unknownRule v => s!"rule must contain signedBy or nOutOf: {v.compact}"
  | .invalidIndex v => s!"invalid signedBy index: {v.compact}"
  | .groupNotObject => "nOutOf must be an object"
  | .missingRules => "nOutOf is missing 'rules'"
  | .legacyRuleNotObject v => s!"legacy rule must be an object: {v.compact}"
  | .invalidLegacyIndex v => s!"invalid signed-by index: {v.compact}"
  | .legacyRulesNotArray key => s!"'{key}' must be an array"

/-- What is wrong with a policy written as a message. -/
inductive EnvelopeFault
  | undecodable (e : Wire.DecodeError)
  | noRule
  | unsupportedClassification (code : Int32)
  | negativeIndex (index : Int32)
  | emptyRule

def EnvelopeFault.message : EnvelopeFault → String
  | .undecodable e => e.message
  | .noRule => "signature policy envelope has no rule"
  | .unsupportedClassification code => s!"unsupported principal classification {code.toInt}"
  | .negativeIndex index => s!"negative signed_by index {index.toInt}"
  | .emptyRule => "signature policy has no type"

inductive PolicyError
  | unknownSyntax (found : String)
  | empty
  /-- Parentheses do not match; the offset counts tokens. -/
  | unbalancedParentheses (offset : Nat)
  | unexpectedToken (found : String)
  | unknownKeyword (word : String)
  | unknownRole (name : String)
  | invalidPrincipal (token : String)
  /-- Something other than a count stands where a group's count is expected. -/
  | invalidOutOfCount (found : String)
  | outOfRange (n : UInt32) (available : Nat)
  | signedByOutOfRange (index : UInt32) (identities : Nat)
  | tooDeep (limit : Nat)
  | emptyRuleSet
  | invalidLegacyKey (key : String)
  | json (fault : NotationFault)
  | envelope (fault : EnvelopeFault)

def PolicyError.message : PolicyError → String
  | .unknownSyntax found => s!"Unrecognised policy syntax: {found}"
  | .empty => "Policy is empty"
  | .unbalancedParentheses offset => s!"Unbalanced parentheses at offset {offset}"
  | .unexpectedToken found => s!"Unexpected token: {found}"
  | .unknownKeyword word => s!"Unknown policy keyword: {word}"
  | .unknownRole name => s!"Unknown MSP role: {name}"
  | .invalidPrincipal token => s!"Invalid principal '{token}', expected '<mspId>.<role>'"
  | .invalidOutOfCount found => s!"Invalid OutOf count: {found}"
  | .outOfRange n available => s!"OutOf count {n} is outside 1..={available}"
  | .signedByOutOfRange index identities => s!"signed-by index {index} out of range ({identities} identities)"
  | .tooDeep limit => s!"Policy nesting exceeds {limit} levels"
  | .emptyRuleSet => "Policy group has no rules"
  | .invalidLegacyKey key => s!"Invalid legacy policy key: {key}"
  | .json fault => s!"Invalid policy JSON: {fault.message}"
  | .envelope fault => s!"Failed to decode policy: {fault.message}"

/-- The name of the cause. -/
def PolicyError.kind : PolicyError → String
  | .unknownSyntax .. => "UnknownSyntax"
  | .empty => "Empty"
  | .unbalancedParentheses .. => "UnbalancedParentheses"
  | .unexpectedToken .. => "UnexpectedToken"
  | .unknownKeyword .. => "UnknownKeyword"
  | .unknownRole .. => "UnknownRole"
  | .invalidPrincipal .. => "InvalidPrincipal"
  | .invalidOutOfCount .. => "InvalidOutOfCount"
  | .outOfRange .. => "OutOfRange"
  | .signedByOutOfRange .. => "SignedByOutOfRange"
  | .tooDeep .. => "TooDeep"
  | .emptyRuleSet => "EmptyRuleSet"
  | .invalidLegacyKey .. => "InvalidLegacyKey"
  | .json .. => "Json"
  | .envelope .. => "Decode"

end Fabric

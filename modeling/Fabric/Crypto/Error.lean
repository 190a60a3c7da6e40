namespace Fabric

/-- What is wrong with a text that should be in armour. -/
inductive PemFault
  | noBlock
  | notText
  | noHeader
deriving DecidableEq, Repr

def PemFault.message : PemFault → String
  | .noBlock => "no labelled block"
  | .notText => "decoded bytes are not UTF-8"
  | .noHeader => "missing PEM header"

inductive CryptoError
  | invalidKey
  | invalidPem (field : String) (fault : PemFault)
  | invalidBase64 (field : String)
  /-- No secret number gave a signature. -/
  | signing
  /-- The provider did not answer. -/
  | unavailable (reason : String)
deriving DecidableEq, Repr

def CryptoError.message : CryptoError → String
  | .invalidKey => "invalid private key: not a key on P-256"
  | .invalidPem field fault => s!"invalid PEM in {field}: {fault.message}"
  | .invalidBase64 field => s!"invalid base64 in {field}: not base64"
  | .signing => "signing failed: no secret number gave a signature"
  | .unavailable reason => s!"crypto provider unavailable: {reason}"

/-- The name of the cause. -/
def CryptoError.kind : CryptoError → String
  | .invalidKey => "InvalidKey"
  | .invalidPem .. => "InvalidPem"
  | .invalidBase64 .. => "InvalidBase64"
  | .signing => "Signing"
  | .unavailable .. => "Unavailable"

end Fabric

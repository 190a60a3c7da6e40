import Fabric.Crypto.KeyFile
import Fabric.Crypto.PemText
import Fabric.Crypto.Sha3

namespace Fabric

inductive HashAlgorithm
  | sha256
  | sha3
deriving DecidableEq, Repr

def HashAlgorithm.hash : HashAlgorithm → Bytes → Bytes
  | .sha256 => Sha256.hash
  | .sha3 => Sha3.hash

/-- A digest is a text in hexadecimal digits. -/
structure Provider where
  sign : (key : String) → (message : Bytes) → Except CryptoError Bytes
  digest : HashAlgorithm → Bytes → Except CryptoError String
  der : (pem : String) → Except CryptoError Bytes

namespace Provider

def software : Provider where
  sign key message :=
    match KeyFile.read? key with
    | none => .error .invalidKey
    | some key =>
      match Ecdsa.sign? key message with
      | some signature => .ok signature
      | none => .error .signing
  digest algorithm message := .ok (algorithm.hash message).toHex
  der := PemText.contents "pem"

/-- The signature of a stand-in. -/
def standInSignature (message : Bytes) : Bytes := Bytes.ofText "mock-sig:" ++ Sha256.hash message

def standIn : Provider := { software with sign := fun _ message => .ok (standInSignature message) }

def withoutSigner : Provider :=
  { standIn with sign := fun _ _ => .error (.unavailable "mock signer offline") }

def withoutHasher : Provider :=
  { standIn with digest := fun _ _ => .error (.unavailable "mock hasher offline") }

end Provider

end Fabric

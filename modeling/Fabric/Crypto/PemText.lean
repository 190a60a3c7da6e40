import Fabric.Armor
import Fabric.Crypto.Error

namespace Fabric.PemText

def mark : List Char := "-----BEGIN".toList

/-- The text itself. One that begins with a mark is taken as it is, without blanks at its ends; any other
is base64, with blanks anywhere, for a text that begins with a mark. -/
def unwrap (field s : String) : Except CryptoError String :=
  let trimmed := Text.trim s
  if mark.isPrefixOf trimmed.toList then .ok trimmed
  else
    match Base64.decodeChars? (Text.dropBlanks trimmed) with
    | none => .error (.invalidBase64 field)
    | some b =>
      match Bytes.toText? b with
      | none => .error (.invalidPem field .notText)
      | some text =>
        if mark.isPrefixOf (Text.trimStart text.toList) then .ok text
        else .error (.invalidPem field .noHeader)

def wrap (pem : String) : String := Base64.encode (Bytes.ofText pem)

/-- The contents of the first block of a text. -/
def contents (field pem : String) : Except CryptoError Bytes :=
  match Armor.block? pem with
  | some b => .ok b
  | none => .error (.invalidPem field .noBlock)

end Fabric.PemText

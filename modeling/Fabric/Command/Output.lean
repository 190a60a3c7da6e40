import Fabric.Base64
import Fabric.Command.Error
import Fabric.Json.Printer
import Fabric.Text.Blank

namespace Fabric

inductive Output
  | text (s : String)
  | json (v : Json)
  | bytes (b : Bytes)

namespace Output

/-- The name of the form that the output has. -/
def kind : Output → String
  | .text _ => "text"
  | .json _ => "json"
  | .bytes _ => "bytes"

/-- JSON is written on many lines with the keys in order, bytes in base64. -/
def render : Output → String
  | .text s => s
  | .json v => v.sorted.pretty
  | .bytes b => Base64.encode b

end Output

/-- Reads base64 with blanks anywhere in it. -/
def decodeBase64 (s : String) : Except CommandError Bytes :=
  match Base64.decodeChars? (Text.dropBlanks s) with
  | some b => .ok b
  | none => .error .base64

/-- The files that a command may read, by their paths. -/
abbrev Files := String → Except FileFault Bytes

def Files.text (files : Files) (path : String) : Except FileFault String := do
  match Bytes.toText? (← files path) with
  | some s => return s
  | none => throw .notText

end Fabric

import Fabric.Command.Output
import Fabric.Command.Overlay
import Fabric.Definition.Document
import Fabric.Request.Identity
import Fabric.Text.Digits

namespace Fabric

structure LoggingConfig where
  level : String := "warn"
  json : Bool := false
deriving DecidableEq, Repr

/-- Where the identity that signs is kept. -/
structure IdentityConfig where
  mspId : String := ""
  certPath : String := ""
  keyPath : String := ""
  tlsCertPath : String := ""
deriving DecidableEq, Repr

structure Configuration where
  logging : LoggingConfig := {}
  protocol : Settings := {}
  identity : IdentityConfig := {}
deriving DecidableEq, Repr

namespace Configuration

def toJson (c : Configuration) : Json :=
  .object [("logging", .object [("level", .string c.logging.level), ("json", .bool c.logging.json)]),
    ("protocol", c.protocol.toJson),
    ("identity", .object [("msp_id", .string c.identity.mspId), ("cert_path", .string c.identity.certPath),
      ("key_path", .string c.identity.keyPath), ("tls_cert_path", .string c.identity.tlsCertPath)])]

def truths : List String := ["true", "on", "yes"]

def falsehoods : List String := ["false", "off", "no"]

def bool? : Json → Option Bool
  | .bool b => some b
  | .number (.int n) => some (n ≠ 0)
  | .number (.float x) => some (x.mantissa ≠ 0)
  | .string s =>
    if ("1" :: truths).contains s.toLower then some true
    else if ("0" :: falsehoods).contains s.toLower then some false
    else none
  | _ => none

def greatestWord : Nat := UInt64.size - 1

/-- The nearest word, half a unit away from zero. -/
def nearestWord (x : Binary64) : Nat :=
  let (n, d) := x.ratio
  if x.negative then 0 else min greatestWord ((2 * n + d) / (2 * d))

/-- Words from 2⁶³ on are read as floats. -/
def word? : Json → Option Nat
  | .bool b => some (if b then 1 else 0)
  | .number (.int n) =>
    if n < 0 then none
    else if n ≤ Int64.maxValue.toInt then some n.toNat
    else (Binary64.ofRatio? false n.toNat 1).map nearestWord
  | .number (.float x) => some (nearestWord x)
  | .string s =>
    if truths.contains s.toLower then some 1
    else if falsehoods.contains s.toLower then some 0
    else
      match Text.unsigned? s.toList with
      | some n => if n ≤ greatestWord then some n else none
      | none => none
  | _ => none

/-- A word of half the width. -/
def timeout? (v : Json) : Option UInt32 := (word? v).bind fun n => Word.uint32? n

/-- A float without an exponent, and without a fraction if it is whole. -/
def plainFloat (x : Binary64) : String :=
  let s := x.shortest
  let digits := Nat.toDigits 10 s.digits
  let text :=
    if x.mantissa = 0 then ['0']
    else if 0 ≤ s.exponent then digits ++ List.replicate s.exponent.toNat '0'
    else
      let places := (-s.exponent).toNat
      let padded := List.replicate (places + 1 - digits.length) '0' ++ digits
      let fraction := Json.Number.dropZeros (padded.drop (padded.length - places))
      padded.take (padded.length - places) ++ (if fraction.isEmpty then [] else '.' :: fraction)
  String.ofList (if x.negative then '-' :: text else text)

def text? : Json → Option String
  | .string s => some s
  | .bool b => some (if b then "true" else "false")
  | .number (.int n) =>
    if n ≤ Int64.maxValue.toInt then some (toString n) else (Binary64.ofRatio? false n.toNat 1).map plainFloat
  | .number (.float x) => some (plainFloat x)
  | _ => none

/-- The values of a section's fields, which may also be written in their order. -/
def section? (fields : List String) : Json → Option (List (Option Json))
  | .object members => some (fields.map fun key => Json.lookup key members)
  | .array items => some ((List.range fields.length).map fun i => items[i]?)
  | _ => none

def orDefault {α : Type} (fallback : α) (read : Json → Option α) : Option Json → Option α
  | none => some fallback
  | some v => read v

def loggingOf? (v : Json) : Option LoggingConfig :=
  match section? ["level", "json"] v with
  | some [level, json] => do
    return ⟨← orDefault "warn" text? level, ← orDefault false bool? json⟩
  | _ => none

def settingsOf? (v : Json) : Option Settings :=
  let fallback : Settings := {}
  match section? (Settings.fields.flatMap id) v with
  | some [nonce, endorsement, validator, reference, lifecycle, timeout] => do
    return ⟨UInt64.ofNat (← orDefault fallback.nonceLength.toNat word? nonce),
      ← orDefault fallback.endorsementPlugin text? endorsement,
      ← orDefault fallback.validationPlugin text? validator,
      ← orDefault fallback.defaultPolicyReference text? reference,
      ← orDefault fallback.lifecycleChaincode text? lifecycle,
      ← orDefault fallback.proposalTimeout timeout? timeout⟩
  | _ => none

def identityOf? (v : Json) : Option IdentityConfig :=
  match section? ["msp_id", "cert_path", "key_path", "tls_cert_path"] v with
  | some [mspId, cert, key, tls] => do
    return ⟨← orDefault "" text? mspId, ← orDefault "" text? cert, ← orDefault "" text? key,
      ← orDefault "" text? tls⟩
  | _ => none

def ofJson? (v : Json) : Option Configuration :=
  match section? ["logging", "protocol", "identity"] v with
  | some [logging, protocol, identity] => do
    return ⟨← orDefault {} loggingOf? logging, ← orDefault {} settingsOf? protocol,
      ← orDefault {} identityOf? identity⟩
  | _ => none

/-- The configuration with the text of a file laid over the defaults. -/
def load? (file : Option String) : Option Configuration :=
  match file with
  | none => some {}
  | some s => do
    let members ← (← (← Json.Document.read? s).value? Json.Document.maxNesting).members?
    ofJson? (Overlay.layMembers members (toJson {}))

end Configuration

namespace IdentityConfig

def readText (files : Files) (subject path : String) : Except CommandError String :=
  (files.text path).mapError fun fault => .context s!"reading {subject} {path}" (.file fault)

def load (files : Files) (c : IdentityConfig) : Except CommandError SigningIdentity := do
  if c.mspId.isEmpty ∨ c.certPath.isEmpty ∨ c.keyPath.isEmpty then throw .noIdentity
  let certificate ← readText files "certificate" c.certPath
  let key ← readText files "private key" c.keyPath
  (SigningIdentity.ofPem c.mspId certificate key).mapError .request

/-- What `load` does, as a task of a command. -/
def signer (files : Files) (c : IdentityConfig) : Except CommandError SigningIdentity :=
  (c.load files).mapError (.context "loading signing identity")

def tlsCertificate (files : Files) (c : IdentityConfig) : Except CommandError (Option String) :=
  if c.tlsCertPath.isEmpty then .ok none
  else (readText files "TLS certificate" c.tlsCertPath).map some

end IdentityConfig

end Fabric

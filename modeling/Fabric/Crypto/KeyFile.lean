import Fabric.Armor
import Fabric.Crypto.Ecdsa

namespace Fabric.KeyFile

open Ecdsa (PrivateKey)

/-- The object identifiers of keys on elliptic curves, and of the curve. -/
def curveKeyId : Bytes := [0x2a, 0x86, 0x48, 0xce, 0x3d, 0x02, 0x01]

def curveId : Bytes := [0x2a, 0x86, 0x48, 0xce, 0x3d, 0x03, 0x01, 0x07]

/-- Elements that are left out or marked with a number, which is less than 31. -/
def isContextTag (tag : UInt8) : Bool := tag.toNat / 64 = 2 && tag.toNat % 32 ≠ 31

def contextNumber (tag : UInt8) : Nat := tag.toNat % 32

/-- The element holds elements. -/
def isConstructed (tag : UInt8) : Bool := tag.toNat / 32 % 2 = 1

/-- The element with a context number, if it is there, and what follows it. Elements with smaller
numbers are passed over. -/
def context? (number : Nat) (b : Bytes) : Option (Option (UInt8 × Bytes) × Bytes) :=
  match h : Der.readAny? b with
  | none => if isContextTag (b.headD 0) ∧ contextNumber (b.headD 0) ≤ number then none else some (none, b)
  | some (tag, contents, rest) =>
    if !isContextTag tag ∨ number < contextNumber tag then some (none, b)
    else if contextNumber tag = number then some (some (tag, contents), rest)
    else
      have := Der.readAny?_length h
      context? number rest
termination_by b.length

/-- The contents of an element that is wrapped in one with a context number, with what follows. -/
def wrapped? (number : Nat) (tag : UInt8) (b : Bytes) : Option (Option Bytes × Bytes) := do
  match ← context? number b with
  | (none, rest) => return (none, rest)
  | (some (outer, contents), rest) =>
    if !isConstructed outer then none
    return (some (← Der.readOnly? tag contents), rest)

/-- The coordinates written without or with compression. -/
def pointForms (x y : Nat) : List Bytes :=
  [0x04 :: Bytes.ofNat 32 x ++ Bytes.ofNat 32 y, (if y % 2 = 0 then 0x02 else 0x03) :: Bytes.ofNat 32 x]

def ownsPoint (key : PrivateKey) (point : Bytes) : Bool :=
  match key.publicPoint? with
  | some (x, y) => (pointForms x y).contains point
  | none => false

/-- The number of a key, in 24 to 32 bytes. -/
def scalar? (b : Bytes) : Option PrivateKey :=
  if 24 ≤ b.length ∧ b.length ≤ 32 then PrivateKey.ofScalar? (Bytes.toNat b) else none

/-- A bare key: its version, its number, and perhaps its curve and its public key. The number is taken for
one of this curve, whatever curve is named. -/
def bare? (b : Bytes) : Option PrivateKey := do
  let fields ← Der.readOnly? Der.sequenceTag b
  let (version, fields) ← Der.readInteger? fields
  if version ≠ 1 then none
  let (number, fields) ← Der.read? Der.octetStringTag fields
  let (curve, fields) ← wrapped? 0 Der.objectIdTag fields
  let (point, fields) ← wrapped? 1 Der.bitStringTag fields
  if !fields.isEmpty then none
  if curve.any (fun id => !Der.isObjectId id) then none
  let key ← scalar? number
  -- a public key is optional, but a wrong one spoils the key
  match point with
  | none => return key
  | some bits => if ownsPoint key (← Der.bitStringBytes? bits) then some key else none

/-- Fields that are not known: each is wrapped in an element with a context number. -/
def skipExtensions? (b : Bytes) : Option Unit :=
  if b.isEmpty then some ()
  else
    match h : Der.readAny? b with
    | none => none
    | some (tag, contents, rest) =>
      have := Der.readAny?_length h
      match Der.readAny? contents with
      | some (_, _, []) => if isContextTag tag ∧ isConstructed tag then skipExtensions? rest else none
      | _ => none
termination_by b.length

/-- The algorithm of a key, which has to be that of keys on this curve. -/
def algorithm? (b : Bytes) : Option Unit := do
  let (id, parameters) ← Der.read? Der.objectIdTag b
  let curve ← Der.readOnly? Der.objectIdTag parameters
  if id = curveKeyId ∧ curve = curveId then some () else none

/-- A key that names its algorithm. Only the second version holds a public key. -/
def general? (b : Bytes) : Option PrivateKey := do
  let fields ← Der.readOnly? Der.sequenceTag b
  let (version, fields) ← Der.readInteger? fields
  if 1 < version then none
  let (algorithm, fields) ← Der.read? Der.sequenceTag fields
  let (key, fields) ← Der.read? Der.octetStringTag fields
  let (point, fields) ← context? 1 fields
  if point.any (fun (tag, bits) => isConstructed tag || (Der.bitStringBytes? bits).isNone) then none
  -- the second version holds a public key, the first does not
  if (version = 1) ≠ point.isSome then none
  skipExtensions? fields
  algorithm? algorithm
  bare? key

def bareMark : List Char := "BEGIN EC PRIVATE KEY".toList

def occurs (mark : List Char) : List Char → Bool
  | [] => mark.isEmpty
  | c :: rest => mark.isPrefixOf (c :: rest) || occurs mark rest

/-- The private key in a text. -/
def read? (s : String) : Option PrivateKey := do
  let s := Text.trim s
  if occurs bareMark s.toList then bare? (← Armor.strict? "EC PRIVATE KEY" s)
  else general? (← Armor.strict? "PRIVATE KEY" s)

end Fabric.KeyFile

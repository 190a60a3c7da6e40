import Fabric.Crypto.Der
import Fabric.Crypto.Hmac
import Fabric.Crypto.P256

/-!
Signatures on P-256 with SHA-256. The secret number of a signature is derived from the key and the
message, so that signing is a function; of the two signatures that it allows, the one with the smaller
second part is taken, and it is written as a sequence of two integers.
-/
namespace Fabric.Ecdsa

open P256 (order Point)

structure PrivateKey where
  scalar : Nat
  scalar_pos : 0 < scalar
  scalar_lt : scalar < order

def PrivateKey.ofScalar? (n : Nat) : Option PrivateKey :=
  if h : 0 < n ∧ n < order then some ⟨n, h.1, h.2⟩ else none

def PrivateKey.publicPoint? (k : PrivateKey) : Option (Nat × Nat) := (Point.base.scale k.scalar).affine?

structure Signature where
  r : Nat
  s : Nat
deriving DecidableEq, Repr

namespace Signature

def isLow (x : Signature) : Bool := x.s ≤ order / 2

/-- The same signature with its second part in the lower half. -/
def lowered (x : Signature) : Signature := if x.isLow then x else ⟨x.r, order - x.s⟩

def toDer (x : Signature) : Bytes := Der.encode Der.sequenceTag (Der.encodeInteger x.r ++ Der.encodeInteger x.s)

def ofDer? (b : Bytes) : Option Signature := do
  let contents ← Der.readOnly? Der.sequenceTag b
  let (r, rest) ← Der.readInteger? contents
  let (s, rest) ← Der.readInteger? rest
  if rest.isEmpty then some ⟨r, s⟩ else none

end Signature

/-- The state of the generator that secret numbers are drawn from. -/
structure Generator where
  key : Bytes
  value : Bytes

namespace Generator

def update (g : Generator) (mark : UInt8) (seed : Bytes) : Generator :=
  let key := Hmac.mac g.key (g.value ++ mark :: seed)
  ⟨key, Hmac.mac key g.value⟩

def start (seed : Bytes) : Generator :=
  let g : Generator := ⟨List.replicate 32 0x00, List.replicate 32 0x01⟩
  (g.update 0x00 seed).update 0x01 seed

/-- One draw: the number that comes out, if it goes from 1 to the order, or else the generator to draw from next. -/
def attempt (g : Generator) : Option (Generator ⊕ Nat) :=
  let value := Hmac.mac g.key g.value
  let k := Bytes.toNat value
  some (if 0 < k ∧ k < order then .inr k else .inl (Generator.update ⟨g.key, value⟩ 0x00 []))

/-- The first number from 1 to the order among the draws, which go on until they come to one. -/
def draw? (g : Generator) : Option Nat := repeatM attempt g

end Generator

def digestNumber (message : Bytes) : Nat := Bytes.toNat (Sha256.hash message) % order

/-- A signature as it comes out of the secret number, unless a part of it is zero. -/
def signWith? (key : PrivateKey) (secret z : Nat) : Option Signature := do
  let (x, _) ← (Point.base.scale secret).affine?
  let r := x % order
  let s := P256.inverseMod order secret * (z + r * key.scalar) % order
  if r = 0 ∨ s = 0 then none else some ⟨r, s⟩

def signRaw? (key : PrivateKey) (message : Bytes) : Option Signature := do
  let z := digestNumber message
  -- the key and the message are the seed, so that equal messages get equal signatures
  let secret ← (Generator.start (Bytes.ofNat 32 key.scalar ++ Bytes.ofNat 32 z)).draw?
  signWith? key secret z

/-- What is sent for the raw signature of a message, in whichever way that one comes about. -/
def signLow {m : Type → Type} [Monad m] (raw : PrivateKey → Bytes → m Signature) (key : PrivateKey)
    (message : Bytes) : m Bytes := do
  let x ← raw key message
  return x.lowered.toDer

def sign? (key : PrivateKey) (message : Bytes) : Option Bytes := signLow signRaw? key message

def verify (key : PrivateKey) (message : Bytes) (x : Signature) : Bool :=
  if x.r = 0 ∨ order ≤ x.r ∨ x.s = 0 ∨ order ≤ x.s then false
  else
    let w := P256.inverseMod order x.s
    let u := digestNumber message * w % order
    let v := x.r * w % order
    let p := (Point.base.scale u).add ((Point.base.scale key.scalar).scale v)
    match p.affine? with
    | some (px, _) => px % order = x.r
    | none => false

end Fabric.Ecdsa

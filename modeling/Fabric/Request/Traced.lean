import Fabric.Crypto.Provider
import Fabric.Request.Error

/-!
Computations that ask a provider for digests and signatures: what they asked, in order, and what came
of it. The first error ends a computation; what was asked before it stays on record.
-/
namespace Fabric

inductive ProviderCall
  | digest (algorithm : HashAlgorithm) (message : Bytes)
  | sign (key : String) (message : Bytes)
deriving DecidableEq, Repr

def ProviderCall.isSign : ProviderCall → Bool
  | .sign _ _ => true
  | .digest _ _ => false

structure Traced (ε α : Type) where
  calls : List ProviderCall
  outcome : Except ε α

namespace Traced

variable {ε ε' α β : Type}

def bind (x : Traced ε α) (f : α → Traced ε β) : Traced ε β :=
  match x.outcome with
  | .error e => ⟨x.calls, .error e⟩
  | .ok a =>
    let y := f a
    ⟨x.calls ++ y.calls, y.outcome⟩

instance : Monad (Traced ε) where
  pure a := ⟨[], .ok a⟩
  bind := Traced.bind

def ofExcept (x : Except ε α) : Traced ε α := ⟨[], x⟩

def mapError (f : ε → ε') (x : Traced ε α) : Traced ε' α := ⟨x.calls, x.outcome.mapError f⟩

def digest (p : Provider) (algorithm : HashAlgorithm) (message : Bytes) : Traced RequestError String :=
  ⟨[.digest algorithm message], (p.digest algorithm message).mapError .crypto⟩

def sign (p : Provider) (key : String) (message : Bytes) : Traced RequestError Bytes :=
  ⟨[.sign key message], (p.sign key message).mapError .crypto⟩

/-- The digest as bytes, which it has to be the hexadecimal digits of. -/
def digestBytes (p : Provider) (message : Bytes) : Traced RequestError Bytes := do
  let text ← digest p .sha256 message
  match Bytes.ofHex? text with
  | some b => return b
  | none => ofExcept (.error (.encoding .badDigest))

end Traced

end Fabric

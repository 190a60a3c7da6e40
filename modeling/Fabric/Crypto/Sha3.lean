import Fabric.Bytes

namespace Fabric.Sha3

abbrev Lanes := Array UInt64

def lane (a : Lanes) (x y : Nat) : UInt64 := a.getD (x % 5 + 5 * (y % 5)) 0

def ofLanes (f : Nat → Nat → UInt64) : Lanes := ((List.range 25).map fun i => f (i % 5) (i / 5)).toArray

def rotateLeft (x : UInt64) (n : Nat) : UInt64 :=
  if n = 0 then x else (x <<< UInt64.ofNat n) ||| (x >>> UInt64.ofNat (64 - n))

def roundConstants : List UInt64 := [
  0x0000000000000001, 0x0000000000008082, 0x800000000000808a, 0x8000000080008000,
  0x000000000000808b, 0x0000000080000001, 0x8000000080008081, 0x8000000000008009,
  0x000000000000008a, 0x0000000000000088, 0x0000000080008009, 0x000000008000000a,
  0x000000008000808b, 0x800000000000008b, 0x8000000000008089, 0x8000000000008003,
  0x8000000000008002, 0x8000000000000080, 0x000000000000800a, 0x800000008000000a,
  0x8000000080008081, 0x8000000000008080, 0x0000000080000001, 0x8000000080008008]

/-- How far each lane is rotated. -/
def offsets : Array Nat := #[
  0, 1, 62, 28, 27,
  36, 44, 6, 55, 20,
  3, 10, 43, 25, 39,
  41, 45, 15, 21, 8,
  18, 2, 61, 56, 14]

/-- Each lane takes in the parities of two columns. -/
def mixColumns (a : Lanes) : Lanes :=
  let parity := ((List.range 5).map fun x =>
    lane a x 0 ^^^ lane a x 1 ^^^ lane a x 2 ^^^ lane a x 3 ^^^ lane a x 4).toArray
  let column := fun x => parity.getD (x % 5) 0
  ofLanes fun x y => lane a x y ^^^ column (x + 4) ^^^ rotateLeft (column (x + 1)) 1

/-- Lanes are rotated and change their places. -/
def permute (a : Lanes) : Lanes :=
  ofLanes fun x y => rotateLeft (lane a (x + 3 * y) x) (offsets.getD ((x + 3 * y) % 5 + 5 * x) 0)

/-- The only step that is not linear. -/
def mixRows (a : Lanes) : Lanes :=
  ofLanes fun x y => lane a x y ^^^ (~~~(lane a (x + 1) y) &&& lane a (x + 2) y)

def round (a : Lanes) (constant : UInt64) : Lanes :=
  (mixRows (permute (mixColumns a))).modify 0 (· ^^^ constant)

def shuffle (a : Lanes) : Lanes := roundConstants.foldl round a

/-- The bytes of a block that one step takes in. -/
def rate : Nat := 136

def littleEndian (b : Bytes) : UInt64 := UInt64.ofNat (Bytes.toNat b.reverse)

def toLanes : Nat → Bytes → List UInt64
  | 0, _ => []
  | n + 1, b => littleEndian (b.take 8) :: toLanes n (b.drop 8)

def absorbBlock (a : Lanes) (block : Bytes) : Lanes :=
  let words := (toLanes 17 block).toArray
  shuffle (ofLanes fun x y => lane a x y ^^^ words.getD (x + 5 * y) 0)

/-- The message, the bits of the padding, and zeros between them that fill the last block. -/
def padded (message : Bytes) : Bytes :=
  let fill := rate - message.length % rate
  -- the first and the last bit of the padding may fall into one byte
  if fill = 1 then message ++ [0x86] else message ++ 0x06 :: List.replicate (fill - 2) 0 ++ [0x80]

/-- The lanes after the first `n` blocks. -/
def absorb : Nat → Lanes → Bytes → Lanes
  | 0, a, _ => a
  | n + 1, a, b => absorb n (absorbBlock a (b.take rate)) (b.drop rate)

def hash (message : Bytes) : Bytes :=
  let b := padded message
  let a := absorb (b.length / rate) (ofLanes fun _ _ => 0) b
  -- four lanes are the 32 bytes of the digest, the low byte of a lane first
  (a.toList.take 4).flatMap fun w => (Bytes.ofNat 8 w.toNat).reverse

end Fabric.Sha3

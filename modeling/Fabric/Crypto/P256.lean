/-!
The elliptic curve P-256: y² = x³ - 3x + b over the field of order `prime`. Points are computed with in
Jacobian coordinates, which put off divisions to the end.
-/
namespace Fabric.P256

def prime : Nat := 0xffffffff00000001000000000000000000000000ffffffffffffffffffffffff

/-- The order of the group that the base point generates. -/
def order : Nat := 0xffffffff00000000ffffffffffffffffbce6faada7179e84f3b9cac2fc632551

def baseX : Nat := 0x6b17d1f2e12c4247f8bce6e563a440f277037d812deb33a0f4a13945d898c296

def baseY : Nat := 0x4fe342e2fe1a7f9b8ee7eb4a7c0f9e162bce33576b315ececbb6406837bf51f5

def powMod (modulus base exponent : Nat) : Nat :=
  if exponent = 0 then 1 % modulus
  else
    let half := powMod modulus (base * base % modulus) (exponent / 2)
    if exponent % 2 = 0 then half else base * half % modulus
termination_by exponent

/-- The inverse with regard to a prime modulus. -/
def inverseMod (modulus a : Nat) : Nat := powMod modulus a (modulus - 2)

def add (a b : Nat) : Nat := (a + b) % prime

def sub (a b : Nat) : Nat := (a + (prime - b % prime)) % prime

def mul (a b : Nat) : Nat := a * b % prime

/-- The point `(x / z², y / z³)`, or the neutral point if `z` is zero. -/
structure Point where
  x : Nat
  y : Nat
  z : Nat
deriving Repr

namespace Point

def neutral : Point := ⟨1, 1, 0⟩

def base : Point := ⟨baseX, baseY, 1⟩

def double (p : Point) : Point :=
  let delta := mul p.z p.z
  let gamma := mul p.y p.y
  let beta := mul p.x gamma
  -- 3x² - 3z⁴ is 3 (x - z²) (x + z²)
  let alpha := mul 3 (mul (sub p.x delta) (add p.x delta))
  let x := sub (mul alpha alpha) (mul 8 beta)
  -- 2yz without a product of its own: (y + z)² - y² - z²
  let z := sub (sub (mul (add p.y p.z) (add p.y p.z)) gamma) delta
  ⟨x, sub (mul alpha (sub (mul 4 beta) x)) (mul 8 (mul gamma gamma)), z⟩

def add (p q : Point) : Point :=
  if p.z = 0 then q
  else if q.z = 0 then p
  else
    let pz := mul p.z p.z
    let qz := mul q.z q.z
    let u := mul p.x qz
    let s := mul p.y (mul q.z qz)
    let h := sub (mul q.x pz) u
    let r := sub (mul q.y (mul p.z pz)) s
    -- the two x coordinates are equal, so the points are equal or opposite
    if h = 0 then
      if r = 0 then double p else neutral
    else
      let hh := mul h h
      let hhh := mul h hh
      let v := mul u hh
      let x := sub (sub (mul r r) hhh) (mul 2 v)
      ⟨x, sub (mul r (sub v x)) (mul s hhh), mul h (mul p.z q.z)⟩

def scale (k : Nat) (p : Point) : Point :=
  if k = 0 then neutral
  else
    let twice := double (scale (k / 2) p)
    if k % 2 = 0 then twice else add twice p
termination_by k

/-- The coordinates of the point, unless it is the neutral one. -/
def affine? (p : Point) : Option (Nat × Nat) :=
  if p.z = 0 then none
  else
    let i := inverseMod prime p.z
    let ii := mul i i
    some (mul p.x ii, mul p.y (mul i ii))

end Point

end Fabric.P256

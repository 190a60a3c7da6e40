/-!
Finite binary64 numbers as exact dyadic values, with the two roundings the library needs: a quotient
of naturals to the nearest binary64 number, and a binary64 number to the shortest decimal that reads
back as it. All arithmetic is on `Nat` and `Int`.
-/
namespace Fabric

/-- The number `mantissa * 2 ^ exponent`, with its sign. The mantissa is below `2 ^ 53`, and at least
`2 ^ 52` unless the exponent is the least one, `-1074`. -/
structure Binary64 where
  negative : Bool
  mantissa : Nat
  exponent : Int
deriving DecidableEq, Repr

namespace Binary64

def minExponent : Int := -1074

def maxExponent : Int := 971

def zero (negative : Bool) : Binary64 := ⟨negative, 0, minExponent⟩

/-- A quotient rounded to the nearest natural, a tie to the even one. -/
def roundDiv (num den : Nat) : Nat :=
  let q := num / den
  let r := num % den
  if den < 2 * r ∨ (den = 2 * r ∧ q % 2 = 1) then q + 1 else q

/-- Numerator and denominator of `num / den / 2 ^ e`. -/
def scale (num den : Nat) (e : Int) : Nat × Nat :=
  if 0 ≤ e then (num, den <<< e.toNat) else (num <<< (-e).toNat, den)

/-- The exponent under which `num / den` has a mantissa of 53 bits, or the least exponent. -/
def targetExponent (num den : Nat) : Int :=
  let e : Int := num.log2 - den.log2 - 52
  let (n, d) := scale num den e
  max minExponent (if n / d < 1 <<< 52 then e - 1 else e)

/-- The binary64 number nearest to `num / den`, a tie to the even mantissa; none if that is too large. -/
def ofRatio? (negative : Bool) (num den : Nat) : Option Binary64 :=
  if num = 0 then some (zero negative)
  else
    let e := targetExponent num den
    let (n, d) := scale num den e
    let m := roundDiv n d
    -- rounding up may carry into a 54th bit
    let (m, e) := if m = 1 <<< 53 then (1 <<< 52, e + 1) else (m, e)
    if maxExponent < e then none else some ⟨negative, m, e⟩

/-- The magnitude as a quotient. -/
def ratio (x : Binary64) : Nat × Nat :=
  if 0 ≤ x.exponent then (x.mantissa <<< x.exponent.toNat, 1) else (x.mantissa, 1 <<< (-x.exponent).toNat)

/-- The power of ten that `10 ^ n` is rounded to. -/
def powerOfTen? (n : Nat) : Option Binary64 := ofRatio? false (Nat.pow 10 n) 1

def mul? (x y : Binary64) : Option Binary64 :=
  let (a, b) := x.ratio
  let (c, d) := y.ratio
  ofRatio? (x.negative != y.negative) (a * c) (b * d)

def div? (x y : Binary64) : Option Binary64 :=
  let (a, b) := x.ratio
  let (c, d) := y.ratio
  ofRatio? (x.negative != y.negative) (a * d) (b * c)

/-- The largest power of ten that is at most `num / den`, for a positive quotient. -/
def log10 (num den : Nat) : Int :=
  if den ≤ num then ((Nat.toDigits 10 (num / den)).length : Int) - 1
  else
    let n := (Nat.toDigits 10 (den / num)).length
    if den ≤ num * Nat.pow 10 (n - 1) then 1 - (n : Int) else -(n : Int)

/-- A decimal `digits * 10 ^ exponent`. -/
structure Scaled where
  digits : Nat
  exponent : Int
deriving DecidableEq, Repr

/-- The reals that round to a positive number, as numerators over one denominator, with the number
itself; the ends belong to it when `closed`. -/
structure Interval where
  low : Nat
  value : Nat
  high : Nat
  den : Nat
  closed : Bool

def interval (x : Binary64) : Interval :=
  let narrow := x.mantissa = 1 <<< 52 ∧ minExponent < x.exponent
  -- below a power of two the next number is only half as far away
  let low := if narrow then 4 * x.mantissa - 1 else 4 * x.mantissa - 2
  let e := x.exponent - 2
  let up := if 0 ≤ e then 1 <<< e.toNat else 1
  let den := if 0 ≤ e then 1 else 1 <<< (-e).toNat
  ⟨low * up, 4 * x.mantissa * up, (4 * x.mantissa + 2) * up, den, x.mantissa % 2 = 0⟩

/-- The interval holds `n / den`. -/
def Interval.holds (i : Interval) (n : Nat) : Bool :=
  if i.closed then i.low ≤ n && n ≤ i.high else i.low < n && n < i.high

/-- The value's two neighbours among the multiples of `10 ^ k`; of those that the interval holds, the
nearer one, and the even one of two as near. -/
def Interval.onGrid? (i : Interval) (k : Int) : Option Scaled :=
  let (value, step) :=
    if 0 ≤ k then (i.value, i.den * Nat.pow 10 k.toNat) else (i.value * Nat.pow 10 (-k).toNat, i.den)
  let widen (n : Nat) : Nat := if 0 ≤ k then n else n * Nat.pow 10 (-k).toNat
  -- everything over one denominator, in units of the grid
  let wide : Interval := ⟨widen i.low, value, widen i.high, step, i.closed⟩
  let below := value / step
  let above := if value % step = 0 then below else below + 1
  match wide.holds (below * step), wide.holds (above * step) with
  | false, false => none
  | true, false => some ⟨below, k⟩
  | false, true => some ⟨above, k⟩
  | true, true =>
    let d := value - below * step
    let u := above * step - value
    some ⟨if d < u ∨ (d = u ∧ below % 2 = 0) then below else above, k⟩

/-- The decimal with the fewest digits that rounds to a positive number, and the nearest of those. -/
def shortest (x : Binary64) : Scaled :=
  let i := x.interval
  let top := log10 i.value i.den
  ((List.range 18).findSome? fun (n : Nat) => i.onGrid? (top - n)).getD ⟨x.mantissa, 0⟩

end Binary64

end Fabric

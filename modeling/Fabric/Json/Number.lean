import Fabric.Binary64

/-!
JSON numbers. A literal is the number as written. It denotes an integer when it has no fraction and no
exponent and lies in the range of 64-bit words, signed or not, and a binary64 number otherwise.
-/
namespace Fabric.Json

inductive Number
  | int (n : Int)
  | float (x : Binary64)
deriving DecidableEq, Repr

/-- A number as written. `exponent` holds whether it is negative, and its digits. -/
structure Literal where
  negative : Bool
  whole : List Char
  fraction : Option (List Char)
  exponent : Option (Bool × List Char)
deriving DecidableEq, Repr

namespace Literal

def digitValue (c : Char) : Nat := c.toNat - '0'.toNat

/-- The digits read so far, as a number times a power of ten. Digits that do not fit 64 bits are
dropped. -/
structure Reading where
  significand : Nat
  exponent : Int
  full : Bool

def fits (n : Nat) : Bool := n < UInt64.size

/-- A digit before the point. A dropped one multiplies by ten. -/
def Reading.wholeDigit (r : Reading) (c : Char) : Reading :=
  let n := r.significand * 10 + digitValue c
  if !r.full && fits n then { r with significand := n } else { r with exponent := r.exponent + 1, full := true }

/-- A digit after the point. -/
def Reading.fractionDigit (r : Reading) (c : Char) : Reading :=
  let n := r.significand * 10 + digitValue c
  if !r.full && fits n then { r with significand := n, exponent := r.exponent - 1 } else { r with full := true }

def maxExponent : Int := Int32.maxValue.toInt

/-- The product `x * 10 ^ e`, the power rounded before the product. -/
def scaleUp? (x : Binary64) (e : Nat) : Option Binary64 :=
  if x.mantissa = 0 then some x
  else if 308 < e then none
  else do x.mul? (← Binary64.powerOfTen? e)

/-- The quotient `x / 10 ^ e`, dividing by `10 ^ 308` as long as more than that is left. -/
def scaleDown? (x : Binary64) (e : Nat) : Option Binary64 :=
  if x.mantissa = 0 then some x
  else if e ≤ 308 then do x.div? (← Binary64.powerOfTen? e)
  else do scaleDown? (← x.div? (← Binary64.powerOfTen? 308)) (e - 308)
termination_by e

/-- The significand rounded and then scaled; none if the result is too large. -/
def scaled? (negative : Bool) (significand : Nat) (e : Int) : Option Binary64 := do
  let x ← Binary64.ofRatio? negative significand 1
  if 0 ≤ e then scaleUp? x e.toNat else scaleDown? x (-e).toNat

def toFloat? (l : Literal) : Option Binary64 :=
  let r := l.whole.foldl Reading.wholeDigit ⟨0, 0, false⟩
  let r := ((l.fraction.getD []).foldl Reading.fractionDigit { r with full := false })
  match l.exponent with
  | none => scaled? l.negative r.significand r.exponent
  | some (negative, digits) =>
    let e : Int := Nat.ofDigitChars 10 digits 0
    -- an exponent too large to count with makes the number zero or too large
    if maxExponent < e then
      if r.significand ≠ 0 ∧ !negative then none else some (Binary64.zero l.negative)
    else scaled? l.negative r.significand (if negative then r.exponent - e else r.exponent + e)

/-- The number that the literal denotes; none if it is too large. Zero with a sign is not an integer. -/
def toNumber? (l : Literal) : Option Number :=
  let n : Int := Nat.ofDigitChars 10 l.whole 0
  if l.fraction = none ∧ l.exponent = none ∧
      (if l.negative then n ≠ 0 ∧ Int64.minValue.toInt ≤ -n else n < UInt64.size) then
    some (.int (if l.negative then -n else n))
  else l.toFloat?.map .float

def text (l : Literal) : List Char :=
  (if l.negative then ['-'] else []) ++ l.whole ++
    (match l.fraction with
      | none => []
      | some digits => '.' :: digits) ++
    match l.exponent with
    | none => []
    | some (negative, digits) => 'e' :: (if negative then '-' else '+') :: digits

end Literal

namespace Number

/-- The exponents of ten from which a float is written without an exponent. -/
def leastPlain : Int := -5

def greatestPlain : Int := 15

def dropZeros (ds : List Char) : List Char := (ds.reverse.dropWhile (· == '0')).reverse

def zeros (n : Nat) : List Char := List.replicate n '0'

/-- Digits `d₁d₂…` standing for `d₁.d₂… * 10 ^ e`. A plain number always has a fraction. -/
def layout (negative : Bool) (digits : List Char) (e : Int) : Literal :=
  let orZero (ds : List Char) : List Char := if ds.isEmpty then ['0'] else ds
  if leastPlain ≤ e ∧ e < 0 then ⟨negative, ['0'], some (zeros (-e - 1).toNat ++ digits), none⟩
  else if 0 ≤ e ∧ e ≤ greatestPlain then
    let n := e.toNat + 1
    let whole := digits.take n
    ⟨negative, whole ++ zeros (n - whole.length), some (orZero (digits.drop n)), none⟩
  else
    let fraction := digits.drop 1
    ⟨negative, digits.take 1, if fraction.isEmpty then none else some fraction,
      some (e < 0, Nat.toDigits 10 e.natAbs)⟩

def literal : Number → Literal
  | .int n => ⟨n < 0, Nat.toDigits 10 n.natAbs, none, none⟩
  | .float x =>
    if x.mantissa = 0 then layout x.negative ['0'] 0
    else
      let s := x.shortest
      let digits := Nat.toDigits 10 s.digits
      layout x.negative (dropZeros digits) (s.exponent + digits.length - 1)

def text (n : Number) : String := String.ofList n.literal.text

end Number

end Fabric.Json

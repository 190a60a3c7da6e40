import Fabric.Bytes

namespace Fabric.Base64

def digit (n : Nat) : Char :=
  if n < 26 then Char.ofNat ('A'.toNat + n)
  else if n < 52 then Char.ofNat ('a'.toNat + (n - 26))
  else if n < 62 then Char.ofNat ('0'.toNat + (n - 52))
  else if n = 62 then '+'
  else '/'

def value? (c : Char) : Option Nat :=
  if 'A' ≤ c ∧ c ≤ 'Z' then some (c.toNat - 'A'.toNat)
  else if 'a' ≤ c ∧ c ≤ 'z' then some (c.toNat - 'a'.toNat + 26)
  else if '0' ≤ c ∧ c ≤ '9' then some (c.toNat - '0'.toNat + 52)
  else if c = '+' then some 62
  else if c = '/' then some 63
  else none

def encodeChars : Bytes → List Char
  | [] => []
  | [a] => [digit (a.toNat / 4), digit (a.toNat % 4 * 16), '=', '=']
  | [a, b] =>
    [digit (a.toNat / 4), digit (a.toNat % 4 * 16 + b.toNat / 16), digit (b.toNat % 16 * 4), '=']
  | a :: b :: c :: rest =>
    digit (a.toNat / 4) :: digit (a.toNat % 4 * 16 + b.toNat / 16) ::
      digit (b.toNat % 16 * 4 + c.toNat / 64) :: digit (c.toNat % 64) :: encodeChars rest

def encode (b : Bytes) : String := String.ofList (encodeChars b)

/-- The bytes of the last group of four digits, which alone may be padded. -/
def lastGroup? (p q : Nat) (r s : Char) : Option Bytes :=
  match value? r, value? s with
  | some x, some y =>
    some [UInt8.ofNat (p * 4 + q / 16), UInt8.ofNat (q % 16 * 16 + x / 4), UInt8.ofNat (x % 4 * 64 + y)]
  | some x, none =>
    if s = '=' ∧ x % 4 = 0 then some [UInt8.ofNat (p * 4 + q / 16), UInt8.ofNat (q % 16 * 16 + x / 4)]
    else none
  | none, _ => if r = '=' ∧ s = '=' ∧ q % 16 = 0 then some [UInt8.ofNat (p * 4 + q / 16)] else none

def decodeChars? : List Char → Option Bytes
  | [] => some []
  | [c₁, c₂, c₃, c₄] =>
    match value? c₁, value? c₂ with
    | some p, some q => lastGroup? p q c₃ c₄
    | _, _ => none
  | c₁ :: c₂ :: c₃ :: c₄ :: rest =>
    match value? c₁, value? c₂, value? c₃, value? c₄, decodeChars? rest with
    | some p, some q, some x, some y, some b =>
      some (UInt8.ofNat (p * 4 + q / 16) :: UInt8.ofNat (q % 16 * 16 + x / 4) ::
        UInt8.ofNat (x % 4 * 64 + y) :: b)
    | _, _, _, _, _ => none
  | _ => none

end Fabric.Base64

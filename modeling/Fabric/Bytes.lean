namespace Fabric

abbrev Bytes := List UInt8

namespace Bytes

def ofText (s : String) : Bytes := s.toUTF8.data.toList

/-- The text that the bytes encode in UTF-8, if they do. -/
def toText? (b : Bytes) : Option String := String.fromUTF8? b.toByteArray

/-- The `n` low bytes of a number, most significant first. -/
def ofNat (n value : Nat) : Bytes :=
  ((List.range n).map fun i => UInt8.ofNat (value >>> (8 * i))).reverse

def toNat (b : Bytes) : Nat := b.foldl (fun n x => n * 256 + x.toNat) 0

def hexDigit (n : Nat) : Char :=
  if n < 10 then Char.ofNat ('0'.toNat + n) else Char.ofNat ('a'.toNat + (n - 10))

def hexValue? (c : Char) : Option Nat :=
  if '0' ≤ c ∧ c ≤ '9' then some (c.toNat - '0'.toNat)
  else if 'a' ≤ c ∧ c ≤ 'f' then some (c.toNat - 'a'.toNat + 10)
  else if 'A' ≤ c ∧ c ≤ 'F' then some (c.toNat - 'A'.toNat + 10)
  else none

def hexPair (x : UInt8) : List Char := [hexDigit (x.toNat / 16), hexDigit (x.toNat % 16)]

/-- Two lowercase digits for each byte. -/
def toHex (b : Bytes) : String := String.ofList (b.flatMap hexPair)

def ofHexDigits? : List Char → Option Bytes
  | [] => some []
  | [_] => none
  | hi :: lo :: rest =>
    match hexValue? hi, hexValue? lo, ofHexDigits? rest with
    | some h, some l, some b => some (UInt8.ofNat (16 * h + l) :: b)
    | _, _, _ => none

/-- Reads digits of either case, two for each byte. -/
def ofHex? (s : String) : Option Bytes := ofHexDigits? s.toList

end Bytes

end Fabric

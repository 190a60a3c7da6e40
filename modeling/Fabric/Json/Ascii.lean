import Fabric.Json.Printer

namespace Fabric.Json

/-- The escape of one UTF-16 unit. -/
def unitEscape (n : Nat) : List Char :=
  let digits := Nat.toDigits 16 n
  '\\' :: 'u' :: List.replicate (4 - digits.length) '0' ++ digits

/-- A character outside ASCII as the escapes of its UTF-16 units. -/
def charEscape (c : Char) : List Char :=
  let n := c.toNat
  if n < 0x7f then [c]
  else if n < 0x10000 then unitEscape n
  else unitEscape (0xD800 + (n - 0x10000) / 0x400) ++ unitEscape (0xDC00 + (n - 0x10000) % 0x400)

/-- The compact text, with escapes for the characters outside ASCII, which stand in strings only. -/
def ascii (v : Json) : String := .ofList (v.compact.toList.flatMap charEscape)

end Fabric.Json

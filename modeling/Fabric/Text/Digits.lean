namespace Fabric.Text

/-- The number that digits stand for, of which there has to be one at least. -/
def nat? (cs : List Char) : Option Nat :=
  if cs.isEmpty ∨ !cs.all Char.isDigit then none else some (Nat.ofDigitChars 10 cs 0)

/-- Digits with or without a plus sign before them. -/
def unsigned? : List Char → Option Nat
  | '+' :: rest => nat? rest
  | cs => nat? cs

/-- Digits with or without a sign before them. -/
def signed? : List Char → Option Int
  | '-' :: rest => (nat? rest).map fun n => -(n : Int)
  | cs => (unsigned? cs).map Int.ofNat

end Fabric.Text

/-!
Blank characters (the Unicode property White_Space) and what is done with them: trimming a text,
dropping every blank, and splitting into words.
-/
namespace Fabric.Text

def isBlank (c : Char) : Bool :=
  let n := c.toNat
  (0x9 ≤ n && n ≤ 0xD) || n == 0x20 || n == 0x85 || n == 0xA0 || n == 0x1680 ||
    (0x2000 ≤ n && n ≤ 0x200A) || n == 0x2028 || n == 0x2029 || n == 0x202F || n == 0x205F ||
    n == 0x3000

/-- The characters from the first that is not blank on. -/
def trimStart (cs : List Char) : List Char := cs.dropWhile isBlank

def trimEnd (cs : List Char) : List Char := (cs.reverse.dropWhile isBlank).reverse

/-- The text without the blanks at its two ends. -/
def trim (s : String) : String := String.ofList (trimEnd (trimStart s.toList))

/-- Nothing but blanks, or nothing at all. -/
def isBlankText (s : String) : Bool := s.toList.all isBlank

def dropBlanks (s : String) : List Char := s.toList.filter fun c => !isBlank c

/-- One step of splitting from the right: the word being read, and the words after it. -/
def splitStep (c : Char) (acc : List Char × List (List Char)) : List Char × List (List Char) :=
  if isBlank c then ([], if acc.1.isEmpty then acc.2 else acc.1 :: acc.2) else (c :: acc.1, acc.2)

/-- The longest runs of characters that are not blank, in order. -/
def words (s : String) : List String :=
  let (w, ws) := s.toList.foldr splitStep ([], [])
  (if w.isEmpty then ws else w :: ws).map String.ofList

end Fabric.Text

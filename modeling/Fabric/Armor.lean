import Fabric.Base64
import Fabric.Text.Blank

/-!
Textual armour: a labelled block of base64 between a BEGIN and an END line. `block?` reads the first
block of a text and is lenient about what surrounds it and how it is wrapped. `strict?` reads key
material: the label is given, lines are 64 digits wide, and nothing follows the block.
-/
namespace Fabric.Armor

def opening : List Char := "-----BEGIN ".toList

def closing : List Char := "-----END ".toList

def dashes : List Char := "-----".toList

/-- Looks for the marker, of which `pending` is still to come. A character that breaks a partial
match is passed over and is not tried as the start of a new one. -/
def seekFrom (marker : List Char) : List Char → List Char → List Char → Option (List Char × List Char)
  | [], seen, rest => some ((seen.drop marker.length).reverse, rest)
  | _ :: _, _, [] => none
  | p :: ps, seen, c :: rest =>
    if c = p then seekFrom marker ps (c :: seen) rest else seekFrom marker marker (c :: seen) rest

/-- What stands before the first occurrence of the marker, and what stands after it. -/
def seek (marker cs : List Char) : Option (List Char × List Char) := seekFrom marker marker [] cs

def isGap (c : Char) : Bool := c = ' ' || c = '\t' || c = '\n' || c = '\r'

/-- The lines of a text, of which the last may have no end. -/
def lines (cs : List Char) : List (List Char) :=
  let parts := cs.splitOnP (· == '\n')
  if parts.getLast? = some [] then parts.dropLast else parts

/-- Headers end at the first empty line; without one there are none. -/
def splitHeaders (body : List Char) : List Char × List Char :=
  match seek "\n\n".toList body with
  | some parts => parts
  | none => (seek "\r\n\r\n".toList body).getD ([], body)

/-- The contents of the first block. Every header line needs a colon, and blanks between the digits
do not count. -/
def block? (s : String) : Option Bytes := do
  let (_, rest) ← seek opening s.toList
  let (label, rest) ← seek dashes rest
  let (body, rest) ← seek closing (rest.dropWhile isGap)
  -- the label at the end has to be the one at the beginning
  let (label', _) ← seek dashes rest
  if label.isEmpty ∨ label ≠ label' then none
  let (headers, data) := splitHeaders body
  if (lines headers).any fun line => !line.contains ':' then none
  Base64.decodeChars? (data.filter fun c => !Text.isBlank c)

def dropEol? : List Char → Option (List Char)
  | '\r' :: '\n' :: rest => some rest
  | '\r' :: rest => some rest
  | '\n' :: rest => some rest
  | _ => none

/-- The text without the line end it closes with, if there is one. -/
def dropLastEol? (cs : List Char) : Option (List Char) :=
  match cs.reverse with
  | '\n' :: '\r' :: rest => some rest.reverse
  | '\n' :: rest => some rest.reverse
  | '\r' :: rest => some rest.reverse
  | _ => none

def dropSuffix? (suffix cs : List Char) : Option (List Char) :=
  if suffix.isSuffixOf cs then some (cs.take (cs.length - suffix.length)) else none

/-- The text from the first opening at the start of a line on; the NUL character may not come before it. -/
def skipPreamble? (cs : List Char) : Option (List Char) :=
  if opening.isPrefixOf cs then some cs
  else
    let rec next : List Char → Option (List Char)
      | [] => none
      | c :: rest =>
        if c.toNat = 0 then none
        else if c = '\n' ∧ opening.isPrefixOf rest then some rest
        else next rest
    next cs

def wrapWidth : Nat := 64

/-- Undoes wrapping: every line but the last holds exactly `wrapWidth` characters. -/
def unwrap? (cs : List Char) : Option (List Char) :=
  if h : cs.length ≤ wrapWidth then some ((dropLastEol? cs).getD cs)
  else
    match hd : dropEol? (cs.drop wrapWidth) with
    | none => none
    | some rest =>
      have : rest.length < cs.length := by
        -- a full line was cut off, so less is left
        have hlen : (cs.drop wrapWidth).length < cs.length := by
          simp only [wrapWidth, List.length_drop] at h ⊢
          omega
        revert hd
        generalize cs.drop wrapWidth = tail at hlen ⊢
        intro hd
        unfold dropEol? at hd
        split at hd <;> simp_all <;> omega
      (unwrap? rest).map (cs.take wrapWidth ++ ·)
termination_by cs.length

/-- The contents of a block with the given label that ends the text. -/
def strict? (label : String) (s : String) : Option Bytes := do
  let cs ← skipPreamble? s.toList
  let header := opening ++ label.toList ++ dashes
  if !header.isPrefixOf cs then none
  let body ← dropEol? (cs.drop header.length)
  -- the end of the text is taken off from behind: dashes, label, marker, line end
  let body ← dropSuffix? dashes ((dropLastEol? body).getD body)
  let body ← dropSuffix? label.toList body
  let body ← dropSuffix? closing body
  let body ← dropLastEol? body
  if body.isEmpty then none
  Base64.decodeChars? (← unwrap? body)

end Fabric.Armor

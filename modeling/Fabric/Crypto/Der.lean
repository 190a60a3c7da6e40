import Fabric.Bytes

namespace Fabric.Der

def integerTag : UInt8 := 0x02

def bitStringTag : UInt8 := 0x03

def octetStringTag : UInt8 := 0x04

def objectIdTag : UInt8 := 0x06

def sequenceTag : UInt8 := 0x30

/-- The tags of elements whose kind is the same everywhere. -/
def universalTags : Bytes :=
  [0x01, 0x02, 0x03, 0x04, 0x05, 0x06, 0x09, 0x0a, 0x0c, 0x12, 0x13, 0x14, 0x15, 0x16, 0x17, 0x18, 0x1a, 0x1e,
    0x30, 0x31]

/-- Tags are a single byte. The two high bits are set in tags whose meaning depends on where they stand. -/
def isTag (tag : UInt8) : Bool := tag.toNat % 32 ≠ 31 && (64 ≤ tag.toNat || universalTags.contains tag)

/-- The bytes of a number without leading zeros; zero has none. -/
def digits (n : Nat) : Bytes :=
  if n = 0 then [] else digits (n / 256) ++ [UInt8.ofNat (n % 256)]
termination_by n

def encodeLength (n : Nat) : Bytes :=
  if n < 128 then [UInt8.ofNat n]
  else
    let ds := digits n
    UInt8.ofNat (0x80 + ds.length) :: ds

def encode (tag : UInt8) (contents : Bytes) : Bytes := tag :: encodeLength contents.length ++ contents

/-- The contents of an integer: no byte more than its sign needs. -/
def integerContents (n : Nat) : Bytes :=
  match digits n with
  | [] => [0]
  | d :: ds => if 128 ≤ d.toNat then 0 :: d :: ds else d :: ds

def encodeInteger (n : Nat) : Bytes := encode integerTag (integerContents n)

/-- The first `n` bytes and the others. -/
def splitAt? (n : Nat) (b : Bytes) : Option (Bytes × Bytes) :=
  if n ≤ b.length then some (b.take n, b.drop n) else none

/-- Reads a length of at most four bytes, which has to be in its shortest form. -/
def readLength? : Bytes → Option (Nat × Bytes)
  | [] => none
  | first :: rest =>
    if first.toNat < 128 then some (first.toNat, rest)
    else if first.toNat = 0x80 ∨ 0x84 < first.toNat then none
    else do
      let (ds, rest) ← splitAt? (first.toNat - 0x80) rest
      let n := Bytes.toNat ds
      if encodeLength n = first :: ds then some (n, rest) else none

/-- The first element: its tag and contents, and what follows it. -/
def readAny? : Bytes → Option (UInt8 × Bytes × Bytes)
  | [] => none
  | tag :: rest =>
    if isTag tag then do
      let (n, rest) ← readLength? rest
      let (contents, rest) ← splitAt? n rest
      return (tag, contents, rest)
    else none

theorem splitAt?_length {n : Nat} {b front rest : Bytes} (h : splitAt? n b = some (front, rest)) :
    rest.length ≤ b.length := by
  unfold splitAt? at h
  split at h
  · simp only [Option.some.injEq, Prod.mk.injEq] at h
    rw [← h.2, List.length_drop]
    omega
  · simp at h

theorem readLength?_length {b rest : Bytes} {n : Nat} (h : readLength? b = some (n, rest)) :
    rest.length ≤ b.length := by
  cases b with
  | nil => simp [readLength?] at h
  | cons first tail =>
    simp only [readLength?] at h
    split at h
    · simp_all
    · split at h
      · simp at h
      · simp only [Option.bind_eq_bind, Option.bind_eq_some_iff] at h
        obtain ⟨⟨ds, rest'⟩, hs, h⟩ := h
        split at h
        · simp only [Option.some.injEq, Prod.mk.injEq] at h
          have := splitAt?_length hs
          rw [← h.2, List.length_cons]
          omega
        · simp at h

theorem readAny?_length {b contents rest : Bytes} {tag : UInt8} (h : readAny? b = some (tag, contents, rest)) :
    rest.length < b.length := by
  cases b with
  | nil => simp [readAny?] at h
  | cons t tail =>
    simp only [readAny?] at h
    split at h
    · simp only [Option.bind_eq_bind, Option.bind_eq_some_iff] at h
      obtain ⟨⟨n, rest₁⟩, hl, ⟨body, rest₂⟩, hs, h⟩ := h
      simp only [Option.pure_def, Option.some.injEq, Prod.mk.injEq] at h
      have h₁ : rest₁.length ≤ tail.length := readLength?_length hl
      have h₂ : rest₂.length ≤ rest₁.length := splitAt?_length hs
      rw [← h.2.2, List.length_cons]
      omega
    · simp at h

/-- The contents of the first element, which has to have the tag, and what follows it. -/
def read? (tag : UInt8) (b : Bytes) : Option (Bytes × Bytes) := do
  let (t, contents, rest) ← readAny? b
  if t = tag then some (contents, rest) else none

/-- The contents of an element that is all there is. -/
def readOnly? (tag : UInt8) (b : Bytes) : Option Bytes := do
  let (contents, rest) ← read? tag b
  if rest.isEmpty then some contents else none

/-- A number of any size, which has to be in its shortest form and not negative. -/
def readInteger? (b : Bytes) : Option (Nat × Bytes) := do
  let (contents, rest) ← read? integerTag b
  let n := Bytes.toNat contents
  if integerContents n = contents then some (n, rest) else none

/-- The bytes of a bit string that has no bits left over. -/
def bitStringBytes? : Bytes → Option Bytes
  | 0 :: rest => some rest
  | _ => none

/-- Whether bytes are whole numbers of at most 32 bits, each written in groups of seven bits: the high bit
of a byte says that its number goes on. So many bytes of the first number stand before these. -/
def areNumbers (before : Nat) : Bytes → Bool
  | [] => before = 0
  | d :: rest =>
    if 4 ≤ before ∧ 16 ≤ d.toNat then false
    else areNumbers (if d.toNat < 128 then 0 else before + 1) rest

/-- The contents of an object identifier: its first byte stands for two numbers, the first at most 2 and
the second less than 40. -/
def isObjectId : Bytes → Bool
  | [] => false
  | first :: rest => first.toNat < 120 && 2 ≤ rest.length && rest.length ≤ 38 && areNumbers 0 rest

end Fabric.Der

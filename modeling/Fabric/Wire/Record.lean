import Fabric.Wire.Varint

/-!
The records that encoded bytes consist of: a field number with a payload. Reading them does not look
into payloads; a group is one record, and what stands in it is passed over.
-/
namespace Fabric.Wire

inductive WireType
  | varint
  | fixed64
  | block
  | startGroup
  | endGroup
  | fixed32
deriving DecidableEq, Repr

namespace WireType

def code : WireType → Nat
  | .varint => 0
  | .fixed64 => 1
  | .block => 2
  | .startGroup => 3
  | .endGroup => 4
  | .fixed32 => 5

def ofCode? : Nat → Option WireType
  | 0 => some .varint
  | 1 => some .fixed64
  | 2 => some .block
  | 3 => some .startGroup
  | 4 => some .endGroup
  | 5 => some .fixed32
  | _ => none

end WireType

structure Key where
  number : Nat
  type : WireType
deriving DecidableEq, Repr

namespace Key

def encode (k : Key) : Bytes := Varint.encode (8 * k.number + k.type.code)

/-- A key fits 32 bits and its number is not zero. -/
def decode (b : Bytes) : Option (Key × Bytes) :=
  match Varint.decode b with
  | none => none
  | some (n, rest) =>
    if UInt32.size ≤ n ∨ n / 8 = 0 then none else (WireType.ofCode? (n % 8)).map fun t => (⟨n / 8, t⟩, rest)

theorem decode_length {b rest : Bytes} {k : Key} (h : decode b = some (k, rest)) :
    rest.length < b.length := by
  unfold decode at h
  split at h
  · simp at h
  · next hv =>
    split at h
    · simp at h
    · simp only [Option.map_eq_some_iff, Prod.mk.injEq] at h
      obtain ⟨_, _, _, rfl⟩ := h
      exact Varint.decode_length hv

end Key

/-- The first `n` bytes and the rest, if there are that many. -/
def splitAt? (n : Nat) (b : Bytes) : Option (Bytes × Bytes) :=
  let (front, rest) := b.splitAt n
  if front.length = n then some (front, rest) else none

theorem splitAt?_eq_some {n : Nat} {b front rest : Bytes} (h : splitAt? n b = some (front, rest)) :
    b = front ++ rest ∧ front.length = n := by
  simp only [splitAt?, List.splitAt_eq] at h
  split at h
  · next hn =>
    simp only [Option.some.injEq, Prod.mk.injEq] at h
    obtain ⟨rfl, rfl⟩ := h
    exact ⟨(List.take_append_drop n b).symm, hn⟩
  · simp at h

/-- Reads a length and as many bytes. -/
def readBlock (b : Bytes) : Option (Bytes × Bytes) :=
  match Varint.decode b with
  | none => none
  | some (n, rest) => splitAt? n rest

theorem readBlock_length {b body rest : Bytes} (h : readBlock b = some (body, rest)) :
    body.length + rest.length < b.length := by
  unfold readBlock at h
  split at h
  · simp at h
  · next hv =>
    obtain ⟨rfl, _⟩ := splitAt?_eq_some h
    have := Varint.decode_length hv
    simp only [List.length_append] at this
    omega

inductive Payload
  | varint (n : Nat)
  | fixed64
  | fixed32
  | block (body : Bytes)
  | group
deriving DecidableEq, Repr

structure Record where
  number : Nat
  payload : Payload
deriving DecidableEq, Repr

namespace Record

/-- A record counts if no group is open around it. -/
def keep (groups : List Nat) (r : Record) (rs : Option (List Record)) : Option (List Record) :=
  if groups.isEmpty then rs.map (r :: ·) else rs

/-- How the payload of a record is read: as its key says, but always as a block for some numbers. Inside
groups no number is known. -/
def payloadType (alwaysBlocks groups : List Nat) (key : Key) : WireType :=
  if groups.isEmpty && alwaysBlocks.contains key.number then .block else key.type

/-- The records of some bytes. `groups` holds the numbers of the groups that are open, the innermost
first; each ends with its own number, and none is left open. -/
def scan (alwaysBlocks groups : List Nat) (b : Bytes) : Option (List Record) :=
  if b.isEmpty then if groups.isEmpty then some [] else none
  else
    match hk : Key.decode b with
    | none => none
    | some (key, rest) =>
      have := Key.decode_length hk
      match payloadType alwaysBlocks groups key with
      | .varint =>
        match hv : Varint.decode rest with
        | none => none
        | some (n, rest') =>
          have := Varint.decode_length hv
          keep groups ⟨key.number, .varint n⟩ (scan alwaysBlocks groups rest')
      | .fixed64 =>
        match hs : splitAt? 8 rest with
        | none => none
        | some (_, rest') =>
          have : rest'.length ≤ rest.length := by
            rw [(splitAt?_eq_some hs).1, List.length_append]
            omega
          keep groups ⟨key.number, .fixed64⟩ (scan alwaysBlocks groups rest')
      | .fixed32 =>
        match hs : splitAt? 4 rest with
        | none => none
        | some (_, rest') =>
          have : rest'.length ≤ rest.length := by
            rw [(splitAt?_eq_some hs).1, List.length_append]
            omega
          keep groups ⟨key.number, .fixed32⟩ (scan alwaysBlocks groups rest')
      | .block =>
        match hb : readBlock rest with
        | none => none
        | some (body, rest') =>
          have := readBlock_length hb
          keep groups ⟨key.number, .block body⟩ (scan alwaysBlocks groups rest')
      | .startGroup => keep groups ⟨key.number, .group⟩ (scan alwaysBlocks (key.number :: groups) rest)
      | .endGroup =>
        match groups with
        | [] => none
        -- a group ends only with the number it began with
        | g :: outer => if g = key.number then scan alwaysBlocks outer rest else none
termination_by b.length

/-- The records of some bytes, of which those with certain numbers are read as blocks. -/
def decodeAll (alwaysBlocks : List Nat) (b : Bytes) : Option (List Record) := scan alwaysBlocks [] b

def encodeBlock (number : Nat) (body : Bytes) : Bytes :=
  Key.encode ⟨number, .block⟩ ++ Varint.encode body.length ++ body

def encodeVarint (number n : Nat) : Bytes := Key.encode ⟨number, .varint⟩ ++ Varint.encode n

end Record

end Fabric.Wire

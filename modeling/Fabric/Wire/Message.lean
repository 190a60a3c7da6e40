import Fabric.Keyed
import Fabric.Wire.Nesting
import Fabric.Wire.Schema

/-!
Messages as values: the list of the fields that are set, in the order in which they are written. A
message is decoded from the records of its bytes, slot by slot, and encoded field by field. Fields that
its type does not have are passed over; a field that occurs more often than its slot allows is merged,
or the last occurrence wins.
-/
namespace Fabric.Wire

/-- Numbers and truth values are 64-bit words; a signed number is extended by its sign. -/
inductive Value
  | varint (n : UInt64)
  | text (s : String)
  | bytes (b : Bytes)
  | message (fields : List (Nat × Value))
deriving Repr, Inhabited

abbrev Fields := List (Nat × Value)

namespace Value

/-- The value of a field that is not set. -/
def isDefault : Value → Bool
  | .varint n => n == 0
  | .text s => s.isEmpty
  | .bytes b => b.isEmpty
  | .message fields => fields.isEmpty

def ofBool (b : Bool) : Value := .varint (if b then 1 else 0)

def ofInt32 (n : Int32) : Value := .varint n.toInt64.toUInt64

def ofInt64 (n : Int64) : Value := .varint n.toUInt64

mutual
/-- The records of a field. -/
def encodeField (number : Nat) : Value → Bytes
  | .varint n => Record.encodeVarint number n.toNat
  | .text s => Record.encodeBlock number (Bytes.ofText s)
  | .bytes b => Record.encodeBlock number b
  | .message fields => Record.encodeBlock number (encodeFields fields)
def encodeFields : List (Nat × Value) → Bytes
  | [] => []
  | (number, v) :: rest => encodeField number v ++ encodeFields rest
end

mutual
/-- How many messages stand below one another at most. -/
def nesting : Value → Nat
  | .message fields => nestingOfFields fields + 1
  | _ => 0
def nestingOfFields : List (Nat × Value) → Nat
  | [] => 0
  | (_, v) :: rest => max (nesting v) (nestingOfFields rest)
end

end Value

namespace Kind

/-- The value that a payload holds for a field that holds no message. -/
def scalar? : Kind → Payload → Option Value
  | .bool, .varint n => some (.ofBool (n != 0))
  | .int32, .varint n => some (.ofInt32 (UInt32.ofNat n).toInt32)
  | .int64, .varint n => some (.varint (UInt64.ofNat n))
  | .uint64, .varint n => some (.varint (UInt64.ofNat n))
  | .text, .block body => (Bytes.toText? body).map .text
  | .bytes, .block body => some (.bytes body)
  | _, _ => none

/-- The records inside a payload that holds a message with these keyed fields. -/
def inner? (keyed : List Nat) : Payload → Option (List Record)
  | .block body => Record.decodeAll keyed body
  | _ => none

end Kind

/-- Reads the messages inside a message: given a type and records, the fields that these set. -/
abbrev MessageReader := MessageType → List Record → Option Fields

/-- The value of a field that occurs with these payloads. Every payload has to be one of the field's
kind; of scalars the last one counts, and messages are read as if their records stood in one. -/
def readValue (read : MessageReader) (kind : Kind) (ps : List Payload) : Option Value :=
  match kind with
  | .message t => do
    let records ← ps.mapM (Kind.inner? t.keyedNumbers)
    return .message (← read t records.flatten)
  | kind => do
    let values ← ps.mapM kind.scalar?
    values.getLast?

def payloads (number : Nat) (rs : List Record) : List Payload :=
  (rs.filter fun r => r.number = number).map Record.payload

/-- The payloads of consecutive records of one number. -/
def runs : List Record → List (Nat × List Payload)
  | [] => []
  | r :: rest =>
    match runs rest with
    | (number, ps) :: more =>
      if number = r.number then (number, r.payload :: ps) :: more
      else (r.number, [r.payload]) :: (number, ps) :: more
    | [] => [(r.number, [r.payload])]

def readPlain (read : MessageReader) (rs : List Record) (number : Nat) (kind : Kind) : Option Fields :=
  match payloads number rs with
  | [] => some []
  | ps => (readValue read kind ps).map fun v => if v.isDefault then [] else [(number, v)]

/-- The key of an entry, which is the default text if it is not set. -/
def entryKey : Fields → String
  | (1, .text s) :: _ => s
  | _ => ""

/-- An entry of a keyed field: its key, and its fields. -/
def readEntry (read : MessageReader) (kind : Kind) (p : Payload) : Option (String × Fields) := do
  let records ← Kind.inner? [] p
  let key ← readPlain read records 1 .text
  let value ← readPlain read records 2 kind
  return (entryKey key, key ++ value)

def readChoice (read : MessageReader) (choices : List (Nat × Kind)) (run : Nat × List Payload) :
    Option (Nat × Value) := do
  let (_, kind) ← choices.find? fun c => c.1 = run.1
  return (run.1, ← readValue read kind run.2)

/-- The fields that the records set in a slot. -/
def readSlot (read : MessageReader) (rs : List Record) : Slot → Option Fields
  | .plain number kind => readPlain read rs number kind
  | .optional number kind =>
    match payloads number rs with
    | [] => some []
    | ps => (readValue read kind ps).map fun v => [(number, v)]
  | .repeated number kind =>
    (payloads number rs).mapM fun p => (readValue read kind [p]).map fun v => (number, v)
  | .keyed number kind => do
    let entries ← (payloads number rs).mapM (readEntry read kind)
    return (Keyed.ofList entries).map fun e => (number, .message e.2)
  | .oneOf choices => do
    -- consecutive records of one choice are one value; of several values the last one stays
    let values ← (runs (rs.filter fun r => choices.any fun c => c.1 = r.number)).mapM (readChoice read choices)
    return values.getLast?.toList

def readSlots (read : MessageReader) (slots : List Slot) (rs : List Record) : Option Fields := do
  return (← slots.mapM (readSlot read rs)).flatten

/-- Reads a message that is nested at most `depth` deep. -/
def readMessage : Nat → MessageReader
  | 0, _, _ => none
  | depth + 1, t, rs => readSlots (readMessage depth) t.slots rs

/-- The message that the bytes encode. Each message inside takes at least two bytes around it, so the
number of bytes bounds the depth. -/
def Fields.decode? (t : MessageType) (b : Bytes) : Option Fields := do
  readMessage (b.length + 1) t (← Record.decodeAll t.keyedNumbers b)

/-- How deep a message may be nested that is decoded: a policy takes two levels for each group, which
leaves room for a policy of a thousand groups inside other messages. -/
def maxNesting : Nat := 2200

inductive DecodeError
  | tooDeep (limit : Nat)
  | malformed
deriving DecidableEq, Repr

def DecodeError.message : DecodeError → String
  | .tooDeep limit => s!"failed to decode Protobuf message: message nesting exceeds {limit} levels"
  | .malformed => "failed to decode Protobuf message: not a message of this type"

def checkNesting (limit : Nat) (b : Bytes) : Except DecodeError Unit :=
  if nestedWithin limit b then .ok () else .error (.tooDeep limit)

/-- Decodes a message after measuring its nesting. -/
def Fields.decode (t : MessageType) (b : Bytes) : Except DecodeError Fields := do
  -- bytes that are nested too deep are not read at all
  checkNesting maxNesting b
  match Fields.decode? t b with
  | some fields => .ok fields
  | none => .error .malformed

def Fields.encode (fields : Fields) : Bytes := Value.encodeFields fields

namespace Fields

def get? (fields : Fields) (number : Nat) : Option Value := (fields.find? fun f => f.1 = number).map (·.2)

def word (fields : Fields) (number : Nat) : UInt64 :=
  match fields.get? number with
  | some (.varint n) => n
  | _ => 0

def bool (fields : Fields) (number : Nat) : Bool := fields.word number != 0

def int32 (fields : Fields) (number : Nat) : Int32 := (fields.word number).toInt64.toInt32

def int64 (fields : Fields) (number : Nat) : Int64 := (fields.word number).toInt64

def text (fields : Fields) (number : Nat) : String :=
  match fields.get? number with
  | some (.text s) => s
  | _ => ""

def bytes (fields : Fields) (number : Nat) : Bytes :=
  match fields.get? number with
  | some (.bytes b) => b
  | _ => []

def message? (fields : Fields) (number : Nat) : Option Fields :=
  match fields.get? number with
  | some (.message m) => some m
  | _ => none

/-- The values of a field that may occur more than once. -/
def values (fields : Fields) (number : Nat) : List Value :=
  (fields.filter fun f => f.1 = number).map (·.2)

def messages (fields : Fields) (number : Nat) : List Fields :=
  (fields.values number).filterMap fun v =>
    match v with
    | .message m => some m
    | _ => none

def blobs (fields : Fields) (number : Nat) : List Bytes :=
  (fields.values number).filterMap fun v =>
    match v with
    | .bytes b => some b
    | _ => none

/-- The entries of a keyed field: the key, and the fields that hold the value under number 2. -/
def entries (fields : Fields) (number : Nat) : List (String × Fields) :=
  (fields.messages number).map fun m => (m.text 1, m)

def put (number : Nat) (v : Value) : Fields := if v.isDefault then [] else [(number, v)]

def putBool (number : Nat) (b : Bool) : Fields := put number (.ofBool b)

def putInt32 (number : Nat) (n : Int32) : Fields := put number (.ofInt32 n)

def putInt64 (number : Nat) (n : Int64) : Fields := put number (.ofInt64 n)

def putWord (number : Nat) (n : UInt64) : Fields := put number (.varint n)

def putText (number : Nat) (s : String) : Fields := put number (.text s)

def putBytes (number : Nat) (b : Bytes) : Fields := put number (.bytes b)

def putMessage (number : Nat) (m : Fields) : Fields := [(number, .message m)]

def putMessage? (number : Nat) (m : Option Fields) : Fields :=
  match m with
  | none => []
  | some m => putMessage number m

def putMessages (number : Nat) (ms : List Fields) : Fields := ms.map fun m => (number, .message m)

def putBlobs (number : Nat) (bs : List Bytes) : Fields := bs.map fun b => (number, .bytes b)

/-- Entries under their keys, in order of those; of two under one key the later counts. -/
def putEntries (number : Nat) (entries : List (String × Fields)) : Fields :=
  (Keyed.ofList (entries.map fun (key, value) => (key, putText 1 key ++ value))).map fun e =>
    (number, .message e.2)

end Fields

/-- A Lean type whose values are the messages of one type. -/
class Codec (α : Type) where
  type : MessageType
  toFields : α → Fields
  ofFields : Fields → α

def encode {α : Type} [Codec α] (a : α) : Bytes := (Codec.toFields a).encode

def decode {α : Type} [Codec α] (b : Bytes) : Except DecodeError α :=
  (Fields.decode (Codec.type α) b).map Codec.ofFields

end Fabric.Wire

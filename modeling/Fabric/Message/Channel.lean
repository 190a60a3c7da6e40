import Fabric.Message.Envelope

namespace Fabric.Message

open Wire Wire.Fields

inductive SeekPosition
  | unset
  | newest
  | oldest
  | block (number : UInt64)
deriving DecidableEq, Repr

instance : Codec SeekPosition where
  type := .seekPosition
  toFields
    | .unset => []
    | .newest => putMessage 1 []
    | .oldest => putMessage 2 []
    | .block number => putMessage 3 (putWord 1 number)
  ofFields
    | (1, .message _) :: _ => .newest
    | (2, .message _) :: _ => .oldest
    | (3, .message f) :: _ => .block (Fields.word f 1)
    | _ => .unset

structure SeekInfo where
  start : Option SeekPosition
  stop : Option SeekPosition
  behavior : Int32
deriving DecidableEq, Repr

instance : Codec SeekInfo where
  type := .seekInfo
  toFields s :=
    putMessage? 1 (s.start.map Codec.toFields) ++ putMessage? 2 (s.stop.map Codec.toFields) ++
      putInt32 3 s.behavior
  ofFields f := ⟨(f.message? 1).map Codec.ofFields, (f.message? 2).map Codec.ofFields, f.int32 3⟩

/-- A signature on a change, with the header that it covers too. -/
structure ConfigSignature where
  signatureHeader : Bytes
  signature : Bytes
deriving DecidableEq, Repr

instance : Codec ConfigSignature where
  type := .configSignature
  toFields s := putBytes 1 s.signatureHeader ++ putBytes 2 s.signature
  ofFields f := ⟨f.bytes 1, f.bytes 2⟩

structure ConfigUpdateEnvelope where
  configUpdate : Bytes
  signatures : List ConfigSignature
deriving DecidableEq, Repr

instance : Codec ConfigUpdateEnvelope where
  type := .configUpdateEnvelope
  toFields e := putBytes 1 e.configUpdate ++ putMessages 2 (e.signatures.map Codec.toFields)
  ofFields f := ⟨f.bytes 1, (f.messages 2).map Codec.ofFields⟩

end Fabric.Message

import Fabric.Wire.Message

namespace Fabric.Message

open Wire Wire.Fields

structure Timestamp where
  seconds : Int64
  nanos : Int32
deriving DecidableEq, Repr

instance : Codec Timestamp where
  type := .timestamp
  toFields t := putInt64 1 t.seconds ++ putInt32 2 t.nanos
  ofFields f := ⟨f.int64 1, f.int32 2⟩

/-- The two headers, each encoded. -/
structure Header where
  channelHeader : Bytes
  signatureHeader : Bytes
deriving DecidableEq, Repr

instance : Codec Header where
  type := .header
  toFields h := putBytes 1 h.channelHeader ++ putBytes 2 h.signatureHeader
  ofFields f := ⟨f.bytes 1, f.bytes 2⟩

structure ChannelHeader where
  type : Int32
  version : Int32
  timestamp : Option Timestamp
  channelId : String
  txId : String
  epoch : UInt64
  extension : Bytes
  tlsCertHash : Bytes
deriving DecidableEq, Repr

instance : Codec ChannelHeader where
  type := .channelHeader
  toFields h :=
    putInt32 1 h.type ++ putInt32 2 h.version ++ putMessage? 3 (h.timestamp.map Codec.toFields) ++
      putText 4 h.channelId ++ putText 5 h.txId ++ putWord 6 h.epoch ++ putBytes 7 h.extension ++
      putBytes 8 h.tlsCertHash
  ofFields f :=
    ⟨f.int32 1, f.int32 2, (f.message? 3).map Codec.ofFields, f.text 4, f.text 5, f.word 6, f.bytes 7, f.bytes 8⟩

structure SignatureHeader where
  creator : Bytes
  nonce : Bytes
deriving DecidableEq, Repr

instance : Codec SignatureHeader where
  type := .signatureHeader
  toFields h := putBytes 1 h.creator ++ putBytes 2 h.nonce
  ofFields f := ⟨f.bytes 1, f.bytes 2⟩

structure Payload where
  header : Option Header
  data : Bytes
deriving DecidableEq, Repr

instance : Codec Payload where
  type := .payload
  toFields p := putMessage? 1 (p.header.map Codec.toFields) ++ putBytes 2 p.data
  ofFields f := ⟨(f.message? 1).map Codec.ofFields, f.bytes 2⟩

structure Envelope where
  payload : Bytes
  signature : Bytes
deriving DecidableEq, Repr

instance : Codec Envelope where
  type := .envelope
  toFields e := putBytes 1 e.payload ++ putBytes 2 e.signature
  ofFields f := ⟨f.bytes 1, f.bytes 2⟩

/-- What a creator is known by: its organisation and its certificate. -/
structure SerializedIdentity where
  mspId : String
  certificate : Bytes
deriving DecidableEq, Repr

instance : Codec SerializedIdentity where
  type := .serializedIdentity
  toFields i := putText 1 i.mspId ++ putBytes 2 i.certificate
  ofFields f := ⟨f.text 1, f.bytes 2⟩

end Fabric.Message

import Fabric.Crypto.Sha256

namespace Fabric.Hmac

def blockSize : Nat := 64

def blockKey (key : Bytes) : Bytes :=
  let key := if blockSize < key.length then Sha256.hash key else key
  key ++ List.replicate (blockSize - key.length) 0

def mac (key message : Bytes) : Bytes :=
  let key := blockKey key
  let inner := Sha256.hash (key.map (· ^^^ 0x36) ++ message)
  Sha256.hash (key.map (· ^^^ 0x5c) ++ inner)

end Fabric.Hmac

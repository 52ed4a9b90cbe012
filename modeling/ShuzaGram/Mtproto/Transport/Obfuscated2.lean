import ShuzaGram.Errors
import ShuzaGram.Infra.Keystream

/-!
# Obfuscated2

`mtproto/transport/obfuscated2.cpp` and `mtproto/crypto/aes_ctr.cpp`. The first 64 bytes of an obfuscated
connection are the key material of two AES-256-CTR streams, one for each direction; their last 8 bytes are
already encrypted and carry the inner protocol and the data center.

OpenSSL is outside the repository: a CTR stream adds a keystream, of which nothing is known, to the bytes
that pass through it.
-/

namespace ShuzaGram.Mtproto.Transport

open Infra Keystream

/-- The OpenSSL functions of this file: a hash, and the byte of a keystream at a position. -/
structure StreamPrimitives where
  sha256 : Bytes → Arr 32
  keystream : Arr 32 → Arr 16 → Nat → UInt8

/-! ## AES-256-CTR -/

structure Aes256CtrStream where
  key : Arr 32
  iv : Arr 16
  position : Nat
deriving DecidableEq

namespace Aes256CtrStream

/-- The constructor. -/
def create (key iv : Bytes) : Except Exn Aes256CtrStream :=
  if hkey : key.length = 32 then
    if hiv : iv.length = 16 then .ok { key := ⟨key, hkey⟩, iv := ⟨iv, hiv⟩, position := 0 }
    else .error (.runtimeError "Aes256CtrStream: iv must be 16 bytes")
  else .error (.runtimeError "Aes256CtrStream: key must be 32 bytes")

def keystream (P : StreamPrimitives) (c : Aes256CtrStream) : Nat → UInt8 := P.keystream c.key c.iv

def advance (c : Aes256CtrStream) (n : Nat) : Aes256CtrStream := { c with position := c.position + n }

/-- `XorKeyStream`: the output, and the stream behind it. -/
def xorKeyStream (P : StreamPrimitives) (c : Aes256CtrStream) (src : Bytes) : Bytes × Aes256CtrStream :=
  (xorFrom (c.keystream P) c.position src, c.advance src.length)

/-- A stream over chunks, one call each. -/
def xorKeyStreams (P : StreamPrimitives) : Aes256CtrStream → List Bytes → List Bytes
  | _, [] => []
  | c, src :: srcs => (c.xorKeyStream P src).1 :: xorKeyStreams P (c.xorKeyStream P src).2 srcs

/-- The calls add the chunks to one keystream. -/
theorem xorKeyStreams_eq (P : StreamPrimitives) : ∀ (srcs : List Bytes) (c : Aes256CtrStream),
    xorKeyStreams P c srcs = xorChunks (c.keystream P) c.position srcs
  | [], _ => rfl
  | src :: srcs, c => by
    rw [xorKeyStreams, xorKeyStreams_eq P srcs, xorChunks]
    rfl

theorem flatten_xorKeyStreams (P : StreamPrimitives) (srcs : List Bytes) (c : Aes256CtrStream) :
    (xorKeyStreams P c srcs).flatten = xorFrom (c.keystream P) c.position srcs.flatten := by
  rw [xorKeyStreams_eq, flatten_xorChunks]

end Aes256CtrStream

/-! ## The two streams of a connection -/

structure Obfuscated2Metadata where
  protocol : Bytes
  dc : UInt16
deriving DecidableEq

structure Obfuscated2Keys where
  encrypt : Aes256CtrStream
  decrypt : Aes256CtrStream
deriving DecidableEq

def reversedMiddle (init : Arr 64) : Bytes := ((init.toList.drop 8).take 48).reverse

/-- A secret is empty or has at least 16 bytes; the source reads 16 bytes of one that is not empty. -/
def createObfuscated2Streams (P : StreamPrimitives) (init : Arr 64) (secret : Bytes) :
    Except Exn Obfuscated2Keys := do
  let encryptKey := (init.toList.drop 8).take 32
  let encryptIv := (init.toList.drop 40).take 16
  let rev := reversedMiddle init
  let decryptKey := rev.take 32
  let decryptIv := (rev.drop 32).take 16
  -- of a longer secret, the first 16 bytes count
  let mix := fun key : Bytes => if secret.isEmpty then key else (P.sha256 (key ++ secret.take 16)).toList
  let encrypt ← Aes256CtrStream.create (mix encryptKey) encryptIv
  let decrypt ← Aes256CtrStream.create (mix decryptKey) decryptIv
  return { encrypt, decrypt }

structure Obfuscated2AcceptResult where
  keys : Obfuscated2Keys
  metadata : Obfuscated2Metadata
deriving DecidableEq

/-- `AcceptObfuscated2`: what the client calls encryption is the server's decryption. Decrypting all 64
bytes moves that stream to where the client's is. -/
def acceptObfuscated2 (P : StreamPrimitives) (wireInit : Arr 64) (secret : Bytes) :
    Except Exn Obfuscated2AcceptResult := do
  let keys ← createObfuscated2Streams P wireInit secret
  let swapped : Obfuscated2Keys := { encrypt := keys.decrypt, decrypt := keys.encrypt }
  let (decrypted, decrypt) := swapped.decrypt.xorKeyStream P wireInit.toList
  return { keys := { swapped with decrypt }
           metadata := { protocol := (decrypted.drop 56).take 4
                         dc := UInt16.ofNat (ofLE ((decrypted.drop 60).take 2)) } }

end ShuzaGram.Mtproto.Transport

import ShuzaGram.Errors
import ShuzaGram.Infra.Ige

/-!
# AES-256-IGE

`mtproto/crypto/aes_ige.cpp`: OpenSSL's ECB cipher as a one-block primitive and the IGE chaining by
hand. OpenSSL itself is outside the repository. What the source relies on is collected in
`Primitives`: hash functions with outputs of the right length, and AES as a permutation of the
16-byte blocks for every key.
-/

namespace ShuzaGram.Mtproto.Crypto

open Infra

/-- The OpenSSL functions the source calls. -/
structure Primitives where
  sha1 : Bytes → Arr 20
  sha256 : Bytes → Arr 32
  /-- The raw block cipher under a key; the inverse permutation is block decryption. -/
  aes : Bytes → Equiv.Perm (Arr 16)

def blockSize : Nat := 16

/-- `CheckIgeArgs`, then the key check of `RawAesBlock`. -/
def checkIgeArgs (key iv data : Bytes) : Except Exn Unit :=
  if iv.length ≠ 2 * blockSize then
    .error (.invalidArgument "IGE iv must be 32 bytes (two block IVs)")
  else if data.length % blockSize ≠ 0 then
    .error (.invalidArgument "IGE data must be a multiple of the block size")
  else if key.length ≠ 16 ∧ key.length ≠ 24 ∧ key.length ≠ 32 then
    .error (.invalidArgument "AES key must be 16, 24 or 32 bytes")
  else .ok ()

/-- The two chaining values an iv starts with. -/
def ivBlocks (iv : Bytes) : Arr 16 × Arr 16 :=
  (Arr.ofList 16 (iv.take blockSize), Arr.ofList 16 (iv.drop blockSize))

def dataBlocks (data : Bytes) : List (Arr 16) := chunks 16 (data.length / blockSize) data

/-- The loop of `IgeEncrypt` over the blocks of `data`. -/
def encryptBlocks (P : Primitives) (key iv data : Bytes) : Bytes :=
  join (Ige.encrypt Arr.xor (P.aes key) (ivBlocks iv).1 (ivBlocks iv).2 (dataBlocks data))

/-- The loop of `IgeDecrypt` over the blocks of `data`. -/
def decryptBlocks (P : Primitives) (key iv data : Bytes) : Bytes :=
  join (Ige.decrypt Arr.xor (P.aes key) (ivBlocks iv).1 (ivBlocks iv).2 (dataBlocks data))

def igeEncrypt (P : Primitives) (key iv data : Bytes) : Except Exn Bytes := do
  checkIgeArgs key iv data
  return encryptBlocks P key iv data

def igeDecrypt (P : Primitives) (key iv data : Bytes) : Except Exn Bytes := do
  checkIgeArgs key iv data
  return decryptBlocks P key iv data

/-- Arguments for which both directions run: an AES key length, a double iv, whole blocks. -/
structure IgeArgs (key iv data : Bytes) : Prop where
  key : key.length = 16 ∨ key.length = 24 ∨ key.length = 32
  iv : iv.length = 32
  data : 16 ∣ data.length

theorem checkIgeArgs_eq_ok {key iv data : Bytes} (h : IgeArgs key iv data) :
    checkIgeArgs key iv data = .ok () := by
  have hkey := h.key
  have hiv := h.iv
  have hdata := Nat.mod_eq_zero_of_dvd h.data
  unfold checkIgeArgs blockSize
  rw [if_neg (by omega), if_neg (by omega), if_neg (by omega)]

theorem join_dataBlocks {data : Bytes} (h : 16 ∣ data.length) : join (dataBlocks data) = data := by
  obtain ⟨k, hk⟩ := h
  have hdiv : data.length / 16 = k := by omega
  unfold dataBlocks blockSize
  rw [hdiv, join_chunks 16 k data hk]

theorem dataBlocks_join (bs : List (Arr 16)) : dataBlocks (join bs) = bs := by
  have hdiv : (join bs).length / 16 = bs.length := by rw [length_join]; omega
  unfold dataBlocks blockSize
  rw [hdiv, chunks_join]

theorem length_encryptBlocks {P : Primitives} {key iv data : Bytes} (h : 16 ∣ data.length) :
    (encryptBlocks P key iv data).length = data.length := by
  obtain ⟨k, hk⟩ := h
  simp only [encryptBlocks, length_join, Ige.length_encrypt, dataBlocks, length_chunks, blockSize]
  omega

theorem length_decryptBlocks {P : Primitives} {key iv data : Bytes} (h : 16 ∣ data.length) :
    (decryptBlocks P key iv data).length = data.length := by
  obtain ⟨k, hk⟩ := h
  simp only [decryptBlocks, length_join, Ige.length_decrypt, dataBlocks, length_chunks, blockSize]
  omega

theorem igeEncrypt_eq_ok {P : Primitives} {key iv data : Bytes} (h : IgeArgs key iv data) :
    igeEncrypt P key iv data = .ok (encryptBlocks P key iv data) := by
  rw [igeEncrypt, checkIgeArgs_eq_ok h]
  rfl

theorem igeDecrypt_eq_ok {P : Primitives} {key iv data : Bytes} (h : IgeArgs key iv data) :
    igeDecrypt P key iv data = .ok (decryptBlocks P key iv data) := by
  rw [igeDecrypt, checkIgeArgs_eq_ok h]
  rfl

theorem decryptBlocks_encryptBlocks {P : Primitives} {key iv data : Bytes} (h : 16 ∣ data.length) :
    decryptBlocks P key iv (encryptBlocks P key iv data) = data := by
  rw [decryptBlocks, encryptBlocks, dataBlocks_join, Ige.decrypt_encrypt _ _ Arr.xor_xor_cancel,
    join_dataBlocks h]

theorem encryptBlocks_decryptBlocks {P : Primitives} {key iv data : Bytes} (h : 16 ∣ data.length) :
    encryptBlocks P key iv (decryptBlocks P key iv data) = data := by
  rw [encryptBlocks, decryptBlocks, dataBlocks_join, Ige.encrypt_decrypt _ _ Arr.xor_xor_cancel, join_dataBlocks h]

/-- **IGE decryption undoes IGE encryption.** -/
theorem igeDecrypt_encryptBlocks {P : Primitives} {key iv data : Bytes} (h : IgeArgs key iv data) :
    igeDecrypt P key iv (encryptBlocks P key iv data) = .ok data := by
  have hargs : IgeArgs key iv (encryptBlocks P key iv data) :=
    ⟨h.key, h.iv, by rw [length_encryptBlocks h.data]; exact h.data⟩
  rw [igeDecrypt_eq_ok hargs, decryptBlocks_encryptBlocks h.data]

theorem igeEncrypt_decryptBlocks {P : Primitives} {key iv data : Bytes} (h : IgeArgs key iv data) :
    igeEncrypt P key iv (decryptBlocks P key iv data) = .ok data := by
  have hargs : IgeArgs key iv (decryptBlocks P key iv data) :=
    ⟨h.key, h.iv, by rw [length_decryptBlocks h.data]; exact h.data⟩
  rw [igeEncrypt_eq_ok hargs, encryptBlocks_decryptBlocks h.data]

/-- **AES-IGE inverts, both ways**, for every AES key, double iv and whole number of blocks. -/
theorem ige_inverts (P : Primitives) {key iv data : Bytes} (h : IgeArgs key iv data) :
    (igeEncrypt P key iv data >>= igeDecrypt P key iv) = .ok data ∧
      (igeDecrypt P key iv data >>= igeEncrypt P key iv) = .ok data := by
  constructor
  · rw [igeEncrypt_eq_ok h, ok_bind, igeDecrypt_encryptBlocks h]
  · rw [igeDecrypt_eq_ok h, ok_bind, igeEncrypt_decryptBlocks h]

/-- Hashes of nothing but zeros, and a cipher that adds its key to the block. -/
def keyedPrimitives : Primitives where
  sha1 _ := Arr.zero 20
  sha256 _ := Arr.zero 32
  aes key :=
    { toFun := fun block => block.xor (Arr.ofList 16 key)
      invFun := fun block => block.xor (Arr.ofList 16 key)
      left_inv := fun block => Arr.xor_xor_cancel block _
      right_inv := fun block => Arr.xor_xor_cancel block _ }

theorem ige_inverts_twoBlocks :
    (igeEncrypt keyedPrimitives (List.replicate 24 5) (List.replicate 32 7) (List.replicate 32 1) >>=
        igeDecrypt keyedPrimitives (List.replicate 24 5) (List.replicate 32 7)) = .ok (List.replicate 32 1) ∧
      (igeDecrypt keyedPrimitives (List.replicate 24 5) (List.replicate 32 7) (List.replicate 32 1) >>=
        igeEncrypt keyedPrimitives (List.replicate 24 5) (List.replicate 32 7)) = .ok (List.replicate 32 1) :=
  ige_inverts keyedPrimitives ⟨.inr (.inl List.length_replicate), List.length_replicate, ⟨2, List.length_replicate⟩⟩

end ShuzaGram.Mtproto.Crypto

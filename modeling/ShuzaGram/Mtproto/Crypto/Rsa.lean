import Mathlib.Tactic.Ring
import ShuzaGram.Mtproto.Crypto.AesIge
import ShuzaGram.Mtproto.Crypto.Bignum
import ShuzaGram.Mtproto.TlBuffer

/-!
# RSA and RSA_PAD

`mtproto/crypto/rsa.cpp`, less reading and writing keys, and `mtproto/crypto/rsa_pad.cpp`: raw RSA on
256 bytes, and the padding under which the client sends its half of the secret.

The two halves of `RsaPad`, finding the value and encrypting it, are taken apart, so that what raw RSA is
given can be spoken of.

* `rsaPadValue` — the value at which the loop stops
* `rsaUnpad_rsaPad` — the server reads back what the client padded
-/

namespace ShuzaGram.Mtproto.Crypto

open Infra

/-! ## RSA -/

def rsaByteLen : Nat := 256

structure RsaPublicKey where
  n : Bytes
  e : Bytes
deriving DecidableEq

/-- `RsaPrivateKey`, less the CRT parameters, which no computation uses. -/
structure RsaPrivateKey where
  n : Bytes
  e : Bytes
  d : Bytes
deriving DecidableEq

def RsaPrivateKey.publicKey (key : RsaPrivateKey) : RsaPublicKey := { n := key.n, e := key.e }

/-- `EncryptRaw`. -/
def RsaPublicKey.encryptRaw (key : RsaPublicKey) (data : Bytes) : Except Exn Bytes :=
  modPowFixed data key.e key.n rsaByteLen

/-- `DecryptRaw`. -/
def RsaPrivateKey.decryptRaw (key : RsaPrivateKey) (data : Bytes) : Except Exn Bytes :=
  modPowFixed data key.d key.n rsaByteLen

/-- `Fingerprint`: the last 8 bytes of the SHA-1 of the key. -/
def RsaPublicKey.fingerprint (P : Primitives) (key : RsaPublicKey) : Int64 :=
  let digest := (P.sha1 (putBytes key.n ++ putBytes key.e)).toList
  (UInt64.ofNat (ofLE ((digest.drop 12).take 8))).toInt64

/-- The private exponent undoes the public one below the modulus. -/
def RsaPrivateKey.Inverse (key : RsaPrivateKey) : Prop :=
  ∀ m < bytesToBignum key.n,
    (m ^ bytesToBignum key.e % bytesToBignum key.n) ^ bytesToBignum key.d % bytesToBignum key.n = m

/-- **Raw decryption undoes raw encryption** of 256 bytes below the modulus. -/
theorem decryptRaw_encryptRaw {key : RsaPrivateKey} (hkey : key.Inverse) (hn : key.n.length = rsaByteLen)
    {data : Bytes} (hlen : data.length = rsaByteLen) (hlt : bytesToBignum data < bytesToBignum key.n) :
    ∃ c, key.publicKey.encryptRaw data = .ok c ∧ c.length = rsaByteLen ∧ key.decryptRaw c = .ok data := by
  have hpos : 0 < bytesToBignum key.n := Nat.zero_lt_of_lt hlt
  refine ⟨_, modPowFixed_eq_ok hpos (Nat.le_of_eq hn), length_toBE _ _, ?_⟩
  have hc : bytesToBignum data ^ bytesToBignum key.e % bytesToBignum key.n < 256 ^ rsaByteLen :=
    calc _ < bytesToBignum key.n := Nat.mod_lt _ hpos
      _ < 256 ^ key.n.length := ofBE_lt key.n
      _ = 256 ^ rsaByteLen := by rw [hn]
  have hread : bytesToBignum (toBE rsaByteLen (bytesToBignum data ^ bytesToBignum key.e % bytesToBignum key.n)) =
      bytesToBignum data ^ bytesToBignum key.e % bytesToBignum key.n := ofBE_toBE_of_lt hc
  rw [RsaPrivateKey.decryptRaw, modPowFixed_eq_ok hpos (Nat.le_of_eq hn)]
  simp only [RsaPrivateKey.publicKey, hread]
  rw [hkey _ hlt]
  exact congrArg Except.ok (toBE_ofBE_of_length hlen)

/-! ## RSA_PAD -/

def rsaPadDataLimit : Nat := 144
def dataWithPaddingLen : Nat := 192
def tempKeySize : Nat := 32

def zeroIv32 : Bytes := List.replicate 32 0

def xorBytes (a b : Bytes) : Bytes := List.zipWith (· ^^^ ·) a b

/-- The comparison of `GreaterOrEqual`, from the highest byte. -/
def greaterOrEqualLoop : Bytes → Bytes → Bool
  | x :: xs, y :: ys => if x ≠ y then x > y else greaterOrEqualLoop xs ys
  | _, _ => true

def greaterOrEqual (a b : Bytes) : Except Exn Bool :=
  if a.length ≠ b.length then .error (.runtimeError "RSA_PAD modulus comparison length mismatch")
  else .ok (greaterOrEqualLoop a b)

/-- `data_with_padding`; the padding comes from the random source. -/
def dataWithPadding (data : Bytes) (pad : Nat → UInt8) : Bytes :=
  data ++ (List.range (dataWithPaddingLen - data.length)).map pad

/-- One round of `RsaPad`, up to `key_aes_encrypted`. -/
def keyAesEncrypted (P : Primitives) (padded : Bytes) (tempKey : Arr 32) : Except Exn Bytes := do
  let dataWithHash := padded.reverse ++ (P.sha256 (tempKey.toList ++ padded)).toList
  let aesEncrypted ← igeEncrypt P tempKey.toList zeroIv32 dataWithHash
  return xorBytes tempKey.toList (P.sha256 aesEncrypted).toList ++ aesEncrypted

/-- The loop of `RsaPad`, over the temporary keys that it draws. -/
def rsaPadLoop (P : Primitives) (padded : Bytes) (key : RsaPublicKey) : List (Arr 32) → Except Exn Bytes
  | [] => throw .randomExhausted
  | tempKey :: rest => do
    let candidate ← keyAesEncrypted P padded tempKey
    if ← greaterOrEqual candidate key.n then rsaPadLoop P padded key rest
    else key.encryptRaw candidate

/-- `RsaPad`. -/
def rsaPad (P : Primitives) (data : Bytes) (key : RsaPublicKey) (pad : Nat → UInt8) (tempKeys : List (Arr 32)) :
    Except Exn Bytes := do
  if data.length > rsaPadDataLimit then throw (.invalidArgument "RSA_PAD: data longer than 144 bytes")
  rsaPadLoop P (dataWithPadding data pad) key tempKeys

/-- `RsaUnpad`. -/
def rsaUnpad (P : Primitives) (data : Bytes) (key : RsaPrivateKey) : Except Exn Bytes := do
  let encryptedData ← key.decryptRaw data
  let aesEncrypted := encryptedData.drop tempKeySize
  let tempKey := xorBytes (encryptedData.take tempKeySize) (P.sha256 aesEncrypted).toList
  let dataWithHash ← igeDecrypt P tempKey zeroIv32 aesEncrypted
  let padded := (dataWithHash.take dataWithPaddingLen).reverse
  if dataWithHash.drop dataWithPaddingLen ≠ (P.sha256 (tempKey ++ padded)).toList then
    throw (.runtimeError "RSA_PAD: hash mismatch (wrong key or corrupted data)")
  return padded

/-! ## Reading back what was padded -/

theorem ofLE_append : ∀ a b : Bytes, ofLE (a ++ b) = ofLE a + 256 ^ a.length * ofLE b
  | [], b => by simp [ofLE]
  | x :: xs, b => by
    rw [List.cons_append, ofLE, ofLE_append xs b, ofLE, List.length_cons, Nat.pow_succ]
    ring

theorem ofBE_cons (x : UInt8) (xs : Bytes) : ofBE (x :: xs) = 256 ^ xs.length * x.toNat + ofBE xs := by
  rw [ofBE, List.reverse_cons, ofLE_append, List.length_reverse, ofBE]
  simp only [ofLE]
  ring

/-- Comparing from the highest byte compares the numbers. -/
theorem greaterOrEqualLoop_iff : ∀ {a b : Bytes}, a.length = b.length →
    (greaterOrEqualLoop a b = true ↔ ofBE b ≤ ofBE a)
  | [], [], _ => by simp [greaterOrEqualLoop]
  | x :: xs, y :: ys, h => by
    have hlen : xs.length = ys.length := by simpa using h
    have hx := ofBE_lt xs
    have hy := ofBE_lt ys
    rw [ofBE_cons, ofBE_cons, greaterOrEqualLoop, hlen]
    rw [hlen] at hx
    -- The first bytes that differ decide, since what is behind them is below one unit of their place.
    by_cases hxy : x = y
    case pos =>
      subst hxy
      rw [if_neg (fun h => h rfl), greaterOrEqualLoop_iff hlen]
      omega
    case neg =>
      rw [if_pos hxy, decide_eq_true_eq, gt_iff_lt, UInt8.lt_iff_toNat_lt]
      have hne : x.toNat ≠ y.toNat := fun h => hxy (UInt8.toNat_inj.mp h)
      generalize 256 ^ ys.length = k at hx hy ⊢
      constructor
      · intro hlt
        have : k * (y.toNat + 1) ≤ k * x.toNat := Nat.mul_le_mul_left k hlt
        rw [Nat.mul_add] at this
        omega
      · intro hle
        by_contra hge
        have : k * (x.toNat + 1) ≤ k * y.toNat := Nat.mul_le_mul_left k (by omega)
        rw [Nat.mul_add] at this
        omega

theorem length_dataWithPadding {data : Bytes} (h : data.length ≤ dataWithPaddingLen) (pad : Nat → UInt8) :
    (dataWithPadding data pad).length = dataWithPaddingLen := by
  simp only [dataWithPadding, List.length_append, List.length_map, List.length_range]
  omega

/-- The 224 bytes under the temporary key. -/
def hashedData (P : Primitives) (padded : Bytes) (tempKey : Arr 32) : Bytes :=
  padded.reverse ++ (P.sha256 (tempKey.toList ++ padded)).toList

section Unpad

variable {P : Primitives} {padded : Bytes} (hlen : padded.length = dataWithPaddingLen) (tempKey : Arr 32)

include hlen

theorem length_hashedData : (hashedData P padded tempKey).length = 224 := by
  simp only [hashedData, List.length_append, List.length_reverse, hlen, Arr.length_toList]
  rfl

theorem igeArgs_hashedData : IgeArgs tempKey.toList zeroIv32 (hashedData P padded tempKey) where
  key := .inr (.inr tempKey.length_eq)
  iv := List.length_replicate
  data := ⟨14, length_hashedData hlen tempKey⟩

/-- A round of `RsaPad` runs, and gives 256 bytes. -/
theorem keyAesEncrypted_eq_ok :
    let aesEncrypted := encryptBlocks P tempKey.toList zeroIv32 (hashedData P padded tempKey)
    keyAesEncrypted P padded tempKey =
        .ok (xorBytes tempKey.toList (P.sha256 aesEncrypted).toList ++ aesEncrypted) ∧
      (xorBytes tempKey.toList (P.sha256 aesEncrypted).toList).length = 32 ∧ aesEncrypted.length = 224 := by
  have hargs := igeArgs_hashedData (P := P) hlen tempKey
  refine ⟨?_, ?_, ?_⟩
  · show (igeEncrypt P tempKey.toList zeroIv32 (hashedData P padded tempKey) >>= _) = _
    rw [igeEncrypt_eq_ok hargs]
    rfl
  · simp only [xorBytes, List.length_zipWith, Arr.length_toList, Nat.min_self]
  · rw [length_encryptBlocks hargs.data, length_hashedData hlen]

/-- The steps of `RsaUnpad` after the decryption undo a round of `RsaPad`. -/
theorem rsaUnpad_of_decryptRaw {key : RsaPrivateKey} {enc candidate : Bytes}
    (hround : keyAesEncrypted P padded tempKey = .ok candidate) (hdec : key.decryptRaw enc = .ok candidate) :
    rsaUnpad P enc key = .ok padded := by
  obtain ⟨hok, hxor, -⟩ := keyAesEncrypted_eq_ok (P := P) hlen tempKey
  have hargs := igeArgs_hashedData (P := P) hlen tempKey
  generalize haes : encryptBlocks P tempKey.toList zeroIv32 (hashedData P padded tempKey) = aes at hok hxor
  have hcand : candidate = xorBytes tempKey.toList (P.sha256 aes).toList ++ aes := by
    rw [hok] at hround
    cases hround
    rfl
  have hkey : xorBytes (xorBytes tempKey.toList (P.sha256 aes).toList) (P.sha256 aes).toList = tempKey.toList :=
    zipWith_xor_cancel (by rw [Arr.length_toList, Arr.length_toList])
  have hplain : igeDecrypt P tempKey.toList zeroIv32 aes = .ok (hashedData P padded tempKey) := by
    rw [← haes]
    exact igeDecrypt_encryptBlocks hargs
  have hrev : padded.reverse.length = dataWithPaddingLen := by rw [List.length_reverse, hlen]
  have htake : (hashedData P padded tempKey).take dataWithPaddingLen = padded.reverse := List.take_left' hrev
  have hdrop : (hashedData P padded tempKey).drop dataWithPaddingLen = (P.sha256 (tempKey.toList ++ padded)).toList :=
    List.drop_left' hrev
  have htk : tempKeySize = (xorBytes tempKey.toList (P.sha256 aes).toList).length := hxor.symm
  rw [rsaUnpad, hdec, hcand]
  simp only [ok_bind, htk, List.take_left, List.drop_left, hkey, hplain, htake, hdrop, List.reverse_reverse]
  rw [if_neg (fun h => h rfl)]
  rfl

end Unpad

/-! ## The value that is encrypted -/

/-- The value of the first round whose candidate is not rejected. -/
def rsaPadValue (P : Primitives) (padded : Bytes) (key : RsaPublicKey) : List (Arr 32) → Except Exn Bytes
  | [] => throw .randomExhausted
  | tempKey :: rest => do
    let candidate ← keyAesEncrypted P padded tempKey
    if ← greaterOrEqual candidate key.n then rsaPadValue P padded key rest else return candidate

/-- `RsaPad` finds a value and hands it to raw RSA. -/
theorem rsaPadLoop_eq (P : Primitives) (padded : Bytes) (key : RsaPublicKey) (tempKeys : List (Arr 32)) :
    rsaPadLoop P padded key tempKeys = rsaPadValue P padded key tempKeys >>= key.encryptRaw := by
  induction tempKeys with
  | nil => rfl
  | cons tempKey rest ih =>
    rw [rsaPadLoop, rsaPadValue, ih]
    cases keyAesEncrypted P padded tempKey with
    | error e => rfl
    | ok candidate =>
      show (greaterOrEqual candidate key.n >>= _) = (greaterOrEqual candidate key.n >>= _) >>= _
      cases greaterOrEqual candidate key.n with
      | error e => rfl
      | ok ge => cases ge <;> rfl

section Value

variable {P : Primitives} {padded : Bytes} (hlen : padded.length = dataWithPaddingLen) {key : RsaPublicKey}
  (hn : key.n.length = rsaByteLen)

include hlen hn

/-- What one temporary key does: its candidate is taken below the modulus and rejected otherwise. -/
theorem rsaPadValue_cons (tempKey : Arr 32) (rest : List (Arr 32)) :
    ∃ candidate, keyAesEncrypted P padded tempKey = .ok candidate ∧ candidate.length = rsaByteLen ∧
      rsaPadValue P padded key (tempKey :: rest) =
        if bytesToBignum candidate < bytesToBignum key.n then .ok candidate else rsaPadValue P padded key rest := by
  obtain ⟨hok, hxor, haes⟩ := keyAesEncrypted_eq_ok (P := P) hlen tempKey
  have hclen := congrArg₂ (· + ·) hxor haes
  rw [← List.length_append] at hclen
  refine ⟨_, hok, hclen, ?_⟩
  generalize xorBytes _ _ ++ _ = candidate at hok hclen
  have hsame : candidate.length = key.n.length := hclen.trans hn.symm
  have hge := greaterOrEqualLoop_iff hsame
  rw [rsaPadValue, hok]
  simp only [ok_bind, greaterOrEqual]
  rw [if_neg (not_not.mpr hsame), ok_bind]
  by_cases hlt : bytesToBignum candidate < bytesToBignum key.n
  · rw [if_neg (fun h => Nat.not_le.mpr hlt (hge.mp h)), if_pos hlt]
    rfl
  · rw [if_pos (hge.mpr (Nat.not_lt.mp hlt)), if_neg hlt]

/-- The loop ends at the value of one of its rounds, below the modulus, or runs out of temporary keys. -/
theorem rsaPadValue_cases (tempKeys : List (Arr 32)) :
    rsaPadValue P padded key tempKeys = .error .randomExhausted ∨
      ∃ tempKey ∈ tempKeys, ∃ candidate, keyAesEncrypted P padded tempKey = .ok candidate ∧
        candidate.length = rsaByteLen ∧ bytesToBignum candidate < bytesToBignum key.n ∧
        rsaPadValue P padded key tempKeys = .ok candidate := by
  induction tempKeys with
  | nil => exact .inl rfl
  | cons tempKey rest ih =>
    obtain ⟨candidate, hround, hclen, hvalue⟩ := rsaPadValue_cons (P := P) hlen hn tempKey rest
    by_cases hlt : bytesToBignum candidate < bytesToBignum key.n
    · rw [if_pos hlt] at hvalue
      exact .inr ⟨tempKey, List.mem_cons_self, candidate, hround, hclen, hlt, hvalue⟩
    · rw [if_neg hlt] at hvalue
      rw [hvalue]
      rcases ih with h | ⟨tempKey', hmem, h⟩
      · exact .inl h
      · exact .inr ⟨tempKey', List.mem_cons_of_mem _ hmem, h⟩

end Value

/-- A value is compared with the modulus, so they have the same length. -/
theorem length_modulus_of_rsaPadValue {P : Primitives} {padded : Bytes} (hlen : padded.length = dataWithPaddingLen)
    {key : RsaPublicKey} : ∀ {tempKeys : List (Arr 32)} {value : Bytes},
    rsaPadValue P padded key tempKeys = .ok value → key.n.length = rsaByteLen
  | [], _, h => by cases h
  | tempKey :: rest, value, h => by
    obtain ⟨hok, hxor, haes⟩ := keyAesEncrypted_eq_ok (P := P) hlen tempKey
    have hclen := congrArg₂ (· + ·) hxor haes
    rw [← List.length_append] at hclen
    generalize xorBytes _ _ ++ _ = candidate at hok hclen
    by_contra hne
    rw [rsaPadValue, hok] at h
    simp only [ok_bind, greaterOrEqual] at h
    rw [if_pos (show candidate.length ≠ key.n.length from fun heq => hne (heq.symm.trans hclen))] at h
    cases h

/-- The server reads back what was padded, from the value at which the loop stopped. -/
theorem rsaUnpad_rsaPadValue {P : Primitives} {padded : Bytes} (hlen : padded.length = dataWithPaddingLen)
    {key : RsaPrivateKey} (hkey : key.Inverse) {tempKeys : List (Arr 32)} {value : Bytes}
    (h : rsaPadValue P padded key.publicKey tempKeys = .ok value) :
    bytesToBignum value < bytesToBignum key.n ∧
      ∃ enc, key.publicKey.encryptRaw value = .ok enc ∧ enc.length = rsaByteLen ∧ rsaUnpad P enc key = .ok padded := by
  have hn : key.publicKey.n.length = rsaByteLen := length_modulus_of_rsaPadValue hlen h
  rcases rsaPadValue_cases (P := P) hlen hn tempKeys with hnone | ⟨tempKey, -, candidate, hround, hclen, hlt, hvalue⟩
  · rw [hnone] at h
    cases h
  · rw [hvalue] at h
    cases h
    obtain ⟨enc, henc, hlength, hdec⟩ := decryptRaw_encryptRaw hkey hn hclen hlt
    exact ⟨hlt, enc, henc, hlength, rsaUnpad_of_decryptRaw hlen tempKey hround hdec⟩

theorem length_le_of_rsaPad {P : Primitives} {key : RsaPublicKey} {data enc : Bytes} {pad : Nat → UInt8}
    {tempKeys : List (Arr 32)} (h : rsaPad P data key pad tempKeys = .ok enc) : data.length ≤ rsaPadDataLimit := by
  unfold rsaPad at h
  by_contra hlimit
  rw [if_pos (Nat.not_le.mp hlimit)] at h
  cases h

/-- **The server reads back what the client padded**, for every key whose exponents are inverse. -/
theorem rsaUnpad_rsaPad {P : Primitives} {key : RsaPrivateKey} (hkey : key.Inverse) {data enc : Bytes}
    {pad : Nat → UInt8} {tempKeys : List (Arr 32)} (h : rsaPad P data key.publicKey pad tempKeys = .ok enc) :
    rsaUnpad P enc key = .ok (dataWithPadding data pad) ∧ enc.length = rsaByteLen := by
  have hlimit := length_le_of_rsaPad h
  have hle : data.length ≤ dataWithPaddingLen := Nat.le_trans hlimit (by decide)
  rw [rsaPad, if_neg (Nat.not_lt.mpr hlimit), rsaPadLoop_eq] at h
  obtain ⟨value, hvalue, h⟩ := exists_of_bind_eq_ok h
  obtain ⟨-, enc', henc, hlength, hunpad⟩ := rsaUnpad_rsaPadValue (length_dataWithPadding hle pad) hkey hvalue
  cases henc.symm.trans h
  exact ⟨hunpad, hlength⟩

end ShuzaGram.Mtproto.Crypto

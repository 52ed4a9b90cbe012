import ShuzaGram.Mtproto.Crypto.AesIge
import ShuzaGram.Mtproto.Crypto.Bignum

/-!
# Diffie–Hellman and the exchange answers

The part of `mtproto/crypto/dh.cpp` that the key exchange uses: the check of the generator, the keys
and hashes derived from the nonces, and the envelope of the two encrypted answers, a SHA-1, the data
and up to 15 random bytes.

The reader of an envelope does not know how long the padding is and tries every length. Its main
result is `decryptExchangeAnswer_encryptExchangeAnswer`.
-/

namespace ShuzaGram.Mtproto.Crypto

open Infra

/-! ## The generator -/

def checkSubgroup (p divider : Nat) (expected : List Nat) : Bool := expected.contains (p % divider)

/-- `CheckGP`. -/
def checkGP (g : Int) (p : Bytes) : Except Exn Unit := do
  let p := bytesToBignum p
  let ok ← match g with
    | 2 => pure (checkSubgroup p 8 [7])
    | 3 => pure (checkSubgroup p 3 [2])
    | 4 => pure true
    | 5 => pure (checkSubgroup p 5 [1, 4])
    | 6 => pure (checkSubgroup p 24 [19, 23])
    | 7 => pure (checkSubgroup p 7 [3, 5, 6])
    | _ => throw (.invalidArgument "CheckGP: g must be 2, 3, 4, 5, 6 or 7")
  if !ok then throw (.runtimeError "CheckGP: g is not a quadratic residue mod p")

/-- Both sides raise the other's share to their own exponent, and agree. -/
theorem dh_comm (g a b p : Nat) : (g ^ a % p) ^ b % p = (g ^ b % p) ^ a % p := by
  rw [← Nat.pow_mod, ← Nat.pow_mod, ← Nat.pow_mul, ← Nat.pow_mul, Nat.mul_comm]

/-! ## Keys and hashes of the nonces -/

/-- `TempAesKeys`: the key and the iv. -/
def tempAesKeys (P : Primitives) (newNonce : Arr 32) (serverNonce : Arr 16) : Bytes × Bytes :=
  let nnSn := (P.sha1 (newNonce.toList ++ serverNonce.toList)).toList
  let snNn := (P.sha1 (serverNonce.toList ++ newNonce.toList)).toList
  let nnNn := (P.sha1 (newNonce.toList ++ newNonce.toList)).toList
  (nnSn ++ snNn.take 12, (snNn.drop 12).take 8 ++ nnNn ++ newNonce.toList.take 4)

/-- `ServerSalt`: the exclusive or of the first 8 bytes, read with the lowest first. -/
def serverSalt (newNonce : Arr 32) (serverNonce : Arr 16) : Int64 :=
  (UInt64.ofNat (ofLE (List.zipWith (· ^^^ ·) (newNonce.toList.take 8) (serverNonce.toList.take 8)))).toInt64

/-- `NonceHash1`. -/
def nonceHash1 (P : Primitives) (newNonce : Arr 32) (authKey : Arr 256) : Arr 16 :=
  let keyHash := (P.sha1 authKey.toList).toList
  let digest := (P.sha1 (newNonce.toList ++ [0x01] ++ keyHash.take 8)).toList
  Arr.ofList 16 ((digest.drop 4).take 16)

theorem length_tempAesKeys (P : Primitives) (newNonce : Arr 32) (serverNonce : Arr 16) :
    (tempAesKeys P newNonce serverNonce).1.length = 32 ∧ (tempAesKeys P newNonce serverNonce).2.length = 32 := by
  simp [tempAesKeys]

/-! ## The envelope -/

def shaDigestLength : Nat := 20

/-- `PaddedLen16`. -/
def paddedLen16 (l : Nat) : Nat :=
  let n := 16 * (l / 16)
  if n < l then n + 16 else n

/-- `DataWithHash`; the padding comes from the random source. -/
def dataWithHash (P : Primitives) (data : Bytes) (pad : Nat → UInt8) : Bytes :=
  let size := paddedLen16 (data.length + shaDigestLength)
  (P.sha1 data).toList ++ data ++ (List.range (size - (shaDigestLength + data.length))).map pad

/-- What stands between the hash and `i` bytes of padding. -/
def guessCandidate (dataWithHash : Bytes) (i : Nat) : Bytes :=
  (dataWithHash.take (dataWithHash.length - i)).drop shaDigestLength

/-- `static_cast<int>(data_with_hash.size())`. -/
def sizeAsInt (dataWithHash : Bytes) : Int := (Int32.ofNat dataWithHash.length).toInt

/-- The loop of `GuessDataWithHash`, over the padding lengths that it tries. -/
def guessLoop (P : Primitives) (dataWithHash want : Bytes) : List Nat → Except Exn Bytes
  | [] => .error (.runtimeError "GuessDataWithHash: no padding length matched the stored hash")
  | i :: rest =>
    if sizeAsInt dataWithHash - i < shaDigestLength then
      .error (.runtimeError "GuessDataWithHash: no padding length matched the stored hash")
    else
      let candidate := guessCandidate dataWithHash i
      if (P.sha1 candidate).toList = want then .ok candidate else guessLoop P dataWithHash want rest

/-- `GuessDataWithHash`. -/
def guessDataWithHash (P : Primitives) (dataWithHash : Bytes) : Except Exn Bytes :=
  if dataWithHash.length ≤ shaDigestLength then .error (.runtimeError "GuessDataWithHash: input too small")
  else guessLoop P dataWithHash (dataWithHash.take shaDigestLength) (List.range 16)

/-- `EncryptExchangeAnswer`. -/
def encryptExchangeAnswer (P : Primitives) (answer key iv : Bytes) (pad : Nat → UInt8) : Except Exn Bytes :=
  igeEncrypt P key iv (dataWithHash P answer pad)

/-- `DecryptExchangeAnswer`. -/
def decryptExchangeAnswer (P : Primitives) (data key iv : Bytes) : Except Exn Bytes := do
  let plain ← igeDecrypt P key iv data
  guessDataWithHash P plain

/-! ## Opening an envelope -/

/-- No two of the byte strings that `GuessDataWithHash` would try have the same hash. -/
def NoHashCollision (P : Primitives) (dataWithHash : Bytes) : Prop :=
  ∀ i < 16, ∀ j < 16, shaDigestLength + i ≤ dataWithHash.length → shaDigestLength + j ≤ dataWithHash.length →
    P.sha1 (guessCandidate dataWithHash i) = P.sha1 (guessCandidate dataWithHash j) → i = j

theorem paddedLen16_spec (l : Nat) : l ≤ paddedLen16 l ∧ paddedLen16 l < l + 16 ∧ 16 ∣ paddedLen16 l := by
  unfold paddedLen16
  simp only
  split <;> omega

/-- The number of padding bytes. -/
def padLength (data : Bytes) : Nat := paddedLen16 (data.length + shaDigestLength) - (shaDigestLength + data.length)

theorem padLength_lt (data : Bytes) : padLength data < 16 := by
  have h := paddedLen16_spec (data.length + shaDigestLength)
  unfold padLength
  omega

theorem length_dataWithHash (P : Primitives) (data : Bytes) (pad : Nat → UInt8) :
    (dataWithHash P data pad).length = shaDigestLength + data.length + padLength data := by
  simp only [dataWithHash, List.length_append, Arr.length_toList, List.length_map, List.length_range, padLength,
    shaDigestLength]

theorem sixteen_dvd_length_dataWithHash (P : Primitives) (data : Bytes) (pad : Nat → UInt8) :
    16 ∣ (dataWithHash P data pad).length := by
  have h := paddedLen16_spec (data.length + shaDigestLength)
  have hsize : (dataWithHash P data pad).length = paddedLen16 (data.length + shaDigestLength) := by
    rw [length_dataWithHash, padLength]
    omega
  rw [hsize]
  exact h.2.2

/-- The right padding length gives the data. -/
theorem guessCandidate_padLength (P : Primitives) (data : Bytes) (pad : Nat → UInt8) :
    guessCandidate (dataWithHash P data pad) (padLength data) = data := by
  have htake : (dataWithHash P data pad).take ((dataWithHash P data pad).length - padLength data) =
      (P.sha1 data).toList ++ data := by
    refine List.take_left' ?_
    rw [length_dataWithHash, List.length_append, Arr.length_toList, shaDigestLength]
    omega
  rw [guessCandidate, htake]
  exact List.drop_left' (P.sha1 data).length_eq

theorem sizeAsInt_of_lt {d : Bytes} (h : d.length < 2 ^ 31) : sizeAsInt d = d.length := Int32.toInt_ofNat_of_lt h

/-- The loop reaches the only padding length that fits. -/
theorem guessLoop_eq_ok {P : Primitives} {d want : Bytes} {k : Nat} (hk : (shaDigestLength + k : Int) ≤ sizeAsInt d)
    (hwant : (P.sha1 (guessCandidate d k)).toList = want)
    (honly : ∀ i < k, (P.sha1 (guessCandidate d i)).toList ≠ want) :
    ∀ {start n : Nat}, start ≤ k → k < start + n → guessLoop P d want (List.range' start n) = .ok (guessCandidate d k)
  | _, 0, hle, hlt => absurd hlt (by omega)
  | start, n + 1, hle, hlt => by
    rw [List.range'_succ, guessLoop, if_neg (by omega)]
    by_cases hstart : start = k
    case pos =>
      subst hstart
      exact if_pos hwant
    case neg =>
      simp only
      rw [if_neg (honly start (by omega))]
      exact guessLoop_eq_ok hk hwant honly (by omega) (by omega)

theorem take_dataWithHash (P : Primitives) (data : Bytes) (pad : Nat → UInt8) :
    (dataWithHash P data pad).take shaDigestLength = (P.sha1 data).toList := by
  rw [dataWithHash, List.append_assoc]
  exact List.take_left' (P.sha1 data).length_eq

/-- **An envelope opens to its data** when the loop gets as far as its padding length and no longer candidate has
the same hash. -/
theorem guessDataWithHash_dataWithHash {P : Primitives} {data : Bytes} {pad : Nat → UInt8}
    (hreach : (shaDigestLength + padLength data : Int) ≤ sizeAsInt (dataWithHash P data pad))
    (honly : ∀ i < padLength data, P.sha1 (guessCandidate (dataWithHash P data pad) i) ≠ P.sha1 data) :
    guessDataWithHash P (dataWithHash P data pad) = .ok data := by
  have hlen := length_dataWithHash P data pad
  have hlt := padLength_lt data
  have hpadded := paddedLen16_spec (data.length + shaDigestLength)
  have hcand := guessCandidate_padLength P data pad
  have hlong : ¬(dataWithHash P data pad).length ≤ shaDigestLength := by
    have := sixteen_dvd_length_dataWithHash P data pad
    unfold shaDigestLength at hlen ⊢
    omega
  rw [guessDataWithHash, if_neg hlong, take_dataWithHash, List.range_eq_range',
    guessLoop_eq_ok hreach (by rw [hcand]) (fun i hi h => honly i hi (Arr.ext h)) (Nat.zero_le _) (by omega), hcand]

/-- **The other side reads an encrypted answer back.** -/
theorem decryptExchangeAnswer_encryptExchangeAnswer {P : Primitives} {answer key iv : Bytes} {pad : Nat → UInt8}
    (hkey : key.length = 32) (hiv : iv.length = 32) (hanswer : answer.length < 2 ^ 24)
    (hcoll : NoHashCollision P (dataWithHash P answer pad)) :
    ∃ enc, encryptExchangeAnswer P answer key iv pad = .ok enc ∧ enc.length < answer.length + 36 ∧
      decryptExchangeAnswer P enc key iv = .ok answer := by
  have hargs : IgeArgs key iv (dataWithHash P answer pad) :=
    ⟨.inr (.inr hkey), hiv, sixteen_dvd_length_dataWithHash P answer pad⟩
  have hpad := padLength_lt answer
  refine ⟨_, igeEncrypt_eq_ok hargs, ?_, ?_⟩
  · rw [length_encryptBlocks hargs.data, length_dataWithHash, shaDigestLength]
    omega
  · have hlen := length_dataWithHash P answer pad
    have hsize : (dataWithHash P answer pad).length < 2 ^ 31 := by
      unfold shaDigestLength at hlen
      omega
    rw [decryptExchangeAnswer, igeDecrypt_encryptBlocks hargs]
    refine guessDataWithHash_dataWithHash (by rw [sizeAsInt_of_lt hsize]; omega) ?_
    intro i hi hsame
    have heq := hcoll i (by omega) _ hpad (by omega) (by omega)
      (hsame.trans (congrArg P.sha1 (guessCandidate_padLength P answer pad).symm))
    omega

end ShuzaGram.Mtproto.Crypto

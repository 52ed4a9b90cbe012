import ShuzaGram.Mtproto.ServerExchange

/-!
# SRP

`mtproto/crypto/srp.cpp`. The server side is the challenge that `account.getPassword` hands out and
the proof that `auth.checkPassword` compares against; the client side makes the verifier of a
password and the proof. The prime is the one of the key exchange.
-/

namespace ShuzaGram.Mtproto.Crypto

open Infra

def srpBaseG : Nat := 3

def srpBaseP : Bytes := fixedDhPrime

def srpBaseSalt2 : Bytes :=
  [0xBE, 0xDE, 0x48, 0x88, 0x8C, 0x0F, 0x42, 0xAC, 0x34, 0xFF, 0xD1, 0xD4, 0x93, 0x5D, 0x8B, 0x21]

/-- `GBytes`. -/
def gBytes : Bytes := [UInt8.ofNat srpBaseG]

/-- `SrpPadToHash`: the last 256 bytes, filled up with zeros in front. -/
def srpPadToHash (b : Bytes) : Bytes :=
  if b.length ≥ 256 then b.drop (b.length - 256) else List.replicate (256 - b.length) 0 ++ b

structure SrpChallenge where
  bSecret : Bytes
  b : Bytes
deriving DecidableEq

/-- `SrpMakeChallenge`; the 256 secret bytes come from the random source. -/
def srpMakeChallenge (P : Primitives) (verifier : Bytes) (rand : Arr 256) : Except Exn SrpChallenge := do
  let p := srpBaseP
  if !isGoodLarge verifier p then throw (.runtimeError "srp: verifier out of range")
  let k := (P.sha256 (p ++ srpPadToHash gBytes)).toList
  let kv ← mulMod k verifier p
  let gb ← modPowBytes gBytes rand.toList p
  let value ← addMod kv gb p
  return { bSecret := rand.toList, b := srpPadToHash value }

/-- `SrpCalcM1`: the proof a client with the right password sends. -/
def srpCalcM1 (P : Primitives) (salt1 verifier bSecret srpB clientA : Bytes) : Except Exn Bytes := do
  let p := srpBaseP
  if !isGoodLarge clientA p then throw (.runtimeError "srp: A out of range")
  if !isGoodLarge verifier p then throw (.runtimeError "srp: verifier out of range")
  let aPadded := srpPadToHash clientA
  let bPadded := srpPadToHash srpB
  let u := (P.sha256 (aPadded ++ bPadded)).toList
  if u.all (· = 0) then throw (.runtimeError "srp: u is zero")
  let vPowU ← modPowBytes verifier u p
  let aTimesVPowU ← mulMod clientA vPowU p
  let s ← modPowBytes aTimesVPowU bSecret p
  let k := (P.sha256 (srpPadToHash s)).toList
  let xorHpg := ((P.sha256 p).xor (P.sha256 (srpPadToHash gBytes))).toList
  return (P.sha256 (xorHpg ++ (P.sha256 salt1).toList ++ (P.sha256 srpBaseSalt2).toList ++ aPadded
    ++ bPadded ++ k)).toList

/-! ## The client side -/

/-- `PKCS5_PBKDF2_HMAC` with SHA-512: password, salt, iterations and length of the key. -/
abbrev Pbkdf2 := Bytes → Bytes → Nat → Nat → Bytes

/-- `SaltHash`. -/
def saltHash (P : Primitives) (data salt : Bytes) : Bytes := (P.sha256 (salt ++ data ++ salt)).toList

/-- `Ph1`. -/
def ph1 (P : Primitives) (password salt1 salt2 : Bytes) : Bytes :=
  saltHash P (saltHash P password salt1) salt2

/-- `Ph2`: what takes the place of the password in the exponents. -/
def ph2 (P : Primitives) (pbkdf2HmacSha512 : Pbkdf2) (password salt1 salt2 : Bytes) : Bytes :=
  saltHash P (pbkdf2HmacSha512 (ph1 P password salt1 salt2) salt1 100000 64) salt2

/-- `SrpComputeVerifier`. -/
def srpComputeVerifier (P : Primitives) (pbkdf2HmacSha512 : Pbkdf2) (password salt1 salt2 : Bytes) :
    Except Exn Bytes := do
  let p := srpBaseP
  let x := ph2 P pbkdf2HmacSha512 password salt1 salt2
  return srpPadToHash (← modPowBytes gBytes x p)

structure SrpClientAnswer where
  a : Bytes
  m1 : Bytes
deriving DecidableEq

/-- `SrpClientProof`; `random` is the secret exponent of the client. -/
def srpClientProof (P : Primitives) (pbkdf2HmacSha512 : Pbkdf2) (password salt1 salt2 srpB random : Bytes) :
    Except Exn SrpClientAnswer := do
  let p := srpBaseP
  let gPadded := srpPadToHash gBytes
  let gA := srpPadToHash (← modPowBytes gBytes random p)
  let gB := srpPadToHash srpB
  let u := (P.sha256 (gA ++ gB)).toList
  let x := ph2 P pbkdf2HmacSha512 password salt1 salt2
  let v ← modPowBytes gBytes x p
  let k := (P.sha256 (p ++ gPadded)).toList
  let kv ← mulMod k v p
  let t ← subMod srpB kv p
  let exponent := addBytes random (mulBytes u x)
  let sA := srpPadToHash (← modPowBytes t exponent p)
  let kA := (P.sha256 sA).toList
  let xorHpg := ((P.sha256 p).xor (P.sha256 gPadded)).toList
  return {
    a := gA
    m1 := (P.sha256 (xorHpg ++ (P.sha256 salt1).toList ++ (P.sha256 salt2).toList ++ gA ++ gB ++ kA)).toList }

/-! ## Numbers in 256 bytes -/

theorem bytesToBignum_srpBaseP : bytesToBignum srpBaseP = dhPrimeValue := bytesToBignum_fixedDhPrime

@[simp] theorem length_srpPadToHash (b : Bytes) : (srpPadToHash b).length = 256 := by
  unfold srpPadToHash
  split
  · rw [List.length_drop]
    omega
  · rw [List.length_append, List.length_replicate]
    omega

/-- Padding changes no number that fits. -/
theorem bytesToBignum_srpPadToHash {b : Bytes} (h : b.length ≤ 256) :
    bytesToBignum (srpPadToHash b) = bytesToBignum b := by
  unfold srpPadToHash
  split
  · next hge =>
    have hzero : b.length - 256 = 0 := by omega
    rw [hzero, List.drop_zero]
  · exact ofBE_zeros_append _ b

@[simp] theorem srpPadToHash_srpPadToHash (b : Bytes) : srpPadToHash (srpPadToHash b) = srpPadToHash b := by
  rw [srpPadToHash, length_srpPadToHash]
  simp

/-- A residue of the prime in 256 bytes. -/
def srpResidue (n : Nat) : Bytes := srpPadToHash (bignumToMinimalBytes (n % dhPrimeValue))

@[simp] theorem bytesToBignum_srpResidue (n : Nat) : bytesToBignum (srpResidue n) = n % dhPrimeValue := by
  rw [srpResidue, bytesToBignum_srpPadToHash (length_residue_le n), bytesToBignum_minimal]

@[simp] theorem srpPadToHash_srpResidue (n : Nat) : srpPadToHash (srpResidue n) = srpResidue n :=
  srpPadToHash_srpPadToHash _

theorem srpResidue_congr {m n : Nat} (h : m % dhPrimeValue = n % dhPrimeValue) :
    srpResidue m = srpResidue n := by
  rw [srpResidue, srpResidue, h]

theorem isGoodLarge_srpBaseP (b : Bytes) :
    isGoodLarge b srpBaseP = true ↔ 0 < bytesToBignum b ∧ bytesToBignum b < dhPrimeValue := by
  simp [isGoodLarge, bytesToBignum_srpBaseP, Nat.pos_iff_ne_zero]

/-- Every power of the generator is in range: the generator is a unit modulo the prime. -/
theorem isGoodLarge_srpResidue_pow (e : Nat) : isGoodLarge (srpResidue (srpBaseG ^ e)) srpBaseP = true := by
  have hunit : Nat.Coprime srpBaseG dhPrimeValue := by decide +kernel
  rw [isGoodLarge_srpBaseP, bytesToBignum_srpResidue]
  exact ⟨pow_mod_pos (by decide +kernel) hunit e, Nat.mod_lt _ dhPrimeValue_pos⟩

/-! ## What each side computes -/

variable (P : Primitives) (pbkdf2HmacSha512 : Pbkdf2)

/-- The number `k` of both sides. -/
def srpMultiplier : Nat := bytesToBignum (P.sha256 (srpBaseP ++ srpPadToHash gBytes)).toList

/-- The number `u` of both sides. -/
def srpScrambler (aPadded bPadded : Bytes) : Nat := bytesToBignum (P.sha256 (aPadded ++ bPadded)).toList

/-- The proof that both sides make of a common secret. -/
def srpProof (salt1 salt2 aPadded bPadded secret : Bytes) : Bytes :=
  (P.sha256 (((P.sha256 srpBaseP).xor (P.sha256 (srpPadToHash gBytes))).toList ++ (P.sha256 salt1).toList
    ++ (P.sha256 salt2).toList ++ aPadded ++ bPadded ++ (P.sha256 secret).toList)).toList

theorem modPowBytes_srpBaseP (base exponent : Bytes) :
    modPowBytes base exponent srpBaseP =
      .ok (bignumToMinimalBytes (bytesToBignum base ^ bytesToBignum exponent % dhPrimeValue)) :=
  modPowBytes_fixedDhPrime base exponent

theorem bytesToBignum_gBytes : bytesToBignum gBytes = srpBaseG := by decide

theorem srpComputeVerifier_eq (password salt1 salt2 : Bytes) :
    srpComputeVerifier P pbkdf2HmacSha512 password salt1 salt2 =
      .ok (srpResidue (srpBaseG ^ bytesToBignum (ph2 P pbkdf2HmacSha512 password salt1 salt2))) := by
  simp only [srpComputeVerifier, modPowBytes_srpBaseP, bytesToBignum_gBytes]
  rfl

theorem srpMakeChallenge_eq {verifier : Bytes} (rand : Arr 256) (hgood : isGoodLarge verifier srpBaseP = true) :
    srpMakeChallenge P verifier rand = .ok {
      bSecret := rand.toList
      b := srpResidue (srpMultiplier P * bytesToBignum verifier + srpBaseG ^ bytesToBignum rand.toList) } := by
  simp only [srpMakeChallenge, hgood, Bool.not_true, Bool.false_eq_true, if_false, mulMod, addMod,
    modPowBytes_srpBaseP, bytesToBignum_gBytes, bytesToBignum_srpBaseP, bnMod_eq_ok dhPrimeValue_pos, bind,
    Except.bind, bytesToBignum_minimal, ← Nat.add_mod]
  rfl

theorem srpCalcM1_eq {verifier clientA srpB : Bytes} (salt1 bSecret : Bytes)
    (hgoodA : isGoodLarge clientA srpBaseP = true) (hgood : isGoodLarge verifier srpBaseP = true)
    (hu : (P.sha256 (srpPadToHash clientA ++ srpPadToHash srpB)).toList.all (· = 0) = false) :
    srpCalcM1 P salt1 verifier bSecret srpB clientA =
      .ok (srpProof P salt1 srpBaseSalt2 (srpPadToHash clientA) (srpPadToHash srpB) (srpResidue
        ((bytesToBignum clientA *
          (bytesToBignum verifier ^ srpScrambler P (srpPadToHash clientA) (srpPadToHash srpB) % dhPrimeValue)
            % dhPrimeValue) ^ bytesToBignum bSecret))) := by
  simp only [srpCalcM1, hgood, hgoodA, hu, Bool.not_true, Bool.false_eq_true, if_false, mulMod,
    modPowBytes_srpBaseP, bytesToBignum_srpBaseP, bnMod_eq_ok dhPrimeValue_pos, bind, Except.bind,
    bytesToBignum_minimal]
  rfl

/-- The number `t` of the client: what is left of `B` without the verifier. -/
def srpUnmasked (srpB : Bytes) (v : Nat) : Nat :=
  (((bytesToBignum srpB : Int) - (srpMultiplier P * v % dhPrimeValue : Nat)) % dhPrimeValue).toNat

theorem srpClientProof_eq (password salt1 salt2 srpB random : Bytes) :
    srpClientProof P pbkdf2HmacSha512 password salt1 salt2 srpB random =
      let x := bytesToBignum (ph2 P pbkdf2HmacSha512 password salt1 salt2)
      let a := srpResidue (srpBaseG ^ bytesToBignum random)
      .ok {
        a
        m1 := srpProof P salt1 salt2 a (srpPadToHash srpB) (srpResidue
          (srpUnmasked P srpB (srpBaseG ^ x % dhPrimeValue) ^
            (bytesToBignum random + srpScrambler P a (srpPadToHash srpB) * x))) } := by
  simp only [srpClientProof, mulMod, subMod, addBytes, mulBytes, modPowBytes_srpBaseP, bytesToBignum_gBytes,
    bytesToBignum_srpBaseP, bnMod_eq_ok dhPrimeValue_pos, bind, Except.bind, bytesToBignum_minimal]
  rfl

theorem exists_srpClientProof (password salt1 salt2 srpB random : Bytes) :
    ∃ answer, srpClientProof P pbkdf2HmacSha512 password salt1 salt2 srpB random = .ok answer :=
  ⟨_, srpClientProof_eq P pbkdf2HmacSha512 password salt1 salt2 srpB random⟩

/-! ## Both sides agree -/

theorem srpUnmasked_challenge (v b : Nat) :
    srpUnmasked P (srpResidue (srpMultiplier P * v + srpBaseG ^ b)) v = srpBaseG ^ b % dhPrimeValue := by
  rw [srpUnmasked, bytesToBignum_srpResidue, add_mod_sub_mod, Int.toNat_natCast]

/-- **The server accepts the proof of the right password**, made for the challenge that it holds. -/
theorem srpCalcM1_srpClientProof {password salt1 verifier random : Bytes} {rand : Arr 256}
    {challenge : SrpChallenge} {answer : SrpClientAnswer}
    (hverifier : srpComputeVerifier P pbkdf2HmacSha512 password salt1 srpBaseSalt2 = .ok verifier)
    (hchallenge : srpMakeChallenge P verifier rand = .ok challenge)
    (hanswer : srpClientProof P pbkdf2HmacSha512 password salt1 srpBaseSalt2 challenge.b random = .ok answer)
    (hu : (P.sha256 (answer.a ++ challenge.b)).toList.all (· = 0) = false) :
    srpCalcM1 P salt1 verifier challenge.bSecret challenge.b answer.a = .ok answer.m1 := by
  rw [srpComputeVerifier_eq, Except.ok.injEq] at hverifier
  generalize hx : bytesToBignum (ph2 P pbkdf2HmacSha512 password salt1 srpBaseSalt2) = x at hverifier
  subst hverifier
  have hgood := isGoodLarge_srpResidue_pow x
  rw [srpMakeChallenge_eq P rand hgood, Except.ok.injEq] at hchallenge
  subst hchallenge
  rw [srpClientProof_eq, hx, Except.ok.injEq] at hanswer
  subst hanswer
  rw [srpCalcM1_eq P salt1 _ (isGoodLarge_srpResidue_pow _) hgood (by simpa using hu)]
  simp only [srpPadToHash_srpResidue, bytesToBignum_srpResidue, srpUnmasked_challenge]
  -- the two sides have the same secret by different powers
  rw [srpResidue_congr (pow_mod_agree dhPrimeValue srpBaseG _ _ _ x)]

end ShuzaGram.Mtproto.Crypto

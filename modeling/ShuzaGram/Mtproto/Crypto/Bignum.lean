import ShuzaGram.Errors
import ShuzaGram.Infra.ModPow

/-!
# Big numbers

`mtproto/crypto/bignum_util.hpp`: numbers as big-endian byte strings, over OpenSSL's `BIGNUM`. A
`BIGNUM` is a natural number here; `BN_mod_exp` and its relatives fail on a zero modulus.
-/

namespace ShuzaGram.Mtproto.Crypto

open Infra

/-- `BytesToBignum`. -/
def bytesToBignum (b : Bytes) : Nat := ofBE b

/-- `BignumToMinimalBytes`: no leading zeros, nothing for zero. -/
def bignumToMinimalBytes (n : Nat) : Bytes := toBE (numBytes n) n

/-- `BignumToFixedBytes`. -/
def bignumToFixedBytes (n fixedLen : Nat) : Except Exn Bytes :=
  if numBytes n > fixedLen then
    .error (.runtimeError "value does not fit in the requested fixed length")
  else .ok (toBE fixedLen n)

/-- A modular operation of OpenSSL, which refuses a zero modulus. -/
def bnMod (what : String) (modulus : Nat) (value : Nat) : Except Exn Bytes :=
  if modulus = 0 then .error (.runtimeError what) else .ok (bignumToMinimalBytes value)

/-- `ModPow`. -/
def modPowBytes (base exponent modulus : Bytes) : Except Exn Bytes :=
  bnMod "BN_mod_exp failed" (bytesToBignum modulus)
    (modPow (bytesToBignum base) (bytesToBignum exponent) (bytesToBignum modulus))

/-- `ModPowFixed` of `dh.cpp`, and `ModExp` of `rsa.cpp`. -/
def modPowFixed (base exponent modulus : Bytes) (fixedLen : Nat) : Except Exn Bytes :=
  if bytesToBignum modulus = 0 then .error (.runtimeError "BN_mod_exp failed")
  else
    bignumToFixedBytes (modPow (bytesToBignum base) (bytesToBignum exponent) (bytesToBignum modulus)) fixedLen

/-- `MulMod`. -/
def mulMod (a b modulus : Bytes) : Except Exn Bytes :=
  bnMod "BN_mod_mul failed" (bytesToBignum modulus)
    (bytesToBignum a * bytesToBignum b % bytesToBignum modulus)

/-- `AddMod`. -/
def addMod (a b modulus : Bytes) : Except Exn Bytes :=
  bnMod "BN_mod_add failed" (bytesToBignum modulus)
    ((bytesToBignum a + bytesToBignum b) % bytesToBignum modulus)

/-- `SubMod`; `BN_mod_sub` answers with a residue also where `a` is below `b`. -/
def subMod (a b modulus : Bytes) : Except Exn Bytes :=
  bnMod "BN_mod_sub failed" (bytesToBignum modulus)
    (((bytesToBignum a : Int) - bytesToBignum b) % bytesToBignum modulus).toNat

/-- `Add`. -/
def addBytes (a b : Bytes) : Bytes := bignumToMinimalBytes (bytesToBignum a + bytesToBignum b)

/-- `Mul`. -/
def mulBytes (a b : Bytes) : Bytes := bignumToMinimalBytes (bytesToBignum a * bytesToBignum b)

/-- `IsGoodLarge`: `0 < n < modulus`. -/
def isGoodLarge (n modulus : Bytes) : Bool :=
  bytesToBignum n ≠ 0 && bytesToBignum n < bytesToBignum modulus

/-- A power modulo a number of the fixed length fits. -/
theorem modPowFixed_eq_ok {base exponent modulus : Bytes} {fixedLen : Nat} (hpos : 0 < bytesToBignum modulus)
    (hlen : modulus.length ≤ fixedLen) :
    modPowFixed base exponent modulus fixedLen =
      .ok (toBE fixedLen (bytesToBignum base ^ bytesToBignum exponent % bytesToBignum modulus)) := by
  have hfits : modPow (bytesToBignum base) (bytesToBignum exponent) (bytesToBignum modulus) < 256 ^ fixedLen :=
    calc _ < bytesToBignum modulus := modPow_lt hpos _ _
      _ < 256 ^ modulus.length := ofBE_lt modulus
      _ ≤ 256 ^ fixedLen := Nat.pow_le_pow_right (by decide) hlen
  rw [modPowFixed, if_neg (Nat.ne_of_gt hpos), bignumToFixedBytes,
    if_neg (Nat.not_lt.mpr (numBytes_le_of_lt hfits)), modPow_eq]

theorem bnMod_eq_ok {what : String} {modulus : Nat} (hpos : 0 < modulus) (value : Nat) :
    bnMod what modulus value = .ok (bignumToMinimalBytes value) :=
  if_neg (Nat.ne_of_gt hpos)

@[simp] theorem bytesToBignum_minimal (n : Nat) : bytesToBignum (bignumToMinimalBytes n) = n :=
  ofBE_toBE_of_lt (lt_pow_numBytes n)

end ShuzaGram.Mtproto.Crypto

import ShuzaGram.Mtproto.Crypto.Rsa

/-!
# RSA_PAD

The client draws temporary keys until what it is about to encrypt is below the modulus, and the server
undoes every layer of the padding. Whatever it is sent, what it returns has the length of a padding.
-/

namespace ShuzaGram.Mtproto.Crypto

open Infra

/-! ## What `RsaUnpad` returns -/

theorem length_of_modPowFixed {base exponent modulus out : Bytes} {n : Nat}
    (h : modPowFixed base exponent modulus n = .ok out) : out.length = n := by
  unfold modPowFixed bignumToFixedBytes at h
  split at h
  · cases h
  · split at h
    · cases h
    · cases h
      exact length_toBE _ _

theorem length_of_igeDecrypt {P : Primitives} {key iv data out : Bytes} (h : igeDecrypt P key iv data = .ok out) :
    out.length = data.length := by
  obtain ⟨u, hcheck, h⟩ := exists_of_bind_eq_ok h
  have hdata : data.length % 16 = 0 := by
    by_contra hne
    unfold checkIgeArgs blockSize at hcheck
    by_cases hiv : iv.length ≠ 2 * 16
    · rw [if_pos hiv] at hcheck
      cases hcheck
    · rw [if_neg hiv, if_pos hne] at hcheck
      cases hcheck
  cases h
  exact length_decryptBlocks (Nat.dvd_of_mod_eq_zero hdata)

/-- Whatever the ciphertext, a padding that passes its hash check has 192 bytes. -/
theorem length_of_rsaUnpad {P : Primitives} {key : RsaPrivateKey} {enc out : Bytes}
    (h : rsaUnpad P enc key = .ok out) : out.length = dataWithPaddingLen := by
  obtain ⟨decrypted, hdec, h⟩ := exists_of_bind_eq_ok h
  obtain ⟨dataWithHash, hige, h⟩ := exists_of_bind_eq_ok h
  have hdecrypted : decrypted.length = rsaByteLen := length_of_modPowFixed hdec
  have hhash : dataWithHash.length = 224 := by
    rw [length_of_igeDecrypt hige, List.length_drop, hdecrypted]
    rfl
  dsimp only at h
  split at h
  · cases h
  · cases h
    rw [List.length_reverse, List.length_take, hhash]
    rfl

/-- **RSA_PAD is invertible**, for a modulus of 256 bytes: whenever the loop ends, the server reads back 192
bytes that begin with the data; what `RsaPad` hands to raw RSA is below the modulus; and `RsaUnpad` returns
192 bytes or throws. -/
theorem rsaPad_invertible (P : Primitives) {key : RsaPrivateKey} (hn : key.n.length = rsaByteLen) (hkey : key.Inverse) :
    (∀ (data : Bytes) (pad : Nat → UInt8) (tempKeys : List (Arr 32)), data.length ≤ rsaPadDataLimit →
      (rsaPad P data key.publicKey pad tempKeys =
          rsaPadValue P (dataWithPadding data pad) key.publicKey tempKeys >>= key.publicKey.encryptRaw ∧
        ∀ value, rsaPadValue P (dataWithPadding data pad) key.publicKey tempKeys = .ok value →
          bytesToBignum value < bytesToBignum key.n) ∧
      (rsaPad P data key.publicKey pad tempKeys ≠ .error .randomExhausted →
        ∃ enc unpadded, rsaPad P data key.publicKey pad tempKeys = .ok enc ∧ rsaUnpad P enc key = .ok unpadded ∧
          unpadded.length = dataWithPaddingLen ∧ data <+: unpadded)) ∧
    ∀ enc out : Bytes, enc.length ≤ rsaByteLen → rsaUnpad P enc key = .ok out → out.length = dataWithPaddingLen := by
  refine ⟨?_, fun enc out _ h => length_of_rsaUnpad h⟩
  intro data pad tempKeys hdata
  have hle : data.length ≤ dataWithPaddingLen := Nat.le_trans hdata (by decide)
  have hpadded := length_dataWithPadding hle pad
  have hloop : rsaPad P data key.publicKey pad tempKeys =
      rsaPadValue P (dataWithPadding data pad) key.publicKey tempKeys >>= key.publicKey.encryptRaw := by
    rw [rsaPad, if_neg (Nat.not_lt.mpr hdata)]
    exact rsaPadLoop_eq P _ _ _
  have hread := fun value (h : rsaPadValue P (dataWithPadding data pad) key.publicKey tempKeys = .ok value) =>
    rsaUnpad_rsaPadValue hpadded hkey h
  refine ⟨⟨hloop, fun value hvalue => (hread value hvalue).1⟩, fun hends => ?_⟩
  rcases rsaPadValue_cases (P := P) hpadded (show key.publicKey.n.length = rsaByteLen from hn) tempKeys with
    hnone | ⟨-, -, value, -, -, -, hvalue⟩
  · rw [hloop, hnone] at hends
    exact absurd rfl hends
  · obtain ⟨-, enc, henc, -, hunpad⟩ := hread value hvalue
    refine ⟨enc, dataWithPadding data pad, ?_, hunpad, hpadded, List.prefix_append _ _⟩
    rw [hloop, hvalue]
    exact henc

/-- A key whose exponents are both one. -/
def trivialRsaKey : RsaPrivateKey := { n := 0x80 :: List.replicate 255 0, e := [1], d := [1] }

/-- The first temporary key is rejected and the second taken. -/
def twoTempKeys : List (Arr 32) := [⟨List.replicate 32 0xff, by decide⟩, Arr.zero 32]

theorem rsaPad_invertible_secondKey :
    ∃ enc unpadded, rsaPad keyedPrimitives [1, 2, 3] trivialRsaKey.publicKey (fun _ => 9) twoTempKeys = .ok enc ∧
      rsaUnpad keyedPrimitives enc trivialRsaKey = .ok unpadded ∧ unpadded.length = dataWithPaddingLen ∧
      [1, 2, 3] <+: unpadded := by
  have hkey : trivialRsaKey.Inverse := by
    intro m hm
    have he : bytesToBignum trivialRsaKey.e = 1 := by decide
    have hd : bytesToBignum trivialRsaKey.d = 1 := by decide
    rw [he, hd, Nat.pow_one, Nat.pow_one, Nat.mod_mod, Nat.mod_eq_of_lt hm]
  have hn : trivialRsaKey.n.length = rsaByteLen := by
    simp only [trivialRsaKey, List.length_cons, List.length_replicate, rsaByteLen]
  exact ((rsaPad_invertible keyedPrimitives hn hkey).1 [1, 2, 3] (fun _ => 9) twoTempKeys (by decide)).2
    (by decide +kernel)

end ShuzaGram.Mtproto.Crypto

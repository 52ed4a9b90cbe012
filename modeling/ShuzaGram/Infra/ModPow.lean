import ShuzaGram.Infra.Bytes

/-!
# Modular powers

Square-and-multiply, so that powers with long exponents can be computed, and its meaning.
-/

namespace ShuzaGram.Infra

/-- Square-and-multiply over the low `n` bits of the exponent. -/
def powModBits (m : Nat) : Nat → Nat → Nat → Nat
  | 0, _, _ => 1 % m
  | n + 1, b, e =>
    let rest := powModBits m n (b * b % m) (e / 2)
    if e % 2 = 1 then b * rest % m else rest

/-- `b ^ e % m`. -/
def modPow (b e m : Nat) : Nat := powModBits m (numBits e) b e

theorem powModBits_eq (m : Nat) : ∀ (n b e : Nat), e < 2 ^ n → powModBits m n b e = b ^ e % m
  | 0, b, e, h => by
    have he : e = 0 := by simpa using h
    rw [he, powModBits, Nat.pow_zero]
  | n + 1, b, e, h => by
    have hhalf : e / 2 < 2 ^ n := by rw [Nat.pow_succ] at h; omega
    have ih := powModBits_eq m n (b * b % m) (e / 2) hhalf
    have hsq : (b * b % m) ^ (e / 2) % m = b ^ (2 * (e / 2)) % m := by
      rw [← Nat.pow_mod, Nat.pow_mul, Nat.pow_two]
    rw [powModBits]
    rw [ih, hsq]
    split
    · next hodd =>
      have he : (2 * (e / 2)).succ = e := by omega
      rw [Nat.mul_mod, Nat.mod_mod, ← Nat.mul_mod, ← Nat.pow_succ', he]
    · next heven =>
      have he : 2 * (e / 2) = e := by omega
      rw [he]

theorem modPow_eq (b e m : Nat) : modPow b e m = b ^ e % m :=
  powModBits_eq m _ b e (lt_two_pow_numBits e)

theorem modPow_lt {m : Nat} (h : 0 < m) (b e : Nat) : modPow b e m < m := by
  rw [modPow_eq]
  exact Nat.mod_lt _ h

/-! ## Two ways to one power -/

/-- One side knows `b`, the other `a` and `x`: from `g ^ a` and `g ^ x`, or from `g ^ b`, both get
`g ^ (b * (a + u * x))`. -/
theorem pow_mod_agree (m g a b u x : Nat) :
    (g ^ a % m * ((g ^ x % m) ^ u % m) % m) ^ b % m = (g ^ b % m) ^ (a + u * x) % m := by
  have hleft : g ^ a % m * ((g ^ x % m) ^ u % m) % m = g ^ (a + u * x) % m := by
    rw [← Nat.pow_mod, ← Nat.mul_mod, ← Nat.pow_mul, ← Nat.pow_add, Nat.mul_comm x u]
  rw [hleft, ← Nat.pow_mod, ← Nat.pow_mod, ← Nat.pow_mul, ← Nat.pow_mul, Nat.mul_comm b]

/-- What was added modulo `m` can be taken away again, also where the sum wrapped around. -/
theorem add_mod_sub_mod (m c t : Nat) :
    ((((c + t) % m : Nat) : Int) - (c % m : Nat)) % m = (t % m : Nat) := by
  have hcancel : (c : Int) + t - c = t := by omega
  rw [Int.natCast_emod, Int.natCast_emod, ← Int.sub_emod, Int.natCast_add, hcancel, Int.natCast_emod]

/-- A power of a unit is not zero. -/
theorem pow_mod_pos {g m : Nat} (hm : 1 < m) (hg : Nat.Coprime g m) (e : Nat) : 0 < g ^ e % m := by
  apply Nat.pos_of_ne_zero
  intro hzero
  have hdvd : m ∣ g ^ e := Nat.dvd_of_mod_eq_zero hzero
  have hunit : m ∣ 1 := Nat.Coprime.dvd_of_dvd_mul_right (Nat.Coprime.pow_right e hg.symm) (by simpa using hdvd)
  exact absurd (Nat.le_of_dvd Nat.one_pos hunit) (Nat.not_le.mpr hm)

end ShuzaGram.Infra

import Mathlib.NumberTheory.LegendreSymbol.QuadraticReciprocity

/-!
# Small quadratic residues

Which of the numbers from 2 to 7 are squares modulo a prime `p`, read off the residue of `p` to a small
modulus, where `p` leaves 3 modulo 4. For a safe prime, the squares other than 1 are the generators of the
subgroup of prime order.

* `isSquare_two_iff`, `isSquare_three_iff`, `isSquare_five_iff`, `isSquare_six_iff`, `isSquare_seven_iff`
* `orderOf_eq_iff_isSquare` — safe primes
-/

namespace ShuzaGram.Infra.Residues

/-- A product is a square when both factors are, or neither. -/
theorem isSquare_mul_iff {F : Type} [Field F] [Fintype F] [DecidableEq F] {a b : F} (ha : a ≠ 0) (hb : b ≠ 0) :
    IsSquare (a * b) ↔ (IsSquare a ↔ IsSquare b) := by
  rw [← quadraticChar_one_iff_isSquare ha, ← quadraticChar_one_iff_isSquare hb,
    ← quadraticChar_one_iff_isSquare (mul_ne_zero ha hb), map_mul]
  rcases quadraticChar_dichotomy ha with ha | ha <;> rcases quadraticChar_dichotomy hb with hb | hb <;>
    simp [ha, hb]

/-- Whether a number is a square modulo `m` depends on its residue. -/
theorem isSquare_natCast_iff (m n : ℕ) : IsSquare (n : ZMod m) ↔ IsSquare ((n % m : ℕ) : ZMod m) := by
  rw [ZMod.natCast_mod]

section ThreeModFour

variable {p : ℕ} [Fact p.Prime]

/-- A number below a prime is not 0 modulo it. -/
theorem natCast_ne_zero {g : ℕ} (hpos : 0 < g) (hlt : g < p) : (g : ZMod p) ≠ 0 := by
  rw [Ne, ZMod.natCast_eq_zero_iff]
  exact Nat.not_dvd_of_pos_of_lt hpos hlt

theorem isSquare_two_iff (h4 : p % 4 = 3) : IsSquare ((2 : ℕ) : ZMod p) ↔ p % 8 = 7 := by
  rw [Nat.cast_ofNat, ZMod.exists_sq_eq_two_iff (by rintro rfl; omega)]
  omega

theorem isSquare_three_iff (hp : 3 < p) (h4 : p % 4 = 3) : IsSquare ((3 : ℕ) : ZMod p) ↔ p % 3 = 2 := by
  have htable : ∀ r < 3, r ≠ 0 → (¬ IsSquare ((r : ℕ) : ZMod 3) ↔ r = 2) := by decide
  have : Fact (Nat.Prime 3) := ⟨Nat.prime_three⟩
  have hne : p % 3 ≠ 0 := by
    rw [Ne, ← Nat.dvd_iff_mod_eq_zero, Nat.prime_dvd_prime_iff_eq Nat.prime_three Fact.out]
    omega
  rw [ZMod.exists_sq_eq_prime_iff_of_mod_four_eq_three h4 rfl (by omega), isSquare_natCast_iff]
  exact htable (p % 3) (Nat.mod_lt p (by decide)) hne

theorem isSquare_five_iff (hp : 5 < p) : IsSquare ((5 : ℕ) : ZMod p) ↔ p % 5 = 1 ∨ p % 5 = 4 := by
  have htable : ∀ r < 5, r ≠ 0 → (IsSquare ((r : ℕ) : ZMod 5) ↔ r = 1 ∨ r = 4) := by decide
  have : Fact (Nat.Prime 5) := ⟨Nat.prime_five⟩
  have hne : p % 5 ≠ 0 := by
    rw [Ne, ← Nat.dvd_iff_mod_eq_zero, Nat.prime_dvd_prime_iff_eq Nat.prime_five Fact.out]
    omega
  rw [← ZMod.exists_sq_eq_prime_iff_of_mod_four_eq_one rfl (by omega : p ≠ 2), isSquare_natCast_iff]
  exact htable (p % 5) (Nat.mod_lt p (by decide)) hne

theorem isSquare_seven_iff (hp : 7 < p) (h4 : p % 4 = 3) :
    IsSquare ((7 : ℕ) : ZMod p) ↔ p % 7 = 3 ∨ p % 7 = 5 ∨ p % 7 = 6 := by
  have htable : ∀ r < 7, r ≠ 0 → (¬ IsSquare ((r : ℕ) : ZMod 7) ↔ r = 3 ∨ r = 5 ∨ r = 6) := by decide
  have : Fact (Nat.Prime 7) := ⟨by decide⟩
  have hne : p % 7 ≠ 0 := by
    rw [Ne, ← Nat.dvd_iff_mod_eq_zero, Nat.prime_dvd_prime_iff_eq (by decide) Fact.out]
    omega
  rw [ZMod.exists_sq_eq_prime_iff_of_mod_four_eq_three h4 rfl (by omega), isSquare_natCast_iff]
  exact htable (p % 7) (Nat.mod_lt p (by decide)) hne

/-- 2 and 3 are both squares, or both not. -/
theorem isSquare_six_iff (hp : 3 < p) (h4 : p % 4 = 3) :
    IsSquare ((6 : ℕ) : ZMod p) ↔ p % 24 = 19 ∨ p % 24 = 23 := by
  have hne : p % 3 ≠ 0 := by
    rw [Ne, ← Nat.dvd_iff_mod_eq_zero, Nat.prime_dvd_prime_iff_eq Nat.prime_three Fact.out]
    omega
  rw [show 6 = 2 * 3 from rfl, Nat.cast_mul,
    isSquare_mul_iff (natCast_ne_zero (by decide) (by omega)) (natCast_ne_zero (by decide) (by omega)),
    isSquare_two_iff h4, isSquare_three_iff hp h4]
  omega

end ThreeModFour

/-! ## Safe primes -/

/-- Modulo a safe prime `2 * q + 1`, the squares other than 0 and 1 are the elements of order `q`. -/
theorem orderOf_eq_iff_isSquare {p q : ℕ} [Fact p.Prime] [hq : Fact q.Prime] (hsafe : p = 2 * q + 1) {a : ZMod p}
    (hzero : a ≠ 0) (hone : a ≠ 1) : orderOf a = q ↔ IsSquare a := by
  have hhalf : p / 2 = q := by omega
  rw [ZMod.euler_criterion p hzero, hhalf]
  constructor
  · intro horder
    rw [← horder, pow_orderOf_eq_one]
  · intro hpow
    exact orderOf_eq_prime hpow hone

end ShuzaGram.Infra.Residues

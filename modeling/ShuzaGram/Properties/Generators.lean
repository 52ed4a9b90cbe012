import ShuzaGram.Infra.Residues
import ShuzaGram.Mtproto.Crypto.Dh

/-!
# Generators

`CheckGP` reads the residue of the prime to a small modulus off a table, one for each generator. The tables
are those of quadratic reciprocity for primes that leave 3 modulo 4, as safe primes do.
-/

namespace ShuzaGram.Mtproto.Crypto

open Infra Infra.Residues

/-- The table of a generator. -/
def generatorTable (p : Nat) : Nat → Bool
  | 2 => checkSubgroup p 8 [7]
  | 3 => checkSubgroup p 3 [2]
  | 4 => true
  | 5 => checkSubgroup p 5 [1, 4]
  | 6 => checkSubgroup p 24 [19, 23]
  | 7 => checkSubgroup p 7 [3, 5, 6]
  | _ => false

theorem checkSubgroup_iff {p divider : Nat} {expected : List Nat} :
    checkSubgroup p divider expected = true ↔ p % divider ∈ expected := by
  rw [checkSubgroup, List.contains_iff_mem]

/-- The check passes where the table says so. -/
theorem checkGP_eq_ok_iff {g : Nat} (hlo : 2 ≤ g) (hhi : g ≤ 7) (p : Bytes) :
    checkGP g p = .ok () ↔ generatorTable (bytesToBignum p) g = true := by
  have hdecide : ∀ ok : Bool, (do
      let b ← pure ok
      if !b then throw (.runtimeError "CheckGP: g is not a quadratic residue mod p") : Except Exn Unit) = .ok () ↔
      ok = true := by
    intro ok
    cases ok with
    | false =>
      constructor <;> intro h <;> cases h
    | true => exact ⟨fun _ => rfl, fun _ => rfl⟩
  obtain rfl | rfl | rfl | rfl | rfl | rfl : g = 2 ∨ g = 3 ∨ g = 4 ∨ g = 5 ∨ g = 6 ∨ g = 7 := by omega
  all_goals exact hdecide _

/-- The tables are those of the squares. -/
theorem generatorTable_iff_isSquare {p g : Nat} [Fact p.Prime] (hp : 7 < p) (h4 : p % 4 = 3) (hlo : 2 ≤ g)
    (hhi : g ≤ 7) :
    generatorTable p g = true ↔ IsSquare ((g : ℕ) : ZMod p) := by
  obtain rfl | rfl | rfl | rfl | rfl | rfl : g = 2 ∨ g = 3 ∨ g = 4 ∨ g = 5 ∨ g = 6 ∨ g = 7 := by omega
  · rw [generatorTable, checkSubgroup_iff, List.mem_singleton, isSquare_two_iff h4]
  · rw [generatorTable, checkSubgroup_iff, List.mem_singleton, isSquare_three_iff (by omega) h4]
  · have hfour : ((4 : ℕ) : ZMod p) = 2 * 2 := by norm_num
    exact ⟨fun _ => ⟨2, hfour⟩, fun _ => rfl⟩
  · rw [generatorTable, checkSubgroup_iff, isSquare_five_iff (by omega)]
    simp
  · rw [generatorTable, checkSubgroup_iff, isSquare_six_iff (by omega) h4]
    simp
  · rw [generatorTable, checkSubgroup_iff, isSquare_seven_iff hp h4]
    simp

/-- **The check accepts the squares,** for every prime above 7 that leaves 3 modulo 4; for a safe prime
`2 * q + 1` with an odd `q` these are the generators of the subgroup of order `q`. -/
theorem checkGP_iff_isSquare (p : Bytes) (hprime : (bytesToBignum p).Prime) (hlarge : 7 < bytesToBignum p) (g : Int)
    (hlo : 2 ≤ g) (hhi : g ≤ 7) :
    (bytesToBignum p % 4 = 3 → (checkGP g p = .ok () ↔ IsSquare (g : ZMod (bytesToBignum p)))) ∧
      ∀ q : Nat, q.Prime → q ≠ 2 → bytesToBignum p = 2 * q + 1 →
        (checkGP g p = .ok () ↔ orderOf (g : ZMod (bytesToBignum p)) = q) := by
  have hfact : Fact (bytesToBignum p).Prime := ⟨hprime⟩
  obtain ⟨n, rfl⟩ : ∃ n : Nat, g = n := Int.eq_ofNat_of_zero_le (by omega)
  have hlo' : 2 ≤ n := by omega
  have hhi' : n ≤ 7 := by omega
  have hsquare : bytesToBignum p % 4 = 3 →
      (checkGP n p = .ok () ↔ IsSquare ((n : Int) : ZMod (bytesToBignum p))) := by
    intro h4
    rw [checkGP_eq_ok_iff hlo' hhi', generatorTable_iff_isSquare hlarge h4 hlo' hhi', Int.cast_natCast]
  refine ⟨hsquare, fun q hq hodd hsafe => ?_⟩
  have hqfact : Fact q.Prime := ⟨hq⟩
  have hq2 : q % 2 = 1 := hq.eq_two_or_odd.resolve_left hodd
  have hzero : (n : ZMod (bytesToBignum p)) ≠ 0 := natCast_ne_zero (by omega) (by omega)
  have hone : (n : ZMod (bytesToBignum p)) ≠ 1 := by
    intro h
    have hsub : ((n - 1 : ℕ) : ZMod (bytesToBignum p)) = 0 := by
      rw [Nat.cast_sub (by omega), h, Nat.cast_one, sub_self]
    exact natCast_ne_zero (by omega) (by omega) hsub
  rw [hsquare (by omega), Int.cast_natCast, orderOf_eq_iff_isSquare hsafe hzero hone]

/-- 3 generates the subgroup of order 5 modulo 11. -/
theorem checkGP_iff_isSquare_eleven :
    IsSquare ((3 : Int) : ZMod (bytesToBignum [11])) ∧ orderOf ((3 : Int) : ZMod (bytesToBignum [11])) = 5 := by
  have hprime : (bytesToBignum [11]).Prime := by
    show Nat.Prime 11
    decide
  obtain ⟨hsquare, horder⟩ := checkGP_iff_isSquare [11] hprime (by decide) 3 (by decide) (by decide)
  exact ⟨(hsquare rfl).mp rfl, (horder 5 Nat.prime_five (by decide) rfl).mp rfl⟩

end ShuzaGram.Mtproto.Crypto

import ShuzaGram.Mtproto.ServerExchange

/-!
# The checks on a share

`CheckDHParams` of `mtproto/crypto/dh.cpp`: what a client checks before it uses the share of the server and
sends its own. `GenerateGa` has the same bounds for the share of the server.
-/

namespace ShuzaGram.Mtproto

open Infra Crypto

/-- `InRange`; the bounds are signed, as `BN_sub` computes them. -/
def inRange (x : Nat) (lo hi : Int) : Bool := lo < x && (x : Int) < hi

/-- `CheckDHParams`. -/
def checkDHParams (dhPrime : Bytes) (g : Int32) (gA gB : Bytes) : Except Exn Unit := do
  let p : Int := bytesToBignum dhPrime
  let ga := bytesToBignum gA
  let gb := bytesToBignum gB
  -- `BN_set_word` takes the generator as an unsigned word
  if !inRange g.toInt64.toUInt64.toNat 1 (p - 1) then
    throw (.runtimeError "CheckDHParams: bad g, g must be 1 < g < dh_prime - 1")
  if !inRange ga 1 (p - 1) then
    throw (.runtimeError "CheckDHParams: bad g_a, g_a must be 1 < g_a < dh_prime - 1")
  if !inRange gb 1 (p - 1) then
    throw (.runtimeError "CheckDHParams: bad g_b, g_b must be 1 < g_b < dh_prime - 1")
  let safetyMin : Int := 2 ^ (rsaKeyBits - 64)
  let safetyMax := p - safetyMin
  if !inRange ga safetyMin safetyMax then
    throw (.runtimeError "CheckDHParams: bad g_a, out of the recommended safety range")
  if !inRange gb safetyMin safetyMax then
    throw (.runtimeError "CheckDHParams: bad g_b, out of the recommended safety range")

/-- In the range that `CheckDHParams` recommends. -/
def SafeShare (p share : Nat) : Prop := 2 ^ (rsaKeyBits - 64) < share ∧ share + 2 ^ (rsaKeyBits - 64) < p

variable {p x : Nat} {lo hi : Int} {dhPrime gA gB : Bytes} {g : Int32}

theorem inRange_iff : inRange x lo hi = true ↔ lo < x ∧ (x : Int) < hi := by
  rw [inRange, Bool.and_eq_true, decide_eq_true_eq, decide_eq_true_eq]

theorem safetyMin_eq : (2 : Int) ^ (rsaKeyBits - 64) = ((2 ^ (rsaKeyBits - 64) : Nat) : Int) := by
  rw [Nat.cast_pow, Nat.cast_ofNat]

theorem inRange_safety_iff :
    inRange x (2 ^ (rsaKeyBits - 64)) ((p : Int) - 2 ^ (rsaKeyBits - 64)) = true ↔ SafeShare p x := by
  rw [inRange_iff, SafeShare, safetyMin_eq]
  generalize 2 ^ (rsaKeyBits - 64) = bound
  omega

/-- The first range is wider than the recommended one. -/
theorem SafeShare.inRange (h : SafeShare p x) : inRange x 1 ((p : Int) - 1) = true := by
  have hpos : 0 < 2 ^ (rsaKeyBits - 64) := Nat.two_pow_pos _
  rw [inRange_iff]
  unfold SafeShare at h
  revert h hpos
  generalize 2 ^ (rsaKeyBits - 64) = bound
  omega

/-- A check that was passed. -/
theorem passed_of_ok {ok : Bool} {e : Exn} {k : Unit → Except Exn Unit} {u : Unit}
    (h : (if !ok then (throw e : Except Exn Unit) >>= k else k ()) = .ok u) : ok = true ∧ k () = .ok u := by
  cases ok with
  | false => cases h
  | true => exact ⟨rfl, h⟩

/-- **The specification of `CheckDHParams`.** A generator between the trivial ones, and two safe shares. -/
theorem checkDHParams_eq_ok_iff :
    checkDHParams dhPrime g gA gB = .ok () ↔
      inRange g.toInt64.toUInt64.toNat 1 ((bytesToBignum dhPrime : Int) - 1) = true ∧
        SafeShare (bytesToBignum dhPrime) (bytesToBignum gA) ∧ SafeShare (bytesToBignum dhPrime) (bytesToBignum gB) := by
  constructor
  · intro h
    unfold checkDHParams at h
    simp only at h
    obtain ⟨hg, h⟩ := passed_of_ok h
    obtain ⟨-, h⟩ := passed_of_ok h
    obtain ⟨-, h⟩ := passed_of_ok h
    obtain ⟨hA, h⟩ := passed_of_ok h
    split at h
    · cases h
    · next hB => exact ⟨hg, inRange_safety_iff.mp hA, inRange_safety_iff.mp (by simpa using hB)⟩
  · rintro ⟨hg, hA, hB⟩
    have hA' := inRange_safety_iff.mpr hA
    have hB' := inRange_safety_iff.mpr hB
    simp only [checkDHParams, hg, hA.inRange, hB.inRange, hA', hB', Bool.not_true, Bool.false_eq_true, if_false]
    rfl

/-- `GenerateGa` takes exactly the safe shares. -/
theorem gaInRange_iff : gaInRange p x = true ↔ SafeShare p x := by
  have hpos : 0 < 2 ^ (rsaKeyBits - 64) := Nat.two_pow_pos _
  simp only [gaInRange, SafeShare, Bool.and_eq_true, decide_eq_true_eq]
  rw [safetyMin_eq]
  revert hpos
  generalize 2 ^ (rsaKeyBits - 64) = bound
  omega

end ShuzaGram.Mtproto

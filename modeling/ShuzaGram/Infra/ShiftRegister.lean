import Mathlib.Logic.Function.Iterate
import Mathlib.Tactic.Common

/-!
# Linear feedback shift registers

A register of `w` bits that is shifted one place at a time: the bit that falls out decides whether a polynomial is
added to what is left. Feeding a bit adds it to the lowest place before the shift, which divides a polynomial over
two elements bit by bit. Nothing here is about a particular polynomial.

* `iterate_step_xor` — shifting is linear
* `iterate_step_split` — several shifts at once, from a table of what the low bits do
* `foldl_feed` — feeding bits one by one is adding them at once and shifting
* `iterate_step_injective` — nothing is lost when the polynomial has the highest bit
-/

namespace ShuzaGram.Infra.ShiftRegister

variable {w : Nat} (poly : BitVec w)

/-- One shift. -/
def step (c : BitVec w) : BitVec w := if c.getLsbD 0 then (c >>> 1) ^^^ poly else c >>> 1

/-- A bit in the lowest place. -/
def lowBit (b : Bool) : BitVec w := if b then 1#w else 0#w

/-- One bit of input, and a shift. -/
def feed (c : BitVec w) (b : Bool) : BitVec w := step poly (c ^^^ lowBit b)

theorem xor_cancel_right (a b p : BitVec w) : (a ^^^ p) ^^^ (b ^^^ p) = a ^^^ b := by
  rw [BitVec.xor_comm b p, ← BitVec.xor_assoc, BitVec.xor_assoc a p p, BitVec.xor_self, BitVec.xor_zero]

theorem step_xor (a b : BitVec w) : step poly (a ^^^ b) = step poly a ^^^ step poly b := by
  unfold step
  rw [BitVec.getLsbD_xor, BitVec.ushiftRight_xor_distrib]
  cases a.getLsbD 0 <;> cases b.getLsbD 0
  case false.false => rfl
  case false.true => exact BitVec.xor_assoc _ _ _
  case true.false => simp only [Bool.xor_false, if_true, Bool.false_eq_true, if_false]; ac_rfl
  case true.true => exact (xor_cancel_right _ _ _).symm

/-- **Shifting is linear.** -/
theorem iterate_step_xor (n : Nat) (a b : BitVec w) :
    (step poly)^[n] (a ^^^ b) = (step poly)^[n] a ^^^ (step poly)^[n] b := by
  induction n generalizing a b with
  | zero => rfl
  | succ n ih =>
    rw [Function.iterate_succ_apply, Function.iterate_succ_apply, Function.iterate_succ_apply, step_xor, ih]

theorem step_of_even {c : BitVec w} (h : c.getLsbD 0 = false) : step poly c = c >>> 1 := by
  simp [step, h]

/-- As long as zeros fall out, the register only moves down. -/
theorem iterate_step_of_low {n : Nat} {c : BitVec w} (h : ∀ i < n, c.getLsbD i = false) :
    (step poly)^[n] c = c >>> n := by
  induction n generalizing c with
  | zero => simp
  | succ n ih =>
    rw [Function.iterate_succ_apply, step_of_even poly (h 0 (Nat.succ_pos n)), ih, ← BitVec.shiftRight_add,
      Nat.add_comm]
    intro i hi
    rw [BitVec.getLsbD_ushiftRight]
    exact h _ (by omega)

/-- A register is its low `n` bits and the rest. -/
theorem low_xor_high (n : Nat) (x : BitVec w) : (x.setWidth n).setWidth w ^^^ (x >>> n <<< n) = x := by
  apply BitVec.eq_of_getLsbD_eq
  intro i hi
  rw [BitVec.getLsbD_xor, BitVec.getLsbD_setWidth, BitVec.getLsbD_setWidth, BitVec.getLsbD_shiftLeft,
    BitVec.getLsbD_ushiftRight]
  by_cases hin : i < n
  · simp [hi, hin]
  · simp [hi, hin, Nat.add_sub_cancel' (Nat.not_lt.mp hin)]

/-- What was moved down is not changed by moving it up and down again. -/
theorem ushiftRight_shiftLeft_ushiftRight (n : Nat) (x : BitVec w) : x >>> n <<< n >>> n = x >>> n := by
  apply BitVec.eq_of_getLsbD_eq
  intro i hi
  rw [BitVec.getLsbD_ushiftRight, BitVec.getLsbD_shiftLeft, BitVec.getLsbD_ushiftRight, BitVec.getLsbD_ushiftRight]
  by_cases hw : n + i < w
  · simp [hw]
  · simp [hw, BitVec.getLsbD_of_ge x (n + i) (Nat.not_lt.mp hw)]

/-- **Several shifts at once**: what the low bits do on their own, and the rest moved down. -/
theorem iterate_step_split (n : Nat) (x : BitVec w) :
    (step poly)^[n] x = (step poly)^[n] ((x.setWidth n).setWidth w) ^^^ (x >>> n) := by
  have hlow : ∀ i < n, (x >>> n <<< n).getLsbD i = false := by
    intro i hi
    simp [BitVec.getLsbD_shiftLeft, hi]
  calc (step poly)^[n] x
      = (step poly)^[n] ((x.setWidth n).setWidth w ^^^ (x >>> n <<< n)) := by rw [low_xor_high]
    _ = (step poly)^[n] ((x.setWidth n).setWidth w) ^^^ (step poly)^[n] (x >>> n <<< n) := iterate_step_xor poly n _ _
    _ = (step poly)^[n] ((x.setWidth n).setWidth w) ^^^ (x >>> n) := by
      rw [iterate_step_of_low poly hlow, ushiftRight_shiftLeft_ushiftRight]

/-! ## Feeding bits -/

/-- The low `n` bits, lowest first. -/
def lowBits (n : Nat) (v : BitVec w) : List Bool := (List.range n).map v.getLsbD

theorem lowBits_succ (n : Nat) (v : BitVec w) : lowBits (n + 1) v = v.getLsbD 0 :: lowBits n (v >>> 1) := by
  rw [lowBits, List.range_succ_eq_map, List.map_cons, List.map_map, lowBits]
  congr 1
  refine List.map_congr_left fun i _ => ?_
  rw [Function.comp, BitVec.getLsbD_ushiftRight, Nat.add_comm]

/-- The bits above the lowest can be added before the shift or behind it. -/
theorem step_xor_rest (c v : BitVec w) :
    step poly (c ^^^ v) = step poly (c ^^^ lowBit (v.getLsbD 0)) ^^^ (v >>> 1) := by
  have hsplit : v = lowBit (v.getLsbD 0) ^^^ (v >>> 1 <<< 1) := by
    apply BitVec.eq_of_getLsbD_eq
    intro i hi
    rw [BitVec.getLsbD_xor, BitVec.getLsbD_shiftLeft, BitVec.getLsbD_ushiftRight]
    cases i with
    | zero => cases h : v.getLsbD 0 <;> simp [lowBit, hi]
    | succ i => cases h : v.getLsbD 0 <;> simp [lowBit, hi, Nat.add_comm 1 i]
  have heven : (v >>> 1 <<< 1).getLsbD 0 = false := by simp [BitVec.getLsbD_shiftLeft]
  conv => lhs; rw [hsplit]
  rw [← BitVec.xor_assoc, step_xor, step_of_even poly heven, ushiftRight_shiftLeft_ushiftRight]

/-- **Feeding bits one by one** is adding them at once and shifting as often. -/
theorem foldl_feed {n : Nat} {v : BitVec w} (hv : v >>> n = 0#w) (c : BitVec w) :
    (lowBits n v).foldl (feed poly) c = (step poly)^[n] (c ^^^ v) := by
  induction n generalizing v c with
  | zero =>
    have hzero : v = 0#w := by simpa using hv
    rw [hzero, BitVec.xor_zero]
    rfl
  | succ n ih =>
    rw [lowBits_succ, List.foldl_cons, ih, Function.iterate_succ_apply, step_xor_rest, feed]
    rw [← BitVec.shiftRight_add, Nat.add_comm]
    exact hv

/-! ## Nothing is lost -/

section Injective

variable {poly} (hpoly : poly.msb = true)

include hpoly

theorem step_eq_zero {c : BitVec w} (h : step poly c = 0#w) : c = 0#w := by
  have hw : 0 < w := by
    by_contra hzero
    have : w = 0 := by omega
    subst this
    exact absurd hpoly (by simp [BitVec.msb])
  unfold step at h
  cases hlow : c.getLsbD 0 with
  | true =>
    rw [hlow, if_pos rfl] at h
    -- the highest bit of the shifted register is clear, that of the polynomial is not
    have htop := congrArg (fun x => x.getLsbD (w - 1)) h
    rw [BitVec.msb_eq_getLsbD_last] at hpoly
    simp only [BitVec.getLsbD_xor, BitVec.getLsbD_ushiftRight, hpoly, BitVec.getLsbD_zero,
      BitVec.getLsbD_of_ge c (1 + (w - 1)) (by omega)] at htop
    cases htop
  | false =>
    rw [hlow, if_neg Bool.false_ne_true] at h
    apply BitVec.eq_of_getLsbD_eq
    intro i hi
    cases i with
    | zero => rw [hlow, BitVec.getLsbD_zero]
    | succ i =>
      have hbit := congrArg (fun x => x.getLsbD i) h
      simpa [BitVec.getLsbD_ushiftRight, Nat.add_comm] using hbit

theorem step_injective : Function.Injective (step poly) := by
  intro a b h
  have hzero : step poly (a ^^^ b) = 0#w := by rw [step_xor, h, BitVec.xor_self]
  exact BitVec.xor_eq_zero_iff.mp (step_eq_zero hpoly hzero)

/-- **Nothing is lost** by shifting, when the polynomial has the highest bit. -/
theorem iterate_step_injective (n : Nat) : Function.Injective (step poly)^[n] := (step_injective hpoly).iterate n

end Injective

end ShuzaGram.Infra.ShiftRegister

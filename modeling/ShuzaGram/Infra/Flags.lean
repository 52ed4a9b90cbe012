import Mathlib.Data.Nat.Bitwise

/-!
# Flag words

A word of 32 flags, built by setting one bit after another under its condition and tested with a mask.

* `flagWord` — the word
* `hasFlag_flagWord` — a flag is set exactly if it was set under a condition that held
-/

namespace ShuzaGram.Infra

/-- A word has flags, which numerals name. -/
instance neZeroFlags : NeZero 32 := ⟨by decide⟩

/-- `1u << k`. -/
def flagBit (k : Fin 32) : UInt32 := 1 <<< UInt32.ofNat k

/-- `flags & (1u << k)`. -/
abbrev HasFlag (flags : UInt32) (k : Fin 32) : Prop := flags &&& flagBit k ≠ 0

/-- `if (c) flags |= 1u << k;` for each condition `c` and flag `k`. -/
def flagWord (cs : List (Bool × Fin 32)) : UInt32 :=
  cs.foldl (fun flags c => if c.1 then flags ||| flagBit c.2 else flags) 0

theorem toNat_flagBit (k : Fin 32) : (flagBit k).toNat = 2 ^ k.val := by
  have hk : (UInt32.ofNat k.val).toNat % 32 = k.val := by
    rw [UInt32.toNat_ofNat_of_lt' (Nat.lt_trans k.isLt (by decide)), Nat.mod_eq_of_lt k.isLt]
  have hpow : 2 ^ k.val < 2 ^ 32 := Nat.pow_lt_pow_right (by decide) k.isLt
  rw [flagBit, UInt32.toNat_shiftLeft, hk, UInt32.toNat_one, Nat.one_shiftLeft, Nat.mod_eq_of_lt hpow]

/-- A mask tests a bit. -/
theorem hasFlag_iff (flags : UInt32) (k : Fin 32) : HasFlag flags k ↔ flags.toNat.testBit k = true := by
  have hand : (flags &&& flagBit k).toNat = (flags.toNat.testBit k).toNat * 2 ^ k.val := by
    rw [UInt32.toNat_and, toNat_flagBit, Nat.and_two_pow]
  rw [HasFlag, ne_eq, ← UInt32.toNat_inj, hand]
  cases flags.toNat.testBit k <;> simp

theorem hasFlag_or (a b : UInt32) (k : Fin 32) : HasFlag (a ||| b) k ↔ HasFlag a k ∨ HasFlag b k := by
  simp only [hasFlag_iff, UInt32.toNat_or, Nat.testBit_or, Bool.or_eq_true]

@[simp] theorem hasFlag_flagBit (j k : Fin 32) : HasFlag (flagBit j) k ↔ j = k := by
  rw [hasFlag_iff, toNat_flagBit, Nat.testBit_two_pow, decide_eq_true_iff, Fin.ext_iff]

/-- **A flag is set exactly if it was set under a condition that held.** -/
theorem hasFlag_flagWord (cs : List (Bool × Fin 32)) (k : Fin 32) : HasFlag (flagWord cs) k ↔ (true, k) ∈ cs := by
  have hfold : ∀ (cs : List (Bool × Fin 32)) (flags : UInt32),
      HasFlag (cs.foldl (fun flags c => if c.1 then flags ||| flagBit c.2 else flags) flags) k ↔
        HasFlag flags k ∨ (true, k) ∈ cs := by
    intro cs
    induction cs with
    | nil => simp
    | cons c cs ih =>
      intro flags
      rw [List.foldl_cons, ih]
      obtain ⟨set, j⟩ := c
      cases set with
      | false => simp
      | true =>
        rw [if_pos rfl, hasFlag_or, hasFlag_flagBit]
        simp [or_assoc, eq_comm]
  rw [flagWord, hfold]
  simp

end ShuzaGram.Infra

import Mathlib.Logic.Equiv.Defs

/-!
# The IGE mode of a block permutation

Infinite garble extension over an arbitrary type of blocks. A mode of operation needs two things
of its blocks: a permutation (the cipher under one key) and an operation `xor` that undoes itself.
Both chaining values are threaded through: the previous output block and the previous input block.
-/

namespace ShuzaGram.Infra.Ige

variable {β : Type}

/-- One pass of encryption; `c` is the previous ciphertext block, `m` the previous plaintext
block. -/
def encrypt (xor : β → β → β) (e : Equiv.Perm β) : β → β → List β → List β
  | _, _, [] => []
  | c, m, x :: xs =>
    let y := xor (e (xor x c)) m
    y :: encrypt xor e y x xs

/-- One pass of decryption. -/
def decrypt (xor : β → β → β) (e : Equiv.Perm β) : β → β → List β → List β
  | _, _, [] => []
  | c, m, y :: ys =>
    let x := xor (e.symm (xor y m)) c
    x :: decrypt xor e y x ys

variable (xor : β → β → β) (e : Equiv.Perm β)

@[simp] theorem length_encrypt : ∀ (c m : β) (xs : List β), (encrypt xor e c m xs).length = xs.length
  | _, _, [] => rfl
  | c, m, x :: xs => by simp only [encrypt, List.length_cons, length_encrypt]

@[simp] theorem length_decrypt : ∀ (c m : β) (ys : List β), (decrypt xor e c m ys).length = ys.length
  | _, _, [] => rfl
  | c, m, y :: ys => by simp only [decrypt, List.length_cons, length_decrypt]

/-- Decryption undoes encryption: both passes carry the same chaining values. -/
theorem decrypt_encrypt (hx : ∀ a b, xor (xor a b) b = a) : ∀ (c m : β) (xs : List β),
    decrypt xor e c m (encrypt xor e c m xs) = xs
  | _, _, [] => rfl
  | c, m, x :: xs => by
    have hblock : xor (e.symm (xor (xor (e (xor x c)) m) m)) c = x := by
      rw [hx, Equiv.symm_apply_apply, hx]
    simp only [encrypt, decrypt, hblock]
    rw [decrypt_encrypt hx]

/-- Encryption undoes decryption: the chaining values of the two passes change roles. -/
theorem encrypt_decrypt (hx : ∀ a b, xor (xor a b) b = a) : ∀ (c m : β) (ys : List β),
    encrypt xor e c m (decrypt xor e c m ys) = ys
  | _, _, [] => rfl
  | c, m, y :: ys => by
    have hblock : xor (e (xor (xor (e.symm (xor y m)) c) c)) m = y := by
      rw [hx, Equiv.apply_symm_apply, hx]
    simp only [encrypt, decrypt, hblock]
    rw [encrypt_decrypt hx]

end ShuzaGram.Infra.Ige

import ShuzaGram.Infra.Bytes

/-!
# Keystreams

A stream cipher adds a keystream to the bytes that pass through it. What it does to a byte depends on the
position of that byte only, so it does not matter how the bytes are cut into chunks.
-/

namespace ShuzaGram.Infra.Keystream

variable (k : Nat → UInt8)

/-- The bytes, added to the keystream from position `n` on. -/
def xorFrom : Nat → Bytes → Bytes
  | _, [] => []
  | n, b :: bs => (b ^^^ k n) :: xorFrom (n + 1) bs

@[simp] theorem length_xorFrom : ∀ (n : Nat) (bs : Bytes), (xorFrom k n bs).length = bs.length
  | _, [] => rfl
  | n, b :: bs => by rw [xorFrom, List.length_cons, length_xorFrom (n + 1) bs, List.length_cons]

theorem xorFrom_append : ∀ (n : Nat) (a b : Bytes),
    xorFrom k n (a ++ b) = xorFrom k n a ++ xorFrom k (n + a.length) b
  | _, [], _ => rfl
  | n, x :: a, b => by
    rw [List.cons_append, xorFrom, xorFrom_append (n + 1) a b, xorFrom, List.cons_append, List.length_cons,
      Nat.add_assoc, Nat.add_comm 1]

/-- Adding the same keystream twice changes nothing. -/
@[simp] theorem xorFrom_xorFrom : ∀ (n : Nat) (bs : Bytes), xorFrom k n (xorFrom k n bs) = bs
  | _, [] => rfl
  | n, b :: bs => by
    rw [xorFrom, xorFrom, xorFrom_xorFrom (n + 1) bs, UInt8.xor_assoc, UInt8.xor_self, UInt8.xor_zero]

theorem take_xorFrom (n m : Nat) (bs : Bytes) : (xorFrom k n bs).take m = xorFrom k n (bs.take m) := by
  induction bs generalizing n m with
  | nil => simp [xorFrom]
  | cons b bs ih =>
    cases m with
    | zero => rfl
    | succ m => rw [xorFrom, List.take_succ_cons, List.take_succ_cons, xorFrom, ih]

theorem drop_xorFrom (n m : Nat) (bs : Bytes) : (xorFrom k n bs).drop m = xorFrom k (n + m) (bs.drop m) := by
  induction bs generalizing n m with
  | nil => simp [xorFrom]
  | cons b bs ih =>
    cases m with
    | zero => rfl
    | succ m =>
      rw [xorFrom, List.drop_succ_cons, List.drop_succ_cons, ih, Nat.add_assoc, Nat.add_comm 1]

/-- Chunk after chunk. -/
def xorChunks : Nat → List Bytes → List Bytes
  | _, [] => []
  | n, c :: cs => xorFrom k n c :: xorChunks (n + c.length) cs

/-- **Chunks do not matter.** -/
theorem flatten_xorChunks : ∀ (n : Nat) (cs : List Bytes), (xorChunks k n cs).flatten = xorFrom k n cs.flatten
  | _, [] => rfl
  | n, c :: cs => by
    rw [xorChunks, List.flatten_cons, flatten_xorChunks (n + c.length) cs, List.flatten_cons, xorFrom_append]

end ShuzaGram.Infra.Keystream

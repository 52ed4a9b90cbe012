import Mathlib.Algebra.Group.Int.Defs
import Mathlib.Algebra.Group.Nat.Defs
import Mathlib.Data.List.Basic
import Mathlib.Tactic.Common

/-!
# Byte strings

Byte strings, fixed-length arrays and positional notation in base 256. Nothing here is about a
particular format.

* `toLE` / `ofLE` — a fixed number of bytes, lowest byte first
* `toBE` / `ofBE` — the same, highest byte first
* `Arr n` — a byte string that carries the proof of its length
* `chunks` / `join` — a byte string as a list of equal blocks, and back
-/

namespace ShuzaGram.Infra

abbrev Bytes := List UInt8

/-- The bytes of an ASCII text. -/
def ascii (s : String) : Bytes := s.toList.map fun c => c.toNat.toUInt8

/-! ## Little-endian numbers -/

/-- The low `n` bytes of `x`, lowest first. -/
def toLE : Nat → Nat → Bytes
  | 0, _ => []
  | n + 1, x => UInt8.ofNat x :: toLE n (x / 256)

/-- The number a byte string stands for, lowest byte first. -/
def ofLE : Bytes → Nat
  | [] => 0
  | b :: bs => b.toNat + 256 * ofLE bs

@[simp] theorem length_toLE : ∀ (n x : Nat), (toLE n x).length = n
  | 0, _ => rfl
  | n + 1, x => by rw [toLE, List.length_cons, length_toLE n]

theorem ofLE_lt : ∀ bs : Bytes, ofLE bs < 256 ^ bs.length
  | [] => by simp [ofLE]
  | b :: bs => by
    have hb : b.toNat < 256 := b.toNat_lt
    have ih := ofLE_lt bs
    rw [ofLE, List.length_cons, Nat.pow_succ]
    omega

/-- Writing `n` bytes keeps the number modulo `256 ^ n`. -/
theorem ofLE_toLE : ∀ n x : Nat, ofLE (toLE n x) = x % 256 ^ n
  | 0, x => by simp [toLE, ofLE, Nat.mod_one]
  | n + 1, x => by
    rw [toLE, ofLE, ofLE_toLE n, Nat.pow_succ, Nat.mul_comm (256 ^ n) 256, Nat.mod_mul]
    simp

theorem ofLE_toLE_of_lt {n x : Nat} (h : x < 256 ^ n) : ofLE (toLE n x) = x := by
  rw [ofLE_toLE, Nat.mod_eq_of_lt h]

/-- Reading a byte string and writing it back gives the same bytes. -/
theorem toLE_ofLE : ∀ bs : Bytes, toLE bs.length (ofLE bs) = bs
  | [] => rfl
  | b :: bs => by
    have hb : b.toNat < 256 := b.toNat_lt
    have hdiv : (b.toNat + 256 * ofLE bs) / 256 = ofLE bs := by omega
    have hlow : UInt8.ofNat (b.toNat + 256 * ofLE bs) = b := by
      apply UInt8.toNat_inj.mp
      rw [UInt8.toNat_ofNat']
      omega
    rw [List.length_cons, ofLE, toLE, hdiv, hlow, toLE_ofLE bs]

theorem toLE_ofLE_of_length {n : Nat} {bs : Bytes} (h : bs.length = n) :
    toLE n (ofLE bs) = bs := by
  rw [← h, toLE_ofLE]

/-! ## Big-endian numbers -/

def toBE (n x : Nat) : Bytes := (toLE n x).reverse

def ofBE (bs : Bytes) : Nat := ofLE bs.reverse

@[simp] theorem length_toBE (n x : Nat) : (toBE n x).length = n := by simp [toBE]

theorem ofBE_toBE_of_lt {n x : Nat} (h : x < 256 ^ n) : ofBE (toBE n x) = x := by
  rw [ofBE, toBE, List.reverse_reverse, ofLE_toLE_of_lt h]

theorem ofBE_lt (bs : Bytes) : ofBE bs < 256 ^ bs.length := by
  have h := ofLE_lt bs.reverse
  rwa [List.length_reverse] at h

theorem toBE_ofBE_of_length {n : Nat} {bs : Bytes} (h : bs.length = n) :
    toBE n (ofBE bs) = bs := by
  rw [toBE, ofBE, toLE_ofLE_of_length (by rw [List.length_reverse, h]), List.reverse_reverse]

/-- Zeros above the highest byte change nothing. -/
theorem ofLE_append_zeros (n : Nat) : ∀ bs : Bytes, ofLE (bs ++ List.replicate n 0) = ofLE bs
  | [] => by
    induction n with
    | zero => rfl
    | succ n ih =>
      rw [List.nil_append] at ih
      rw [List.nil_append, List.replicate_succ]
      simp [ofLE, ih]
  | b :: bs => by rw [List.cons_append, ofLE, ofLE_append_zeros n bs, ofLE]

theorem ofBE_zeros_append (n : Nat) (bs : Bytes) : ofBE (List.replicate n 0 ++ bs) = ofBE bs := by
  rw [ofBE, List.reverse_append, List.reverse_replicate, ofLE_append_zeros, ofBE]

/-- The number of bits of `x`; zero has none. -/
def numBits (x : Nat) : Nat := if x = 0 then 0 else Nat.log2 x + 1

/-- The number of bytes needed to write `x`; zero needs none. -/
def numBytes (x : Nat) : Nat := (numBits x + 7) / 8

theorem lt_two_pow_numBits (x : Nat) : x < 2 ^ numBits x := by
  unfold numBits
  split
  · next h => rw [h]; decide
  · exact Nat.lt_log2_self

theorem lt_pow_numBytes (x : Nat) : x < 256 ^ numBytes x := by
  have h1 : x < 2 ^ numBits x := lt_two_pow_numBits x
  have h2 : numBits x ≤ 8 * numBytes x := by unfold numBytes; omega
  calc x < 2 ^ numBits x := h1
    _ ≤ 2 ^ (8 * numBytes x) := Nat.pow_le_pow_right (by decide) h2
    _ = 256 ^ numBytes x := by rw [Nat.pow_mul]

theorem numBytes_le_of_lt {n x : Nat} (h : x < 256 ^ n) : numBytes x ≤ n := by
  unfold numBytes numBits
  split
  · omega
  · next hx =>
    have h2 : x < 2 ^ (8 * n) := by rw [Nat.pow_mul]; exact h
    have h3 : Nat.log2 x < 8 * n := (Nat.log2_lt hx).mpr h2
    omega

/-! ## Arrays of a fixed length -/

/-- A byte string of length `n`. -/
structure Arr (n : Nat) where
  toList : Bytes
  length_eq : toList.length = n
deriving DecidableEq

namespace Arr

variable {n : Nat}

@[ext] theorem ext {a b : Arr n} (h : a.toList = b.toList) : a = b := by
  cases a; cases b; cases h; rfl

@[simp] theorem length_toList (a : Arr n) : a.toList.length = n := a.length_eq

/-- The first `n` bytes of `bs`, filled up with zeros: an array that starts out zeroed and has
`bs` copied into it. -/
def ofList (n : Nat) (bs : Bytes) : Arr n :=
  ⟨bs.take n ++ List.replicate (n - bs.length) 0, by
    rw [List.length_append, List.length_take, List.length_replicate]; omega⟩

theorem toList_ofList {bs : Bytes} (h : bs.length = n) : (ofList n bs).toList = bs := by
  simp [ofList, ← h]

@[simp] theorem ofList_toList (a : Arr n) : ofList n a.toList = a :=
  ext (toList_ofList a.length_eq)

/-- The array of `n` zero bytes. -/
def zero (n : Nat) : Arr n := ⟨List.replicate n 0, List.length_replicate⟩

/-- Bytewise exclusive or. -/
def xor (a b : Arr n) : Arr n :=
  ⟨List.zipWith (· ^^^ ·) a.toList b.toList, by simp⟩

end Arr

theorem zipWith_xor_cancel : ∀ {a b : Bytes}, a.length = b.length →
    List.zipWith (· ^^^ ·) (List.zipWith (· ^^^ ·) a b) b = a
  | [], [], _ => rfl
  | x :: xs, y :: ys, h => by
    have hlen : xs.length = ys.length := by simpa using h
    have hxy : x ^^^ y ^^^ y = x := by rw [UInt8.xor_assoc, UInt8.xor_self, UInt8.xor_zero]
    rw [List.zipWith_cons_cons, List.zipWith_cons_cons, zipWith_xor_cancel hlen, hxy]

@[simp] theorem Arr.xor_xor_cancel {n : Nat} (a b : Arr n) : (a.xor b).xor b = a :=
  Arr.ext (zipWith_xor_cancel (by rw [a.length_eq, b.length_eq]))

/-! ## Equal blocks -/

/-- The first `k` blocks of `n` bytes. -/
def chunks (n : Nat) : Nat → Bytes → List (Arr n)
  | 0, _ => []
  | k + 1, bs => Arr.ofList n (bs.take n) :: chunks n k (bs.drop n)

/-- The bytes of a list of blocks. -/
def join {n : Nat} (bs : List (Arr n)) : Bytes := bs.flatMap Arr.toList

@[simp] theorem join_nil {n : Nat} : join ([] : List (Arr n)) = [] := rfl

@[simp] theorem join_cons {n : Nat} (a : Arr n) (bs : List (Arr n)) :
    join (a :: bs) = a.toList ++ join bs := by
  simp [join]

@[simp] theorem length_join {n : Nat} : ∀ bs : List (Arr n), (join bs).length = n * bs.length
  | [] => rfl
  | a :: bs => by
    rw [join_cons, List.length_append, length_join bs, a.length_eq, List.length_cons,
      Nat.mul_succ, Nat.add_comm]

@[simp] theorem length_chunks (n : Nat) : ∀ (k : Nat) (bs : Bytes), (chunks n k bs).length = k
  | 0, _ => rfl
  | k + 1, bs => by rw [chunks, List.length_cons, length_chunks n k]

theorem join_chunks (n : Nat) : ∀ (k : Nat) (bs : Bytes), bs.length = n * k →
    join (chunks n k bs) = bs
  | 0, bs, h => by
    have : bs = [] := List.eq_nil_of_length_eq_zero (by simpa using h)
    rw [this]; rfl
  | k + 1, bs, h => by
    rw [Nat.mul_succ] at h
    have htake : (bs.take n).length = n := by rw [List.length_take]; omega
    have hdrop : (bs.drop n).length = n * k := by rw [List.length_drop]; omega
    rw [chunks, join_cons, Arr.toList_ofList htake, join_chunks n k _ hdrop,
      List.take_append_drop]

theorem chunks_join {n : Nat} : ∀ bs : List (Arr n), chunks n bs.length (join bs) = bs
  | [] => rfl
  | a :: bs => by
    have htake : (a.toList ++ join bs).take n = a.toList := List.take_left' a.length_eq
    have hdrop : (a.toList ++ join bs).drop n = join bs := List.drop_left' a.length_eq
    rw [List.length_cons, join_cons, chunks, htake, hdrop, Arr.ofList_toList, chunks_join bs]

end ShuzaGram.Infra

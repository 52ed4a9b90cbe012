import ShuzaGram.Mtproto.Crypto.Dh

/-!
# Hash-prefixed answers

`DataWithHash` puts the hash of the data in front and random padding behind, and `GuessDataWithHash` looks for
the padding length from the long end. What it returns always has the hash that stands in front. It finds the
data unless a longer candidate has the same hash, or it stops early: it takes the padding lengths off the size
as an `int`, and a size whose low 32 bits are negative or small ends the search.

* `NoLongerMatch` — no longer candidate has the hash of the data
* `LoopReaches` — the search gets as far as the padding length of the data
-/

namespace ShuzaGram.Mtproto.Crypto

open Infra

/-- The random bytes behind the data. -/
def answerPadding (data : Bytes) (pad : Nat → UInt8) : Bytes := (List.range (padLength data)).map pad

/-- No longer candidate, the data followed by some of the padding, has the hash of the data. -/
def NoLongerMatch (P : Primitives) (data : Bytes) (pad : Nat → UInt8) : Prop :=
  ∀ n, 0 < n → n ≤ padLength data → P.sha1 (data ++ (answerPadding data pad).take n) ≠ P.sha1 data

/-- The size of the envelope as an `int`, less the padding, is no less than the size of the hash. -/
def LoopReaches (data : Bytes) : Prop :=
  (shaDigestLength + padLength data : Int) ≤ (Int32.ofNat (paddedLen16 (data.length + shaDigestLength))).toInt

section Envelope

variable (P : Primitives) (data : Bytes) (pad : Nat → UInt8)

theorem dataWithHash_eq : dataWithHash P data pad = (P.sha1 data).toList ++ (data ++ answerPadding data pad) := by
  rw [dataWithHash, List.append_assoc, answerPadding, padLength]

theorem size_dataWithHash : (dataWithHash P data pad).length = paddedLen16 (data.length + shaDigestLength) := by
  have h := paddedLen16_spec (data.length + shaDigestLength)
  rw [length_dataWithHash, padLength]
  omega

theorem loopReaches_iff :
    LoopReaches data ↔ (shaDigestLength + padLength data : Int) ≤ sizeAsInt (dataWithHash P data pad) := by
  rw [LoopReaches, sizeAsInt, size_dataWithHash]

/-- A candidate that is longer than the data is the data and some of the padding. -/
theorem guessCandidate_of_le {i : Nat} (hi : i ≤ padLength data) :
    guessCandidate (dataWithHash P data pad) i = data ++ (answerPadding data pad).take (padLength data - i) := by
  have hlen := length_dataWithHash P data pad
  have htake : (dataWithHash P data pad).length - i =
      (P.sha1 data).toList.length + (data.length + (padLength data - i)) := by
    rw [Arr.length_toList]
    unfold shaDigestLength at hlen
    omega
  have hdrop : shaDigestLength = (P.sha1 data).toList.length := (P.sha1 data).length_eq.symm
  rw [guessCandidate, htake, dataWithHash_eq, List.take_length_add_append, hdrop, List.drop_left,
    List.take_length_add_append]

end Envelope

/-! ## What is returned -/

theorem sizeAsInt_le (d : Bytes) : sizeAsInt d ≤ d.length := by
  rw [sizeAsInt, Int32.toInt_ofNat', show Int32.size = 2 ^ 32 from rfl, Int.bmod_def]
  split <;> omega

/-- A search that succeeds stopped at a padding length that it tried, and the candidate has the hash. -/
theorem guessLoop_eq_ok_imp {P : Primitives} {d want s : Bytes} {tried : List Nat}
    (h : guessLoop P d want tried = .ok s) :
    ∃ i : Nat, i ∈ tried ∧ (shaDigestLength + i : Int) ≤ sizeAsInt d ∧ s = guessCandidate d i ∧
      (P.sha1 s).toList = want := by
  induction tried with
  | nil => cases h
  | cons i rest ih =>
    rw [guessLoop] at h
    by_cases hsize : sizeAsInt d - i < shaDigestLength
    · rw [if_pos hsize] at h
      cases h
    · rw [if_neg hsize] at h
      by_cases hhash : (P.sha1 (guessCandidate d i)).toList = want
      · simp only [if_pos hhash] at h
        cases h
        exact ⟨i, List.mem_cons_self, by omega, rfl, hhash⟩
      · simp only [if_neg hhash] at h
        obtain ⟨j, hj, hrest⟩ := ih h
        exact ⟨j, List.mem_cons_of_mem i hj, hrest⟩

/-- `s` has the hash in front of `d`, and is what stands behind it but for at most 15 bytes. -/
def Opens (P : Primitives) (d s : Bytes) : Prop :=
  (P.sha1 s).toList = d.take shaDigestLength ∧ ∃ missing, d.drop shaDigestLength = s ++ missing ∧ missing.length ≤ 15

theorem guessDataWithHash_eq_ok_imp {P : Primitives} {d s : Bytes} (h : guessDataWithHash P d = .ok s) :
    ∃ i : Nat, i < 16 ∧ (shaDigestLength + i : Int) ≤ sizeAsInt d ∧ s = guessCandidate d i ∧
      (P.sha1 s).toList = d.take shaDigestLength := by
  unfold guessDataWithHash at h
  by_cases hsmall : d.length ≤ shaDigestLength
  · rw [if_pos hsmall] at h
    cases h
  · rw [if_neg hsmall] at h
    obtain ⟨i, hi, hrest⟩ := guessLoop_eq_ok_imp h
    exact ⟨i, List.mem_range.mp hi, hrest⟩

theorem opens_of_guess {P : Primitives} {d s : Bytes} (h : guessDataWithHash P d = .ok s) : Opens P d s := by
  obtain ⟨i, hi, hreach, rfl, hhash⟩ := guessDataWithHash_eq_ok_imp h
  have hle := sizeAsInt_le d
  have hsplit : (d.drop shaDigestLength).take (d.length - i - shaDigestLength) = guessCandidate d i :=
    List.drop_take.symm
  refine ⟨hhash, (d.drop shaDigestLength).drop (d.length - i - shaDigestLength), ?_, ?_⟩
  · rw [← hsplit, List.take_append_drop]
  · rw [List.length_drop, List.length_drop]
    omega

/-- **Hash-prefixed padding.** The envelope has a whole number of blocks, and is found exactly when the search gets
as far as its padding; whatever is returned for any input has the hash in front of the input. -/
theorem guessDataWithHash_eq_data_iff (P : Primitives) (data : Bytes) (pad : Nat → UInt8) :
    (16 ∣ (dataWithHash P data pad).length ∧ data.length + 20 ≤ (dataWithHash P data pad).length ∧
      (dataWithHash P data pad).length < data.length + 36) ∧
    (NoLongerMatch P data pad → (guessDataWithHash P (dataWithHash P data pad) = .ok data ↔ LoopReaches data)) ∧
    ∀ d s, guessDataWithHash P d = .ok s → Opens P d s := by
  have hlen := length_dataWithHash P data pad
  have hpad := padLength_lt data
  unfold shaDigestLength at hlen
  refine ⟨⟨sixteen_dvd_length_dataWithHash P data pad, by omega, by omega⟩, ?_, fun d s h => opens_of_guess h⟩
  intro hlonger
  constructor
  · intro h
    obtain ⟨i, hi, hreach, hdata, -⟩ := guessDataWithHash_eq_ok_imp h
    have hle := sizeAsInt_le (dataWithHash P data pad)
    have hsame : data.length = (dataWithHash P data pad).length - i - 20 := by
      rw [← List.length_take_of_le (Nat.sub_le (dataWithHash P data pad).length i), ← shaDigestLength, ← List.length_drop]
      exact congrArg List.length hdata
    -- The candidate that is the data is found by its length.
    have hi : i = padLength data := by
      unfold shaDigestLength at hreach
      omega
    rw [hi] at hreach
    exact (loopReaches_iff P data pad).mpr hreach
  · intro hreach
    refine guessDataWithHash_dataWithHash ((loopReaches_iff P data pad).mp hreach) ?_
    intro i hi
    rw [guessCandidate_of_le P data pad (Nat.le_of_lt hi)]
    exact hlonger _ (by omega) (by omega)

/-- The hash of a short text is the text itself, so that no two of them collide. -/
def shortTextPrimitives : Primitives := { keyedPrimitives with sha1 := Arr.ofList 20 }

/-- Three bytes behind nine of padding: nine longer candidates are passed by. -/
theorem guessDataWithHash_eq_data_three :
    guessDataWithHash shortTextPrimitives (dataWithHash shortTextPrimitives [1, 2, 3] fun _ => 7) = .ok [1, 2, 3] := by
  have hreach : LoopReaches [1, 2, 3] := by
    unfold LoopReaches
    decide
  have hdiffer : ∀ n < 10, 0 < n → shortTextPrimitives.sha1 ([1, 2, 3] ++ (List.replicate 9 7).take n) ≠
      shortTextPrimitives.sha1 [1, 2, 3] := by decide
  refine ((guessDataWithHash_eq_data_iff shortTextPrimitives [1, 2, 3] fun _ => 7).2.1 ?_).mpr hreach
  intro n hpos hle
  exact hdiffer n (Nat.lt_succ_of_le hle) hpos

/-- Data whose envelope has `2 ^ 31` bytes, without padding. -/
def hugeAnswer : Bytes := List.replicate (2 ^ 31 - 20) 0

/-- **An envelope of two gigabytes is not opened**, although it has no padding and so no longer candidate. -/
theorem hugeAnswer_unreadable :
    NoLongerMatch keyedPrimitives hugeAnswer (fun _ => 0) ∧
      guessDataWithHash keyedPrimitives (dataWithHash keyedPrimitives hugeAnswer fun _ => 0) =
        .error (.runtimeError "GuessDataWithHash: no padding length matched the stored hash") := by
  have hdata : hugeAnswer.length = 2 ^ 31 - 20 := List.length_replicate
  have hpad : padLength hugeAnswer = 0 := by
    rw [padLength, hdata]
    rfl
  have hlen : (dataWithHash keyedPrimitives hugeAnswer fun _ => 0).length = 2 ^ 31 := by
    rw [size_dataWithHash, hdata]
    rfl
  constructor
  · intro n hpos hle
    omega
  · have hcut : sizeAsInt (dataWithHash keyedPrimitives hugeAnswer fun _ => 0) = -2 ^ 31 := by
      rw [sizeAsInt, hlen]
      decide
    rw [guessDataWithHash, hlen, if_neg (by decide), List.range_eq_range', List.range'_succ, guessLoop, hcut,
      if_pos (by decide)]

end ShuzaGram.Mtproto.Crypto

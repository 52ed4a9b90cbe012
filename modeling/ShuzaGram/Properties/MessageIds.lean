import Mathlib.Tactic.Common
import ShuzaGram.Mtproto.UnencryptedMessage

/-!
# Message ids

A message id is the second in its high word, and in its low word the nanosecond within the second, whose
last two bits tell who made it. Up to the year 2038 no field runs over, so an id is a number in base
`2 ^ 32` (`new_eq_ofNat`), and what is said of ids is read off that number.

* `secondOf`, `bucketOf` — the second of a time, and its 4-nanosecond bucket within the second
* `idNumber` — the id as a number
-/

namespace ShuzaGram.Mtproto

namespace MessageId

/-! ## Bit masks on numbers that are not negative -/

theorem toBitVec_ofNat (x : Nat) : (Int64.ofNat x).toBitVec = BitVec.ofNat 64 x := rfl

theorem ofNat_and_neg_four (x : Nat) : Int64.ofNat x &&& -4 = Int64.ofNat (x / 4 * 4) := by
  apply Int64.toBitVec_inj.mp
  apply BitVec.eq_of_getLsbD_eq
  intro i hi
  have hmask : (-4 : Int64).toBitVec = BitVec.ofNat 64 ((2 ^ 62 - 1) * 2 ^ 2) := by decide
  have hx : (x / 4 * 4).testBit i = (decide (2 ≤ i) && x.testBit i) := by
    rw [show x / 4 * 4 = x / 2 ^ 2 * 2 ^ 2 from rfl, Nat.testBit_mul_two_pow, Nat.testBit_div_two_pow]
    by_cases h2 : 2 ≤ i
    · simp [h2, Nat.sub_add_cancel h2]
    · simp [h2]
  have hm : ((2 ^ 62 - 1) * 2 ^ 2 : Nat).testBit i = decide (2 ≤ i) := by
    rw [Nat.testBit_mul_two_pow, Nat.testBit_two_pow_sub_one]
    by_cases h2 : 2 ≤ i
    · have : i - 2 < 62 := by omega
      simp [h2, this]
    · simp [h2]
  rw [Int64.toBitVec_and, hmask, BitVec.getLsbD_and, toBitVec_ofNat, toBitVec_ofNat, BitVec.getLsbD_ofNat,
    BitVec.getLsbD_ofNat, BitVec.getLsbD_ofNat, hx, hm]
  simp [hi, Bool.and_comm]

theorem toNat_ofNat {x : Nat} (h : x < 2 ^ 64) : (Int64.ofNat x).toBitVec.toNat = x := by
  rw [toBitVec_ofNat, BitVec.toNat_ofNat, Nat.mod_eq_of_lt h]

/-- Two words side by side. -/
theorem ofNat_shiftLeft_or {a b : Nat} (ha : a < 2 ^ 31) (hb : b < 2 ^ 32) :
    (Int64.ofNat a <<< 32) ||| (Int64.ofNat b &&& 0xFFFFFFFF) = Int64.ofNat (a * 2 ^ 32 + b) := by
  apply Int64.toBitVec_inj.mp
  apply BitVec.eq_of_toNat_eq
  have hshift : (Int64.ofNat a <<< 32).toBitVec.toNat = a <<< 32 := by
    have hbits : (Int64.ofNat a <<< 32).toBitVec = (Int64.ofNat a).toBitVec <<< 32 := rfl
    rw [hbits, BitVec.toNat_shiftLeft, toNat_ofNat (by omega), Nat.mod_eq_of_lt]
    rw [Nat.shiftLeft_eq]
    omega
  have hmask : (Int64.ofNat b &&& 0xFFFFFFFF).toBitVec.toNat = b := by
    rw [Int64.toBitVec_and, BitVec.toNat_and, toNat_ofNat (by omega)]
    show b &&& 2 ^ 32 - 1 = b
    rw [Nat.and_two_pow_sub_one_eq_mod, Nat.mod_eq_of_lt hb]
  rw [Int64.toBitVec_or, BitVec.toNat_or, hshift, hmask, ← Nat.shiftLeft_add_eq_or_of_lt hb, toNat_ofNat (by omega),
    Nat.shiftLeft_eq]

/-! ## The number of an id -/

/-- The second of a time in nanoseconds. -/
def secondOf (nanos : Nat) : Nat := nanos / 10 ^ 9

/-- The 4-nanosecond bucket of a time within its second. -/
def bucketOf (nanos : Nat) : Nat := nanos % 10 ^ 9 / 4

/-- The last two bits of an id. -/
def yieldBits : MessageType → Nat
  | .fromClient | .unknown => 0
  | .serverResponse => 1
  | .fromServer => 3

/-- The low word of an id; a client never makes a zero. -/
def lowWord (t : MessageType) (nanos : Nat) : Nat :=
  if yieldBits t = 0 ∧ bucketOf nanos = 0 then 4 else bucketOf nanos * 4 + yieldBits t

def idNumber (t : MessageType) (nanos : Nat) : Nat := secondOf nanos * 2 ^ 32 + lowWord t nanos

theorem yieldOf_eq (t : MessageType) : yieldOf t = Int64.ofNat (yieldBits t) := by cases t <;> rfl

theorem yieldBits_lt (t : MessageType) : yieldBits t < 4 := by cases t <;> decide

theorem compute_eq {nanos : Nat} (h : nanos < 2 ^ 31 * 10 ^ 9) (t : MessageType) :
    compute (Int64.ofNat nanos) (yieldOf t) =
      Int64.ofNat (secondOf nanos * 2 ^ 32 + (bucketOf nanos * 4 + yieldBits t)) := by
  have hnano : (1000000000 : Int64) = Int64.ofNat (10 ^ 9) := by decide
  have hy := yieldBits_lt t
  have hbucket : bucketOf nanos * 4 + yieldBits t < 2 ^ 32 := by
    unfold bucketOf
    omega
  have hsecond : secondOf nanos < 2 ^ 31 := by
    unfold secondOf
    omega
  rw [compute, hnano, ← Int64.ofNat_div (by omega) (by decide), ← Int64.ofNat_mod (by omega) (by decide), yieldOf_eq,
    messageIdModulo, ofNat_and_neg_four, ← Int64.ofNat_add]
  exact ofNat_shiftLeft_or hsecond hbucket

/-- The last two bits tell the type. -/
theorem type_ofNat {k : Nat} (h : k < 2 ^ 63) :
    type (Int64.ofNat k) =
      if k % 4 = 0 then .fromClient else if k % 4 = 1 then .serverResponse else if k % 4 = 3 then .fromServer
      else .unknown := by
  have hfour : messageIdModulo = Int64.ofNat 4 := rfl
  have hlow : (Int64.ofNat k % messageIdModulo + messageIdModulo) % messageIdModulo = Int64.ofNat (k % 4) := by
    rw [hfour, ← Int64.ofNat_mod h (by decide), ← Int64.ofNat_add, ← Int64.ofNat_mod (by omega) (by decide)]
    congr 1
    omega
  have hmod := Nat.mod_lt k (show 0 < 4 by decide)
  rw [type, hlow]
  generalize k % 4 = r at hmod ⊢
  match r, hmod with
  | 0, _ | 1, _ | 2, _ | 3, _ => rfl

/-- The low word is zero where the number is a multiple of `2 ^ 32`. -/
theorem toUInt32_ofNat {k : Nat} (h : k < 2 ^ 63) : (Int64.ofNat k).toUInt64.toUInt32 = 0 ↔ k % 2 ^ 32 = 0 := by
  have hnat : (Int64.ofNat k).toUInt64.toUInt32.toNat = k % 2 ^ 32 := by
    rw [UInt64.toNat_toUInt32]
    exact congrArg (· % 2 ^ 32) (toNat_ofNat (by omega))
  rw [← UInt32.toNat_inj, hnat]
  rfl

theorem idNumber_lt {nanos : Nat} (h : nanos < 2 ^ 31 * 10 ^ 9) (t : MessageType) : idNumber t nanos < 2 ^ 63 := by
  have hy := yieldBits_lt t
  unfold idNumber lowWord secondOf bucketOf
  split <;> omega

/-- **An id is a number in base `2 ^ 32`.** -/
theorem new_eq_ofNat {nanos : Nat} (h : nanos < 2 ^ 31 * 10 ^ 9) (t : MessageType) :
    new (Int64.ofNat nanos) t = Int64.ofNat (idNumber t nanos) := by
  have hy := yieldBits_lt t
  have hbucket : bucketOf nanos < 2 ^ 28 := by
    unfold bucketOf
    omega
  have hsecond : secondOf nanos < 2 ^ 31 := by
    unfold secondOf
    omega
  have hid : secondOf nanos * 2 ^ 32 + (bucketOf nanos * 4 + yieldBits t) < 2 ^ 63 := by omega
  have hfield : ∀ low, low < 2 ^ 32 → ((secondOf nanos * 2 ^ 32 + low) % 2 ^ 32 = 0 ↔ low = 0) := by
    intro low hlow
    omega
  rw [new, compute_eq h t, idNumber, lowWord]
  -- Only a client in the first bucket of a second would make a low word of zero, and is nudged.
  by_cases hzero : yieldBits t = 0 ∧ bucketOf nanos = 0
  · obtain ⟨hy0, hb0⟩ := hzero
    rw [hy0, hb0] at hid ⊢
    have hmultiple : (secondOf nanos * 2 ^ 32 + (0 * 4 + 0)) % 4 = 0 := by omega
    rw [if_pos ⟨by rw [type_ofNat hid, if_pos hmultiple], (toUInt32_ofNat hid).mpr ((hfield _ (by decide)).mpr rfl)⟩,
      if_pos ⟨rfl, rfl⟩]
    exact (Int64.ofNat_add _ _).symm
  · have hlow : ¬bucketOf nanos * 4 + yieldBits t = 0 := by omega
    rw [if_neg hzero, if_neg]
    rintro ⟨-, hword⟩
    exact hlow ((hfield _ (by omega)).mp ((toUInt32_ofNat hid).mp hword))

theorem toInt_new {nanos : Nat} (h : nanos < 2 ^ 31 * 10 ^ 9) (t : MessageType) :
    (new (Int64.ofNat nanos) t).toInt = idNumber t nanos := by
  rw [new_eq_ofNat h, Int64.toInt_ofNat_of_lt (idNumber_lt h t)]

/-! ## Order -/

/-- Two times that one type of message cannot tell apart: a bucket of a second, or the first two of a client. -/
def SameTick (t : MessageType) (m n : Nat) : Prop :=
  secondOf m = secondOf n ∧ (bucketOf m = bucketOf n ∨ yieldBits t = 0 ∧ bucketOf m ≤ 1 ∧ bucketOf n ≤ 1)

theorem lowWord_lt (t : MessageType) (nanos : Nat) : lowWord t nanos < 2 ^ 32 := by
  have hy := yieldBits_lt t
  unfold lowWord bucketOf
  split <;> omega

/-- A later time has a later second, or the same second and no earlier bucket. -/
theorem second_bucket_le {m n : Nat} (h : m ≤ n) :
    secondOf m < secondOf n ∨ secondOf m = secondOf n ∧ bucketOf m ≤ bucketOf n := by
  unfold secondOf bucketOf
  omega

theorem lowWord_le {t : MessageType} {m n : Nat} (h : bucketOf m ≤ bucketOf n) : lowWord t m ≤ lowWord t n := by
  unfold lowWord
  split <;> split <;> omega

theorem lowWord_eq_iff {t : MessageType} {m n : Nat} :
    lowWord t m = lowWord t n ↔ bucketOf m = bucketOf n ∨ yieldBits t = 0 ∧ bucketOf m ≤ 1 ∧ bucketOf n ≤ 1 := by
  have hy := yieldBits_lt t
  unfold lowWord
  split <;> split <;> omega

theorem idNumber_le {t : MessageType} {m n : Nat} (h : m ≤ n) : idNumber t m ≤ idNumber t n := by
  have hm := lowWord_lt t m
  unfold idNumber
  rcases second_bucket_le h with hlt | ⟨heq, hle⟩
  · omega
  · have := lowWord_le (t := t) hle
    omega

theorem idNumber_eq_iff {t : MessageType} {m n : Nat} : idNumber t m = idNumber t n ↔ SameTick t m n := by
  have hm := lowWord_lt t m
  have hn := lowWord_lt t n
  rw [SameTick, ← lowWord_eq_iff]
  unfold idNumber
  omega

/-- The last two bits of the number are those of the type. -/
theorem idNumber_mod (t : MessageType) (nanos : Nat) : idNumber t nanos % 4 = yieldBits t := by
  have hy := yieldBits_lt t
  unfold idNumber lowWord
  split <;> omega

theorem type_new {nanos : Nat} (h : nanos < 2 ^ 31 * 10 ^ 9) {t : MessageType} (ht : t ≠ .unknown) :
    type (new (Int64.ofNat nanos) t) = t := by
  rw [new_eq_ofNat h, type_ofNat (idNumber_lt h t), idNumber_mod]
  cases t with
  | unknown => exact absurd rfl ht
  | fromClient | serverResponse | fromServer => rfl

/-- **Message ids encode time and direction**, for every time before the year 2038. -/
theorem new_timeAndDirection {m n : Nat} (hm : m < 2 ^ 31 * 10 ^ 9) (hn : n < 2 ^ 31 * 10 ^ 9) {t u : MessageType}
    (ht : t ≠ .unknown) (hu : u ≠ .unknown) :
    (0 ≤ (new (Int64.ofNat n) t).toInt ∧ type (new (Int64.ofNat n) t) = t ∧
      (new (Int64.ofNat n) t).toInt / 2 ^ 32 = (n / 10 ^ 9 : Nat) ∧
      (t = .fromClient → (new (Int64.ofNat n) t).toUInt64.toUInt32 ≠ 0)) ∧
    (m ≤ n → (new (Int64.ofNat m) t).toInt ≤ (new (Int64.ofNat n) t).toInt) ∧
    (m ≤ n → ((new (Int64.ofNat m) t).toInt < (new (Int64.ofNat n) t).toInt ↔ ¬SameTick t m n)) ∧
    (t ≠ u → new (Int64.ofNat m) t ≠ new (Int64.ofNat n) u) := by
  have hlow := lowWord_lt t n
  refine ⟨⟨?_, type_new hn ht, ?_, ?_⟩, ?_, ?_, ?_⟩
  · rw [toInt_new hn]
    exact Int.natCast_nonneg _
  · rw [toInt_new hn, idNumber, secondOf]
    omega
  · intro hclient
    rw [new_eq_ofNat hn, ne_eq, toUInt32_ofNat (idNumber_lt hn t)]
    have hpos : 0 < lowWord t n := by
      unfold lowWord
      split <;> omega
    unfold idNumber
    omega
  · intro hle
    rw [toInt_new hm, toInt_new hn]
    exact Int.ofNat_le.mpr (idNumber_le hle)
  · intro hle
    rw [toInt_new hm, toInt_new hn, ← idNumber_eq_iff]
    have := idNumber_le (t := t) hle
    omega
  · intro hne heq
    have htype := type_new hm ht
    rw [heq, type_new hn hu] at htype
    exact hne htype.symm

/-- An integral second of a client, and a time in its second bucket. -/
theorem new_timeAndDirection_nudged :
    (MessageId.new 1000000000 .fromClient).toInt ≤ (MessageId.new 1000000005 .fromClient).toInt ∧
      MessageId.new 1000000000 .fromClient ≠ MessageId.new 1000000005 .fromServer := by
  have h := new_timeAndDirection (m := 10 ^ 9) (n := 10 ^ 9 + 5) (by decide) (by decide)
    (show MessageType.fromClient ≠ .unknown by decide) (show MessageType.fromServer ≠ .unknown by decide)
  exact ⟨h.2.1 (by decide), h.2.2.2 (by decide)⟩

end MessageId

end ShuzaGram.Mtproto

import ShuzaGram.Errors
import ShuzaGram.Infra.Parses

/-!
# The TL buffer

`TLBuffer` of `mtproto/tl_buffer.hpp`. Writing appends, so a writer is the byte string it appends.
Reading takes bytes from the front and may throw; `Get` keeps the buffer on both outcomes, because
a reader that throws leaves the bytes it has not taken yet.

Every reader comes with two lemmas: what it does on the bytes the matching writer produced (the
`_bind_put` lemmas, which let a decoder be run on an encoding by `simp`), and what a successful
read says about the buffer (the `_ok` lemmas).
-/

namespace ShuzaGram.Mtproto

open Infra

/-- A reader: the bytes left are part of both outcomes. -/
abbrev Get := EStateM Exn Bytes

namespace Get

variable {α β : Type} {x : Get α} {f : α → Get β}

theorem bind_apply (x : Get α) (f : α → Get β) (b : Bytes) :
    (x >>= f) b = match x b with
      | .ok a b' => f a b'
      | .error e b' => .error e b' := by
  show EStateM.bind x f b = _
  unfold EStateM.bind
  cases x b <;> rfl

theorem bind_of_ok {b b' : Bytes} {a : α} (h : x b = .ok a b') : (x >>= f) b = f a b' := by
  rw [bind_apply, h]

/-- A sequence of two reads succeeds exactly when both do. -/
theorem bind_eq_ok {b b'' : Bytes} {r : β} :
    (x >>= f) b = .ok r b'' ↔ ∃ a b', x b = .ok a b' ∧ f a b' = .ok r b'' := by
  rw [bind_apply]
  cases hx : x b with
  | ok a b' => simp
  | error e b' => simp

end Get

/-! ## Writing -/

def putUint32 (v : UInt32) : Bytes := toLE 4 v.toNat

def putInt32 (v : Int32) : Bytes := putUint32 v.toUInt32

def putId (id : UInt32) : Bytes := putUint32 id

def putUint64 (v : UInt64) : Bytes := toLE 8 v.toNat

def putLong (v : Int64) : Bytes := putUint64 v.toUInt64

/-- `PutInt128` and `PutInt256`: a fixed array as it stands. -/
def putArr {n : Nat} (v : Arr n) : Bytes := v.toList

/-- `NearestPaddedLength`. -/
def nearestPaddedLength (l : Nat) : Nat :=
  let n := 4 * (l / 4)
  if n < l then n + 4 else n

/-- The length prefix of a TL `bytes` value. -/
def bytesHeader (l : Nat) : Bytes :=
  if l ≤ 253 then [UInt8.ofNat l]
  else [254, UInt8.ofNat l, UInt8.ofNat (l / 256), UInt8.ofNat (l / 65536)]

/-- `PutBytes`: the length prefix, the bytes, zeros up to a multiple of 4. -/
def putBytes (v : Bytes) : Bytes :=
  let current := (bytesHeader v.length).length + v.length
  bytesHeader v.length ++ v ++ List.replicate (nearestPaddedLength current - current) 0

def typeVector : UInt32 := 0x1cb5c415

/-- `PutVectorHeader`; the length is cut to 32 bits. -/
def putVectorHeader (length : Nat) : Bytes := putId typeVector ++ putInt32 (Int32.ofNat length)

/-- What a TL string can hold. -/
def FitsString (s : Bytes) : Prop := s.length < 2 ^ 24

/-- What the count of a TL vector can hold. -/
def FitsVector (n : Nat) : Prop := n < 2 ^ 31

instance (s : Bytes) : Decidable (FitsString s) := inferInstanceAs (Decidable (s.length < 2 ^ 24))

instance (n : Nat) : Decidable (FitsVector n) := inferInstanceAs (Decidable (n < 2 ^ 31))

@[simp] theorem length_putUint32 (v : UInt32) : (putUint32 v).length = 4 := length_toLE _ _
@[simp] theorem length_putInt32 (v : Int32) : (putInt32 v).length = 4 := length_putUint32 _
@[simp] theorem length_putId (v : UInt32) : (putId v).length = 4 := length_putUint32 _
@[simp] theorem length_putUint64 (v : UInt64) : (putUint64 v).length = 8 := length_toLE _ _
@[simp] theorem length_putLong (v : Int64) : (putLong v).length = 8 := length_putUint64 _
@[simp] theorem length_putArr {n : Nat} (v : Arr n) : (putArr v).length = n := v.length_eq

theorem le_nearestPaddedLength (l : Nat) : l ≤ nearestPaddedLength l := by
  unfold nearestPaddedLength
  simp only
  split <;> omega

theorem four_dvd_nearestPaddedLength (l : Nat) : 4 ∣ nearestPaddedLength l := by
  unfold nearestPaddedLength
  simp only
  split <;> omega

theorem length_putBytes (v : Bytes) :
    (putBytes v).length = nearestPaddedLength ((bytesHeader v.length).length + v.length) := by
  have h := le_nearestPaddedLength ((bytesHeader v.length).length + v.length)
  simp only [putBytes, List.length_append, List.length_replicate]
  omega

/-- **A TL `bytes` value takes a whole number of words.** -/
theorem four_dvd_length_putBytes (v : Bytes) : 4 ∣ (putBytes v).length := by
  rw [length_putBytes]
  exact four_dvd_nearestPaddedLength _

/-! ## Whole words -/

/-- A whole number of 32-bit words, which is what every writer writes. -/
def Words (b : Bytes) : Prop := 4 ∣ b.length

section Words

variable {a b : Bytes}

@[simp] theorem words_nil : Words [] := Nat.dvd_zero 4

theorem Words.append (ha : Words a) (hb : Words b) : Words (a ++ b) := by
  rw [Words, List.length_append]
  exact Nat.dvd_add ha hb

/-- Behind whole words, only the rest decides. -/
@[simp] theorem Words.append_iff (ha : Words a) : Words (a ++ b) ↔ Words b := by
  rw [Words, List.length_append]
  exact (Nat.dvd_add_iff_right ha).symm

@[simp] theorem words_ite (c : Prop) [Decidable c] :
    Words (if c then a else b) ↔ (c → Words a) ∧ (¬ c → Words b) := by
  by_cases hc : c <;> simp [hc]

theorem Words.flatMap {α : Type} {f : α → Bytes} : ∀ {as : List α}, (∀ a ∈ as, Words (f a)) → Words (as.flatMap f)
  | [], _ => words_nil
  | a :: as, h => by
    rw [List.flatMap_cons]
    exact (h a List.mem_cons_self).append (Words.flatMap fun a' ha => h a' (List.mem_cons_of_mem a ha))

@[simp] theorem words_putUint32 (v : UInt32) : Words (putUint32 v) := ⟨1, length_putUint32 v⟩
@[simp] theorem words_putInt32 (v : Int32) : Words (putInt32 v) := ⟨1, length_putInt32 v⟩
@[simp] theorem words_putId (v : UInt32) : Words (putId v) := ⟨1, length_putId v⟩
@[simp] theorem words_putLong (v : Int64) : Words (putLong v) := ⟨2, length_putLong v⟩
@[simp] theorem words_putBytes (v : Bytes) : Words (putBytes v) := four_dvd_length_putBytes v

@[simp] theorem words_putVectorHeader (n : Nat) : Words (putVectorHeader n) :=
  (words_putId _).append (words_putInt32 _)

end Words

theorem length_putBytes_le (v : Bytes) : (putBytes v).length ≤ v.length + 7 := by
  have hheader : (bytesHeader v.length).length ≤ 4 := by
    unfold bytesHeader
    split <;> simp
  rw [length_putBytes]
  unfold nearestPaddedLength
  simp only
  split <;> omega

theorem length_le_putBytes (v : Bytes) : v.length ≤ (putBytes v).length := by
  rw [length_putBytes]
  exact Nat.le_trans (Nat.le_add_left _ _) (le_nearestPaddedLength _)

/-! ## Reading -/

/-- `PeekID`: the next word, not taken. -/
def peekId : Get UInt32 := fun b =>
  if b.length < 4 then .error .bufferUnderrun b else .ok (UInt32.ofNat (ofLE (b.take 4))) b

/-- `ConsumeN`: the next `n` bytes. -/
def consumeN (n : Nat) : Get Bytes := fun b =>
  if b.length < n then .error .bufferUnderrun b else .ok (b.take n) (b.drop n)

def uint32 : Get UInt32 := do
  let v ← peekId
  let _ ← consumeN 4
  return v

/-- `Int32` and `Int`. -/
def int32 : Get Int32 := do
  let v ← uint32
  return v.toInt32

/-- `ConsumeID`: takes the word only if it is the expected one. -/
def consumeId (id : UInt32) : Get Unit := do
  let got ← peekId
  if got ≠ id then throw (.unexpectedId got)
  let _ ← consumeN 4

def uint64 : Get UInt64 := do
  let bs ← consumeN 8
  return UInt64.ofNat (ofLE bs)

def long : Get Int64 := do
  let v ← uint64
  return v.toInt64

/-- `GetInt128` and `GetInt256`. -/
def getArr (n : Nat) : Get (Arr n) := do
  let bs ← consumeN n
  return Arr.ofList n bs

/-- The header of a TL `bytes` value at the front of the buffer: its own length and the length of
the value. -/
def bytesHeaderLen : Bytes → Option (Nat × Nat)
  | [] => none
  | b0 :: rest =>
    if b0 = 254 then
      match rest with
      | b1 :: b2 :: b3 :: _ => some (4, b1.toNat + 256 * b2.toNat + 65536 * b3.toNat)
      | _ => none
    else some (1, b0.toNat)

/-- `GetBytes`. Every check is made before anything is taken. -/
def getBytes : Get Bytes := fun b =>
  match bytesHeaderLen b with
  | none => .error .bufferUnderrun b
  | some (headerLen, len) =>
    if b.length < headerLen + len then .error .bufferUnderrun b
    else
      let padded := nearestPaddedLength (headerLen + len)
      if b.length < padded then .error .bufferUnderrun b
      else .ok ((b.drop headerLen).take len) (b.drop padded)

def vectorHeader : Get Int32 := do
  consumeId typeVector
  int32

/-- A `for` loop that runs a reader `n` times. -/
def getTimes {α : Type} (x : Get α) : Nat → Get (List α)
  | 0 => pure []
  | n + 1 => do
    let a ← x
    let as ← getTimes x n
    return a :: as

/-! ## Reading where there are enough bytes -/

theorem consumeN_of_le {n : Nat} {b : Bytes} (h : n ≤ b.length) :
    consumeN n b = .ok (b.take n) (b.drop n) := by
  unfold consumeN
  rw [if_neg (Nat.not_lt.mpr h)]

theorem peekId_of_le {b : Bytes} (h : 4 ≤ b.length) :
    peekId b = .ok (UInt32.ofNat (ofLE (b.take 4))) b := by
  unfold peekId
  rw [if_neg (Nat.not_lt.mpr h)]

theorem int32_of_le {b : Bytes} (h : 4 ≤ b.length) : ∃ v, int32 b = .ok v (b.drop 4) := by
  refine ⟨(UInt32.ofNat (ofLE (b.take 4))).toInt32, ?_⟩
  have huint : uint32 b = .ok (UInt32.ofNat (ofLE (b.take 4))) (b.drop 4) := by
    rw [uint32, Get.bind_of_ok (peekId_of_le h), Get.bind_of_ok (consumeN_of_le h)]
    rfl
  rw [int32, Get.bind_of_ok huint]
  rfl

theorem long_of_le {b : Bytes} (h : 8 ≤ b.length) : ∃ v, long b = .ok v (b.drop 8) := by
  refine ⟨(UInt64.ofNat (ofLE (b.take 8))).toInt64, ?_⟩
  have huint : uint64 b = .ok (UInt64.ofNat (ofLE (b.take 8))) (b.drop 8) := by
    rw [uint64, Get.bind_of_ok (consumeN_of_le h)]
    rfl
  rw [long, Get.bind_of_ok huint]
  rfl

theorem peekId_eq_ok {b b' : Bytes} {id : UInt32} (h : peekId b = .ok id b') :
    4 ≤ b.length ∧ id = UInt32.ofNat (ofLE (b.take 4)) ∧ b' = b := by
  unfold peekId at h
  split at h
  · cases h
  · next hlen =>
    cases h
    exact ⟨Nat.not_lt.mp hlen, rfl, rfl⟩

theorem consumeId_of_peekId {b : Bytes} {id : UInt32} (h : peekId b = .ok id b) :
    consumeId id b = .ok () (b.drop 4) := by
  rw [consumeId, Get.bind_of_ok h, if_neg (fun hc => hc rfl)]
  exact Get.bind_of_ok (consumeN_of_le (peekId_eq_ok h).1)

/-! ## Every word is a value that was written -/

theorem putUint32_of_length {bs : Bytes} (h : bs.length = 4) : putUint32 (UInt32.ofNat (ofLE bs)) = bs := by
  have hlt : ofLE bs < 2 ^ 32 := by
    have := ofLE_lt bs
    rw [h] at this
    exact this
  rw [putUint32, UInt32.toNat_ofNat_of_lt' hlt, toLE_ofLE_of_length h]

theorem exists_putUint32 {b : Bytes} (h : 4 ≤ b.length) : ∃ v, b = putUint32 v ++ b.drop 4 := by
  refine ⟨UInt32.ofNat (ofLE (b.take 4)), ?_⟩
  rw [putUint32_of_length (List.length_take_of_le h), List.take_append_drop]

theorem exists_putInt32 {b : Bytes} (h : 4 ≤ b.length) : ∃ v, b = putInt32 v ++ b.drop 4 := by
  obtain ⟨v, hv⟩ := exists_putUint32 h
  refine ⟨v.toInt32, ?_⟩
  rw [putInt32, UInt32.toUInt32_toInt32]
  exact hv

theorem putLong_of_length {bs : Bytes} (h : bs.length = 8) : putLong (UInt64.ofNat (ofLE bs)).toInt64 = bs := by
  have hlt : ofLE bs < 2 ^ 64 := by
    have := ofLE_lt bs
    rw [h] at this
    exact this
  rw [putLong, UInt64.toUInt64_toInt64, putUint64, UInt64.toNat_ofNat_of_lt' hlt, toLE_ofLE_of_length h]

theorem exists_putLong {b : Bytes} (h : 8 ≤ b.length) : ∃ v, b = putLong v ++ b.drop 8 := by
  refine ⟨(UInt64.ofNat (ofLE (b.take 8))).toInt64, ?_⟩
  rw [putLong_of_length (List.length_take_of_le h), List.take_append_drop]

/-! ## Reading what was written -/

theorem consumeN_append {n : Nat} {v rest : Bytes} (h : v.length = n) :
    consumeN n (v ++ rest) = .ok v rest := by
  unfold consumeN
  rw [if_neg (by rw [List.length_append]; omega), List.take_left' h, List.drop_left' h]

theorem peekId_put (v : UInt32) (rest : Bytes) :
    peekId (putUint32 v ++ rest) = .ok v (putUint32 v ++ rest) := by
  have hv : ofLE (putUint32 v) = v.toNat := ofLE_toLE_of_lt (by simpa using v.toNat_lt)
  unfold peekId
  rw [if_neg (by simp), List.take_left' (length_putUint32 v), hv, UInt32.ofNat_toNat]

theorem uint32_put (v : UInt32) (rest : Bytes) : uint32 (putUint32 v ++ rest) = .ok v rest := by
  rw [uint32, Get.bind_of_ok (peekId_put v rest),
    Get.bind_of_ok (consumeN_append (length_putUint32 v))]
  rfl

theorem int32_put (v : Int32) (rest : Bytes) : int32 (putInt32 v ++ rest) = .ok v rest := by
  rw [int32, putInt32, Get.bind_of_ok (uint32_put _ rest), Int32.toInt32_toUInt32]
  rfl

theorem consumeId_put (id : UInt32) (rest : Bytes) : consumeId id (putId id ++ rest) = .ok () rest := by
  rw [consumeId, putId, Get.bind_of_ok (peekId_put id rest), if_neg (fun h => h rfl)]
  exact Get.bind_of_ok (consumeN_append (length_putUint32 id))

theorem uint64_put (v : UInt64) (rest : Bytes) : uint64 (putUint64 v ++ rest) = .ok v rest := by
  have hv : ofLE (putUint64 v) = v.toNat := ofLE_toLE_of_lt (by simpa using v.toNat_lt)
  rw [uint64, Get.bind_of_ok (consumeN_append (length_putUint64 v)), hv, UInt64.ofNat_toNat]
  rfl

theorem long_put (v : Int64) (rest : Bytes) : long (putLong v ++ rest) = .ok v rest := by
  rw [long, putLong, Get.bind_of_ok (uint64_put _ rest), Int64.toInt64_toUInt64]
  rfl

theorem getArr_put {n : Nat} (v : Arr n) (rest : Bytes) : getArr n (putArr v ++ rest) = .ok v rest := by
  rw [getArr, Get.bind_of_ok (consumeN_append (length_putArr v)), putArr, Arr.ofList_toList]
  rfl

/-- The header of a value shorter than `2 ^ 24` reads back, whatever follows it. -/
theorem bytesHeaderLen_put {l : Nat} (h : l < 2 ^ 24) (rest : Bytes) :
    bytesHeaderLen (bytesHeader l ++ rest) = some ((bytesHeader l).length, l) := by
  unfold bytesHeader
  by_cases hl : l ≤ 253
  · have hne : UInt8.ofNat l ≠ 254 := by
      intro hc
      have := congrArg UInt8.toNat hc
      simp at this
      omega
    have hmod : l % 256 = l := Nat.mod_eq_of_lt (by omega)
    simp [if_pos hl, bytesHeaderLen, hne, hmod]
  · simp [if_neg hl, bytesHeaderLen]
    omega

/-- `GetBytes` throws the same whichever check fails, or takes the header, the value and the padding. -/
theorem getBytes_cases (b : Bytes) :
    getBytes b = .error .bufferUnderrun b ∨
      ∃ headerLen len, bytesHeaderLen b = some (headerLen, len) ∧ nearestPaddedLength (headerLen + len) ≤ b.length ∧
        getBytes b = .ok ((b.drop headerLen).take len) (b.drop (nearestPaddedLength (headerLen + len))) := by
  unfold getBytes
  cases hheader : bytesHeaderLen b with
  | none => exact .inl rfl
  | some header =>
    obtain ⟨headerLen, len⟩ := header
    by_cases hshort : b.length < headerLen + len
    · exact .inl (if_pos hshort)
    · by_cases hpadded : b.length < nearestPaddedLength (headerLen + len)
      · exact .inl (by simp only [if_neg hshort, if_pos hpadded])
      · exact .inr ⟨headerLen, len, rfl, Nat.not_lt.mp hpadded, by simp only [if_neg hshort, if_neg hpadded]⟩

/-- **A TL `bytes` value shorter than `2 ^ 24` reads back and leaves what follows.** -/
theorem getBytes_put {v : Bytes} (h : v.length < 2 ^ 24) (rest : Bytes) :
    getBytes (putBytes v ++ rest) = .ok v rest := by
  have hlen := length_putBytes v
  have hle := le_nearestPaddedLength ((bytesHeader v.length).length + v.length)
  have hhead : bytesHeaderLen (putBytes v ++ rest) = some ((bytesHeader v.length).length, v.length) := by
    simp only [putBytes, List.append_assoc]
    exact bytesHeaderLen_put h _
  have htake : ((putBytes v ++ rest).drop (bytesHeader v.length).length).take v.length = v := by
    simp [putBytes, List.append_assoc]
  unfold getBytes
  rw [hhead]
  simp only [List.length_append]
  rw [if_neg (by omega), if_neg (by omega), htake, ← hlen, List.drop_left]

theorem vectorHeader_put (n : Nat) (rest : Bytes) :
    vectorHeader (putVectorHeader n ++ rest) = .ok (Int32.ofNat n) rest := by
  rw [vectorHeader, putVectorHeader, List.append_assoc, Get.bind_of_ok (consumeId_put _ _), int32_put]

/-- How often a loop over a vector goes round. -/
theorem vectorCount_of_lt {n : Nat} (h : n < 2 ^ 31) : (Int32.ofNat n).toInt.toNat = n := by
  rw [Int32.toInt_ofNat_of_lt h, Int.toNat_natCast]

/-! The same lemmas in front of a continuation. -/

section Bind

variable {β : Type} (rest : Bytes)

@[simp] theorem uint32_bind_put (f : UInt32 → Get β) (v : UInt32) :
    (uint32 >>= f) (putUint32 v ++ rest) = f v rest := Get.bind_of_ok (uint32_put v rest)

@[simp] theorem int32_bind_put (f : Int32 → Get β) (v : Int32) :
    (int32 >>= f) (putInt32 v ++ rest) = f v rest := Get.bind_of_ok (int32_put v rest)

@[simp] theorem consumeId_bind_put (f : Unit → Get β) (id : UInt32) :
    (consumeId id >>= f) (putId id ++ rest) = f () rest := Get.bind_of_ok (consumeId_put id rest)

@[simp] theorem long_bind_put (f : Int64 → Get β) (v : Int64) :
    (long >>= f) (putLong v ++ rest) = f v rest := Get.bind_of_ok (long_put v rest)

@[simp] theorem getArr_bind_put {n : Nat} (f : Arr n → Get β) (v : Arr n) :
    (getArr n >>= f) (putArr v ++ rest) = f v rest := Get.bind_of_ok (getArr_put v rest)

@[simp] theorem vectorHeader_bind_put (f : Int32 → Get β) (n : Nat) :
    (vectorHeader >>= f) (putVectorHeader n ++ rest) = f (Int32.ofNat n) rest :=
  Get.bind_of_ok (vectorHeader_put n rest)

theorem getBytes_bind_put (f : Bytes → Get β) {v : Bytes} (h : v.length < 2 ^ 24) :
    (getBytes >>= f) (putBytes v ++ rest) = f v rest := Get.bind_of_ok (getBytes_put h rest)

end Bind

/-! ## Vectors -/

/-- A vector: its header, and its elements one after another. -/
def putVector {α : Type} (put : α → Bytes) (as : List α) : Bytes := putVectorHeader as.length ++ as.flatMap put

def getVector {α : Type} (x : Get α) : Get (List α) := do
  let count ← vectorHeader
  getTimes x count.toInt.toNat

theorem Words.putVector {α : Type} {put : α → Bytes} {as : List α} (h : ∀ a ∈ as, Words (put a)) :
    Words (putVector put as) := (words_putVectorHeader as.length).append (Words.flatMap h)

section Vectors

variable {α β : Type} {x : Get β} {put : α → Bytes} {g : α → β}

theorem parses_getTimes : ∀ {as : List α}, (∀ a ∈ as, Parses x (put a) (g a)) →
    Parses (getTimes x as.length) (as.flatMap put) (as.map g)
  | [], _ => Parses.pure []
  | a :: as, h => by
    have ih := parses_getTimes fun a' ha => h a' (List.mem_cons_of_mem a ha)
    rw [List.flatMap_cons, List.length_cons, List.map_cons, getTimes]
    exact (h a List.mem_cons_self).bind ih.map

/-- A vector reads back element by element, as long as its length is one. -/
theorem parses_getVector {as : List α} (hcount : FitsVector as.length) (h : ∀ a ∈ as, Parses x (put a) (g a)) :
    Parses (getVector x) (putVector put as) (as.map g) := by
  refine Parses.bind (vectorHeader_put as.length) ?_
  rw [vectorCount_of_lt hcount]
  exact parses_getTimes h

end Vectors

end ShuzaGram.Mtproto

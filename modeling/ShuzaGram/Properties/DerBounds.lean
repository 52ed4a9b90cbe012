import ShuzaGram.Mtproto.Crypto.Der

/-!
# The bounds of the DER reader

`ReadInteger` checks that an INTEGER fits in the string by adding its length to the position, and both the length,
read from up to 127 octets, and the sum are cut to 64 bits. So a length that is cut to a small one is taken for it,
and a length near `2 ^ 64` passes the check: then the reader looks at a byte that may be behind the string before
the allocation is refused. Everything else that it reads is in bounds (`readerRight_iff`).

* `lengthHeader`, `integerHeader` — a header, with the length as the number that its octets spell
* `wraps` — an INTEGER on which the arithmetic goes wrong
* `Reads` — a read that gives what is there, or throws
-/

namespace ShuzaGram.Mtproto.Crypto

open Infra

namespace DerReader

/-! ## Headers -/

/-- How many octets a length has behind its first one. -/
def octetCount (first : UInt8) : Nat := (first &&& 0x7F).toNat

/-- The number that length octets spell, and what is behind them. -/
def lengthHeader : Bytes → Option (Nat × Bytes)
  | [] => none
  | first :: rest =>
    if first < 0x80 then some (first.toNat, rest)
    else if rest.length < octetCount first then none
    else some (ofBE (rest.take (octetCount first)), rest.drop (octetCount first))

/-- The length of an INTEGER, and what is behind its header. -/
def integerHeader : Bytes → Option (Nat × Bytes)
  | 0x02 :: rest => lengthHeader rest
  | _ => none

/-- What is behind the header of a SEQUENCE. -/
def sequenceBody : Bytes → Option Bytes
  | 0x30 :: rest => (lengthHeader rest).map Prod.snd
  | _ => none

/-- At most one leading zero byte removed. -/
def stripZero (bs : Bytes) : Bytes := if 1 < bs.length ∧ bs.head? = some 0 then bs.tail else bs

/-- The reader stands in front of `s`. -/
structure At (p : Bytes) (pos : UInt64) (s : Bytes) : Prop where
  le : pos.toNat ≤ p.length
  drop : p.drop pos.toNat = s

theorem At.length {p : Bytes} {pos : UInt64} {s : Bytes} (h : At p pos s) : pos.toNat + s.length = p.length := by
  have hle := h.le
  rw [← h.drop, List.length_drop]
  omega

/-! ## Reading -/

/-- `m` reads what `o` says: it throws on `none`, and gives the value and stands in front of the rest on `some`. -/
def Reads {α : Type} (p : Bytes) (m : DerReader α) (pos : UInt64) : Option (α × Bytes) → Prop
  | none => ∃ e pos', m pos = .error (.thrown e) pos'
  | some (a, s) => ∃ pos', m pos = .ok a pos' ∧ At p pos' s

section Compose

variable {α β : Type} {p : Bytes} {pos : UInt64} {m : DerReader α} {f : α → DerReader β}

/-- A program that runs as another one does reads what the other does. -/
theorem Reads.of_run {m' : DerReader α} {pos' : UInt64} {o : Option (α × Bytes)} (hm : Reads p m' pos' o)
    (hrun : m pos = m' pos') : Reads p m pos o := by
  rcases o with _ | ⟨a, s⟩
  · rcases hm with ⟨e, pos'', hm⟩
    exact ⟨e, pos'', hrun.trans hm⟩
  · rcases hm with ⟨pos'', hm, hat⟩
    exact ⟨pos'', hrun.trans hm, hat⟩

theorem bind_run {a : α} {pos' : UInt64} (hm : m pos = .ok a pos') : (m >>= f) pos = f a pos' := by
  show EStateM.bind m f pos = _
  rw [EStateM.bind, hm]

theorem Reads.bind_none (hm : Reads p m pos none) : Reads p (m >>= f) pos none := by
  rcases hm with ⟨e, pos', hm⟩
  refine ⟨e, pos', ?_⟩
  show EStateM.bind m f pos = _
  rw [EStateM.bind, hm]

theorem Reads.bind {a : α} {s : Bytes} (hm : Reads p m pos (some (a, s))) {o : Option (β × Bytes)}
    (hf : ∀ pos', At p pos' s → Reads p (f a) pos' o) : Reads p (m >>= f) pos o := by
  rcases hm with ⟨pos', hm, hat⟩
  have hrun : (m >>= f) pos = f a pos' := bind_run hm
  exact (hf pos' hat).of_run hrun

theorem reads_pure {s : Bytes} (h : At p pos s) (a : α) : Reads p (pure a) pos (some (a, s)) := ⟨pos, rfl, h⟩

theorem reads_throw (e : Exn) : Reads p (throw (.thrown e) : DerReader α) pos none := ⟨e, pos, rfl⟩

end Compose

section Reader

variable {p : Bytes} (hp : p.length < 2 ^ 63)

include hp

theorem toNat_len : (len p).toNat = p.length := UInt64.toNat_ofNat_of_lt' (Nat.lt_trans hp (by decide))

/-- Behind `n` of the bytes that are left. -/
theorem At.advance {pos : UInt64} {s : Bytes} (h : At p pos s) {n : UInt64} (hn : n.toNat ≤ s.length) :
    At p (pos + n) (s.drop n.toNat) := by
  have hlen := h.length
  have hsum : (pos + n).toNat = pos.toNat + n.toNat := by
    rw [UInt64.toNat_add]
    exact Nat.mod_eq_of_lt (by omega)
  exact ⟨by omega, by rw [hsum, ← List.drop_drop, h.drop]⟩

theorem readTag_nil {pos : UInt64} (h : At p pos []) : Reads p (readTag p) pos none := by
  have hlen := h.length
  have hend : pos ≥ len p := by
    rw [ge_iff_le, UInt64.le_iff_toNat_le, toNat_len hp]
    simpa using hlen.ge
  refine ⟨.runtimeError "DER: unexpected end reading tag", pos, ?_⟩
  show (if pos ≥ len p then _ else _ : DerReader UInt8) pos = _
  rw [if_pos hend]
  rfl

theorem readTag_cons {pos : UInt64} {b : UInt8} {s : Bytes} (h : At p pos (b :: s)) :
    Reads p (readTag p) pos (some (b, s)) := by
  have hlen := h.length
  have hin : ¬pos ≥ len p := by
    rw [ge_iff_le, UInt64.le_iff_toNat_le, toNat_len hp]
    simp only [List.length_cons] at hlen
    omega
  have hbyte : p[pos.toNat]? = some b := by
    rw [← List.head?_drop, h.drop]
    rfl
  have hread : byteAt p pos = pure b := by rw [byteAt, hbyte]
  have hone : (1 : UInt64).toNat ≤ (b :: s).length := by simp
  refine ⟨pos + 1, ?_, h.advance hp hone⟩
  show (if pos ≥ len p then _ else _ : DerReader UInt8) pos = _
  rw [if_neg hin]
  show (byteAt p pos >>= _) pos = _
  rw [hread]
  rfl

/-! ## Lengths -/

omit hp in
/-- One more octet of a number. -/
theorem shiftLeft_or_octet (k : Nat) (b : UInt8) :
    ((UInt64.ofNat k <<< 8) ||| b.toUInt64) = UInt64.ofNat (256 * k + b.toNat) := by
  have hshift : UInt64.ofNat k <<< 8 = UInt64.ofNat (k <<< 8) := (UInt64.ofNat_shiftLeft k 8 (by decide)).symm
  rw [hshift, ← UInt64.ofNat_uInt8ToNat, ← UInt64.ofNat_or, ← Nat.shiftLeft_add_eq_or_of_lt b.toNat_lt, Nat.shiftLeft_eq,
    Nat.mul_comm]

/-- **The octets that are there are read as a number**, cut to 64 bits. -/
theorem reads_octets {n k : Nat} {pos : UInt64} {s : Bytes} (h : At p pos s) :
    Reads p (readOctets p n (UInt64.ofNat k)) pos
      (if s.length < n then none else some (UInt64.ofNat (256 ^ n * k + ofBE (s.take n)), s.drop n)) := by
  -- Induction on the octets, from any accumulator: it loses its highest byte with each of them.
  induction n generalizing k pos s with
  | zero =>
    have hzero : 256 ^ 0 * k + ofBE (s.take 0) = k := by simp [ofBE, ofLE]
    rw [if_neg (Nat.not_lt_zero _), hzero]
    exact reads_pure h _
  | succ n ih =>
    cases s with
    | nil =>
      have hshort : ([] : Bytes).length < n + 1 := Nat.succ_pos n
      rw [if_pos hshort]
      exact (readTag_nil hp h).bind_none
    | cons b s =>
      refine (readTag_cons hp h).bind fun pos' h' => ?_
      have hnext := ih (k := 256 * k + b.toNat) h'
      rw [← shiftLeft_or_octet] at hnext
      by_cases hshort : s.length < n
      · have hshort' : (b :: s).length < n + 1 := Nat.succ_lt_succ hshort
        rw [if_pos hshort']
        rwa [if_pos hshort] at hnext
      · have hlong : ¬(b :: s).length < n + 1 := fun hlt => hshort (Nat.lt_of_succ_lt_succ hlt)
        have htake : (s.take n).length = n := List.length_take_of_le (Nat.le_of_not_lt hshort)
        have hvalue : 256 ^ (n + 1) * k + ofBE ((b :: s).take (n + 1)) =
            256 ^ n * (256 * k + b.toNat) + ofBE (s.take n) := by
          rw [List.take_succ_cons, ofBE_cons, htake]
          ring
        rw [if_neg hlong, hvalue, List.drop_succ_cons]
        rwa [if_neg hshort] at hnext

/-- **A length is the number that its octets spell**, cut to 64 bits. -/
theorem reads_length {pos : UInt64} {s : Bytes} (h : At p pos s) :
    Reads p (readLength p) pos ((lengthHeader s).map fun header => (UInt64.ofNat header.1, header.2)) := by
  cases s with
  | nil => exact (readTag_nil hp h).bind_none
  | cons first rest =>
    refine (readTag_cons hp h).bind fun pos' h' => ?_
    by_cases hshort : first < 0x80
    · rw [if_pos hshort, lengthHeader, if_pos hshort, ← UInt64.ofNat_uInt8ToNat]
      exact reads_pure h' _
    · have hoctets := reads_octets hp (n := octetCount first) (k := 0) h'
      rw [Nat.mul_zero, Nat.zero_add] at hoctets
      rw [if_neg hshort, lengthHeader, if_neg hshort]
      by_cases hlt : rest.length < octetCount first
      · rw [if_pos hlt] at hoctets ⊢
        exact hoctets
      · rw [if_neg hlt] at hoctets ⊢
        exact hoctets

theorem reads_sequence {pos : UInt64} {s : Bytes} (h : At p pos s) :
    Reads p (enterSequence p) pos ((sequenceBody s).map fun body => ((), body)) := by
  cases s with
  | nil => exact (readTag_nil hp h).bind_none
  | cons tag rest =>
    refine (readTag_cons hp h).bind fun pos' h' => ?_
    by_cases htag : tag = 0x30
    · rw [htag, if_neg (not_not_intro rfl)]
      have hlength := reads_length hp h'
      show Reads p (readLength p >>= _) pos' (((lengthHeader rest).map Prod.snd).map _)
      rcases hheader : lengthHeader rest with _ | ⟨L, body⟩
      · rw [hheader] at hlength
        exact hlength.bind_none
      · rw [hheader] at hlength
        exact hlength.bind fun pos'' h'' => reads_pure h'' ()
    · rw [if_pos htag, sequenceBody]
      · exact (reads_throw _).bind_none
      · exact fun rest' heq => htag (List.cons.inj heq).1

/-! ## Integers -/

omit hp in
/-- `ReadInteger` behind the header. -/
def readContents (p : Bytes) (len' : UInt64) : DerReader Bytes := do
  let pos ← get
  if pos + len' > len p then throw (.thrown (.runtimeError "DER: INTEGER length exceeds buffer"))
  let out ← if ← leadsWithZero p pos len' then bytesFrom p (pos + 1) (len' - 1) else bytesFrom p pos len'
  set (pos + len')
  return out

theorem readInteger_of_header_none {pos : UInt64} {s : Bytes} (h : At p pos s) (hheader : integerHeader s = none) :
    Reads p (readInteger p) pos none := by
  cases s with
  | nil => exact (readTag_nil hp h).bind_none
  | cons tag rest =>
    refine (readTag_cons hp h).bind fun pos' h' => ?_
    by_cases htag : tag = 0x02
    · have hlength := reads_length hp h'
      rw [htag] at hheader ⊢
      have hnone : lengthHeader rest = none := hheader
      rw [hnone] at hlength
      rw [if_neg (not_not_intro rfl)]
      exact hlength.bind_none
    · rw [if_pos htag]
      exact (reads_throw _).bind_none

theorem readInteger_of_header_some {pos : UInt64} {s : Bytes} (h : At p pos s) {L : Nat} {body : Bytes}
    (hheader : integerHeader s = some (L, body)) :
    ∃ pos', readInteger p pos = readContents p (UInt64.ofNat L) pos' ∧ At p pos' body := by
  cases s with
  | nil => cases hheader
  | cons tag rest =>
    by_cases htag : tag = 0x02
    · rw [htag] at hheader h
      have hsome : lengthHeader rest = some (L, body) := hheader
      rcases readTag_cons hp h with ⟨pos₁, htagRun, hat₁⟩
      have hlength := reads_length hp hat₁
      rw [hsome] at hlength
      rcases hlength with ⟨pos₂, hlengthRun, hat₂⟩
      refine ⟨pos₂, ?_, hat₂⟩
      calc readInteger p pos = (readLength p >>= readContents p) pos₁ := bind_run htagRun
        _ = readContents p (UInt64.ofNat L) pos₂ := bind_run hlengthRun
    · rw [integerHeader] at hheader
      · cases hheader
      · exact fun rest' heq => htag (List.cons.inj heq).1

omit hp in
theorem leadsWithZero_eq {pos : UInt64} {s : Bytes} (h : At p pos s) {n : UInt64} (hn : 1 < n → s ≠ []) :
    leadsWithZero p pos n = pure (decide (1 < n ∧ s.head? = some 0)) := by
  by_cases hone : 1 < n
  · cases s with
    | nil => exact absurd rfl (hn hone)
    | cons b s =>
      have hbyte : p[pos.toNat]? = some b := by
        rw [← List.head?_drop, h.drop]
        rfl
      rw [leadsWithZero, if_pos hone, byteAt, hbyte]
      simp [hone]
  · rw [leadsWithZero, if_neg hone]
    simp [hone]

/-- Bytes that are there are read as they are. -/
theorem bytesFrom_eq {pos : UInt64} {s : Bytes} (h : At p pos s) {n : UInt64} (hn : n.toNat ≤ s.length) :
    bytesFrom p pos n = pure (s.take n.toNat) := by
  have hlen := h.length
  have hsmall : ¬0x8000000000000000 ≤ n := by
    simp only [UInt64.le_iff_toNat_le, UInt64.reduceToNat]
    omega
  have hin : ¬p.length < pos.toNat + n.toNat := by omega
  rw [bytesFrom, if_neg hsmall, if_neg hin, h.drop]

omit hp in
/-- Whether the contents lose a byte. -/
theorem stripZero_take {n : UInt64} {body : Bytes} (hn : n.toNat ≤ body.length) :
    stripZero (body.take n.toNat) =
      if 1 < n ∧ body.head? = some 0 then (body.drop 1).take (n - 1).toNat else body.take n.toNat := by
  have htake : (body.take n.toNat).length = n.toNat := List.length_take_of_le hn
  have hiff : 1 < n ↔ 1 < n.toNat := UInt64.lt_iff_toNat_lt
  rw [stripZero, htake]
  by_cases hone : 1 < n.toNat
  · have hle : (1 : UInt64) ≤ n := UInt64.le_iff_toNat_le.mpr (Nat.le_of_lt hone)
    have hpred : (n - 1).toNat = n.toNat - 1 := UInt64.toNat_sub_of_le n 1 hle
    rw [hpred, List.head?_take, if_neg (Nat.ne_of_gt (Nat.zero_lt_of_lt hone)), ← List.drop_one, List.drop_take]
    simp only [hiff]
  · simp [hiff, hone]

/-- **An INTEGER that fits** is read, less a leading zero byte. -/
theorem reads_contents {pos : UInt64} {body : Bytes} (h : At p pos body) {n : UInt64} (hn : n.toNat ≤ body.length) :
    Reads p (readContents p n) pos (some (stripZero (body.take n.toNat), body.drop n.toNat)) := by
  have hlen := h.length
  have hsum : (pos + n).toNat = pos.toNat + n.toNat := by
    rw [UInt64.toNat_add]
    exact Nat.mod_eq_of_lt (by omega)
  have hfits : ¬pos + n > len p := by
    rw [gt_iff_lt, UInt64.lt_iff_toNat_lt, toNat_len hp, hsum]
    omega
  have hlead : leadsWithZero p pos n = pure (decide (1 < n ∧ body.head? = some 0)) := by
    refine leadsWithZero_eq h fun hone hnil => ?_
    rw [UInt64.lt_iff_toNat_lt] at hone
    rw [hnil] at hn
    exact absurd (Nat.lt_of_lt_of_le hone hn) (by simp)
  -- The check passes because neither side is cut.
  refine ⟨pos + n, ?_, h.advance hp hn⟩
  show (if pos + n > len p then _ else _ : DerReader Bytes) pos = _
  rw [if_neg hfits]
  show (leadsWithZero p pos n >>= _) pos = _
  rw [hlead, pure_bind, stripZero_take hn]
  by_cases hzero : 1 < n ∧ body.head? = some 0
  · have hone : (1 : UInt64).toNat ≤ n.toNat := Nat.le_of_lt (UInt64.lt_iff_toNat_lt.mp hzero.1)
    have hpred : (n - 1).toNat = n.toNat - 1 := UInt64.toNat_sub_of_le n 1 (UInt64.le_iff_toNat_le.mpr hone)
    have hrest : (n - 1).toNat ≤ (body.drop 1).length := by
      rw [hpred, List.length_drop]
      exact Nat.sub_le_sub_right hn 1
    rw [if_pos (by simpa using hzero), if_pos hzero, bytesFrom_eq hp (h.advance hp (hone.trans hn)) hrest]
    rfl
  · rw [if_neg (by simpa using hzero), if_neg hzero, bytesFrom_eq hp h hn]
    rfl

/-- A length behind the end of the string is refused, where its sum with the position is not cut. -/
theorem readContents_of_long {pos : UInt64} {body : Bytes} (h : At p pos body) {n : UInt64}
    (hn : body.length < n.toNat) (hsum : pos.toNat + n.toNat < 2 ^ 64) : Reads p (readContents p n) pos none := by
  have hlen := h.length
  have hlong : pos + n > len p := by
    rw [gt_iff_lt, UInt64.lt_iff_toNat_lt, toNat_len hp, UInt64.toNat_add, Nat.mod_eq_of_lt hsum]
    omega
  refine ⟨.runtimeError "DER: INTEGER length exceeds buffer", pos, ?_⟩
  show (if pos + n > len p then _ else _ : DerReader Bytes) pos = _
  rw [if_pos hlong]
  rfl

/-- A length whose sum with the position is cut passes the check. -/
theorem not_gt_len_of_wrap {pos n : UInt64} (hpos : pos.toNat ≤ p.length) (hsum : 2 ^ 64 ≤ pos.toNat + n.toNat) :
    ¬pos + n > len p := by
  have hn := n.toNat_lt
  rw [gt_iff_lt, UInt64.lt_iff_toNat_lt, toNat_len hp, UInt64.toNat_add, Nat.mod_eq_sub_mod hsum,
    Nat.mod_eq_of_lt (by omega)]
  omega

/-- Such a length is refused by the allocation, if there is a byte to look at before it. -/
theorem readContents_of_wrap {pos : UInt64} {body : Bytes} (h : At p pos body) {n : UInt64}
    (hsum : 2 ^ 64 ≤ pos.toNat + n.toNat) (hbody : body ≠ []) : Reads p (readContents p n) pos none := by
  have hlen := h.length
  have hhuge : 2 ^ 63 < n.toNat := by omega
  have hfull : ∀ start, bytesFrom p start n = throw (.thrown .lengthError) := by
    intro start
    have hle : 0x8000000000000000 ≤ n := by
      simp only [UInt64.le_iff_toNat_le, UInt64.reduceToNat]
      omega
    rw [bytesFrom, if_pos hle]
  have hstripped : ∀ start, bytesFrom p start (n - 1) = throw (.thrown .lengthError) := by
    intro start
    have hone : (1 : UInt64) ≤ n := UInt64.le_iff_toNat_le.mpr (Nat.le_trans (by decide) (Nat.le_of_lt hhuge))
    have hpred : (n - 1).toNat = n.toNat - 1 := UInt64.toNat_sub_of_le n 1 hone
    have hle : 0x8000000000000000 ≤ n - 1 := by
      simp only [UInt64.le_iff_toNat_le, UInt64.reduceToNat, hpred]
      omega
    rw [bytesFrom, if_pos hle]
  refine ⟨.lengthError, pos, ?_⟩
  show (if pos + n > len p then _ else _ : DerReader Bytes) pos = _
  rw [if_neg (not_gt_len_of_wrap hp h.le hsum)]
  show (leadsWithZero p pos n >>= _) pos = _
  rw [leadsWithZero_eq h fun _ => hbody, pure_bind]
  -- Stripping a zero leaves a size that is as negative.
  by_cases hzero : 1 < n ∧ body.head? = some 0
  · rw [if_pos (by simpa using hzero), hstripped]
    rfl
  · rw [if_neg (by simpa using hzero), hfull]
    rfl

/-- At the end of the string the byte that is looked at is not there. -/
theorem readContents_outOfBounds {pos : UInt64} (h : At p pos []) {n : UInt64}
    (hsum : 2 ^ 64 ≤ pos.toNat + n.toNat) : readContents p n pos = .error (.outOfBounds pos) pos := by
  have hlen := h.length
  have hone : 1 < n := by
    simp only [UInt64.lt_iff_toNat_lt, UInt64.reduceToNat]
    have hle := h.le
    omega
  have hbyte : p[pos.toNat]? = none := by
    rw [← List.head?_drop, h.drop]
    rfl
  show (if pos + n > len p then _ else _ : DerReader Bytes) pos = _
  rw [if_neg (not_gt_len_of_wrap hp h.le hsum)]
  show (leadsWithZero p pos n >>= _) pos = _
  rw [leadsWithZero, if_pos hone, byteAt, hbyte]
  rfl

end Reader

/-! ## Right readings -/

/-- No index was read that the string does not have. -/
def InBounds {α : Type} (r : EStateM.Result DerStop UInt64 α) : Prop := ∀ i pos', r ≠ .error (.outOfBounds i) pos'

/-- `ReadInteger` at `pos` stays in bounds, and what it returns is the contents of an INTEGER whose length, as its
octets spell it, fits in the string, less at most one leading zero byte; it then stands behind them. -/
structure IntegerRight (p : Bytes) (pos : UInt64) : Prop where
  inBounds : InBounds (readInteger p pos)
  fits : ∀ {v pos'}, readInteger p pos = .ok v pos' → ∃ L body, integerHeader (p.drop pos.toNat) = some (L, body) ∧
    L ≤ body.length ∧ v = stripZero (body.take L) ∧ At p pos' (body.drop L)

/-- `EnterSequence` and two calls of `ReadInteger` are right. -/
structure ReaderRight (p : Bytes) : Prop where
  sequence : InBounds (enterSequence p 0)
  first : ∀ {pos}, enterSequence p 0 = .ok () pos → IntegerRight p pos
  second : ∀ {pos v pos'}, enterSequence p 0 = .ok () pos → readInteger p pos = .ok v pos' → IntegerRight p pos'

/-- An INTEGER on which the arithmetic goes wrong, at the head of `s`, which ends a string of `total` bytes: its
length is cut to one that fits, or it ends the string and its length passes the check. -/
def wraps (total : Nat) (s : Bytes) : Bool :=
  match integerHeader s with
  | none => false
  | some (L, body) =>
    (2 ^ 64 ≤ L && L % 2 ^ 64 ≤ body.length) || (body.isEmpty && 2 ^ 64 ≤ total + L % 2 ^ 64)

/-- What is behind the INTEGER at the head of `s`, if it fits. -/
def integerRest (s : Bytes) : Option Bytes :=
  (integerHeader s).bind fun header => if header.1 ≤ header.2.length then some (header.2.drop header.1) else none

/-- The arithmetic goes wrong on neither INTEGER that is reached. -/
def noWrap (p : Bytes) : Bool :=
  (sequenceBody p).all fun s => !wraps p.length s && (integerRest s).all fun rest => !wraps p.length rest

theorem wraps_eq_false_iff {total : Nat} {s : Bytes} {L : Nat} {body : Bytes}
    (hheader : integerHeader s = some (L, body)) :
    wraps total s = false ↔
      (2 ^ 64 ≤ L → body.length < L % 2 ^ 64) ∧ (body = [] → total + L % 2 ^ 64 < 2 ^ 64) := by
  simp [wraps, hheader]

theorem Reads.inBounds {α : Type} {p : Bytes} {m : DerReader α} {pos : UInt64} {o : Option (α × Bytes)}
    (h : Reads p m pos o) : InBounds (m pos) := by
  intro i pos' hrun
  rcases o with _ | ⟨a, s⟩
  · rcases h with ⟨e, pos'', h⟩
    cases h.symm.trans hrun
  · rcases h with ⟨pos'', h, -⟩
    cases h.symm.trans hrun

theorem Reads.not_ok {α : Type} {p : Bytes} {m : DerReader α} {pos : UInt64} (h : Reads p m pos none) {a : α}
    {pos' : UInt64} : m pos ≠ .ok a pos' := by
  intro hrun
  rcases h with ⟨e, pos'', h⟩
  cases h.symm.trans hrun

section Right

variable {p : Bytes} (hp : p.length < 2 ^ 63)

include hp

omit hp in
theorem IntegerRight.of_refused {pos : UInt64} (h : Reads p (readInteger p) pos none) : IntegerRight p pos :=
  ⟨h.inBounds, fun hrun => absurd hrun h.not_ok⟩

/-- An INTEGER is read as its cut length says, if that fits. -/
theorem reads_integer {pos : UInt64} {s : Bytes} (h : At p pos s) {L : Nat} {body : Bytes}
    (hheader : integerHeader s = some (L, body)) (hfits : L % 2 ^ 64 ≤ body.length) :
    Reads p (readInteger p) pos (some (stripZero (body.take (L % 2 ^ 64)), body.drop (L % 2 ^ 64))) := by
  rcases readInteger_of_header_some hp h hheader with ⟨pos₁, hrun, hat⟩
  have hcut : (UInt64.ofNat L).toNat = L % 2 ^ 64 := UInt64.toNat_ofNat'
  rw [← hcut] at hfits ⊢
  exact (reads_contents hp hat hfits).of_run hrun

theorem mod_eq_of_header {pos : UInt64} {s : Bytes} (h : At p pos s) {L : Nat} {body : Bytes}
    (hheader : integerHeader s = some (L, body)) (hle : L ≤ body.length) : L % 2 ^ 64 = L := by
  rcases readInteger_of_header_some hp h hheader with ⟨pos₁, -, hat⟩
  have hlen := hat.length
  exact Nat.mod_eq_of_lt (by omega)

/-- An INTEGER whose cut length fits is read right if it was not cut. -/
theorem integerRight_iff_le {pos : UInt64} {s : Bytes} (h : At p pos s) {L : Nat} {body : Bytes}
    (hheader : integerHeader s = some (L, body)) (hfits : L % 2 ^ 64 ≤ body.length) :
    IntegerRight p pos ↔ L ≤ body.length := by
  have hread := reads_integer hp h hheader hfits
  constructor
  · intro hright
    rcases hread with ⟨pos', hok, -⟩
    rcases hright.fits hok with ⟨L', body', hheader', hle, -⟩
    rw [h.drop, hheader] at hheader'
    cases hheader'
    exact hle
  · intro hle
    rw [mod_eq_of_header hp h hheader hle] at hread
    refine ⟨hread.inBounds, fun hok => ?_⟩
    rcases hread with ⟨pos', hok', hat⟩
    cases hok'.symm.trans hok
    exact ⟨L, body, by rw [h.drop, hheader], hle, rfl, hat⟩

/-- **An INTEGER is read right** exactly where its arithmetic does not go wrong. -/
theorem integerRight_iff_wraps {pos : UInt64} {s : Bytes} (h : At p pos s) :
    IntegerRight p pos ↔ wraps p.length s = false := by
  rcases hheader : integerHeader s with _ | ⟨L, body⟩
  · have hrefused := readInteger_of_header_none hp h hheader
    simp [wraps, hheader, IntegerRight.of_refused hrefused]
  rcases readInteger_of_header_some hp h hheader with ⟨pos₁, hrun, hat⟩
  have hlen := hat.length
  have hcut : (UInt64.ofNat L).toNat = L % 2 ^ 64 := UInt64.toNat_ofNat'
  rw [wraps_eq_false_iff hheader]
  -- The cut length fits, or its sum with the position is cut as well, or the check refuses it.
  by_cases hfits : L % 2 ^ 64 ≤ body.length
  · rw [integerRight_iff_le hp h hheader hfits]
    constructor
    · exact fun hle => ⟨by omega, fun hnil => by omega⟩
    · rintro ⟨hbig, -⟩
      have hsmall : L < 2 ^ 64 := Nat.lt_of_not_le fun hge => Nat.not_lt.mpr hfits (hbig hge)
      rwa [Nat.mod_eq_of_lt hsmall] at hfits
  have hlong : body.length < (UInt64.ofNat L).toNat := by rwa [hcut, ← Nat.not_le]
  by_cases hsum : 2 ^ 64 ≤ pos₁.toNat + (UInt64.ofNat L).toNat
  · by_cases hbody : body = []
    · rw [hbody] at hat
      have hbad : readInteger p pos = .error (.outOfBounds pos₁) pos₁ :=
        hrun.trans (readContents_outOfBounds hp hat hsum)
      constructor
      · exact fun hright => absurd hbad (hright.inBounds _ _)
      · rintro ⟨-, hend⟩
        have hend' := hend hbody
        rw [hbody, List.length_nil] at hlen
        omega
    · have hrefused := (readContents_of_wrap hp hat hsum hbody).of_run hrun
      exact ⟨fun _ => ⟨fun _ => Nat.lt_of_not_le hfits, fun hnil => absurd hnil hbody⟩,
        fun _ => IntegerRight.of_refused hrefused⟩
  · have hrefused := (readContents_of_long hp hat hlong (Nat.lt_of_not_le hsum)).of_run hrun
    constructor
    · refine fun _ => ⟨fun _ => Nat.lt_of_not_le hfits, fun hnil => ?_⟩
      rw [hnil, List.length_nil] at hlen
      omega
    · exact fun _ => IntegerRight.of_refused hrefused

/-- Where the next INTEGER is read, after one that is read right. -/
theorem IntegerRight.next {pos : UInt64} {s : Bytes} (hright : IntegerRight p pos) (h : At p pos s) :
    match integerRest s with
    | none => ∀ v pos', readInteger p pos ≠ .ok v pos'
    | some rest => ∃ v, Reads p (readInteger p) pos (some (v, rest)) := by
  rcases hheader : integerHeader s with _ | ⟨L, body⟩
  · rw [integerRest, hheader]
    exact fun v pos' => (readInteger_of_header_none hp h hheader).not_ok
  by_cases hle : L ≤ body.length
  · have hsmall := mod_eq_of_header hp h hheader hle
    have hread := reads_integer hp h hheader (by rwa [hsmall])
    rw [hsmall] at hread
    rw [integerRest, hheader, Option.bind_some, if_pos hle]
    exact ⟨_, hread⟩
  · rw [integerRest, hheader, Option.bind_some, if_neg hle]
    intro v pos' hok
    rcases hright.fits hok with ⟨L', body', hheader', hle', -⟩
    rw [h.drop, hheader] at hheader'
    cases hheader'
    exact hle hle'

theorem readerRight_iff_noWrap : ReaderRight p ↔ noWrap p = true := by
  have hstart : At p 0 p := ⟨Nat.zero_le _, rfl⟩
  have hsequence := reads_sequence hp hstart
  rcases hbody : sequenceBody p with _ | s
  · rw [hbody] at hsequence
    have hright : ReaderRight p := ⟨hsequence.inBounds, fun hrun => absurd hrun hsequence.not_ok,
      fun hrun => absurd hrun hsequence.not_ok⟩
    simp [noWrap, hbody, hright]
  rw [hbody] at hsequence
  have hbounds := hsequence.inBounds
  rcases hsequence with ⟨pos, henter, hat⟩
  -- The run is fixed by the string, so the two INTEGERs stand at known places.
  have hsplit : ReaderRight p ↔
      IntegerRight p pos ∧ ∀ v pos', readInteger p pos = .ok v pos' → IntegerRight p pos' := by
    constructor
    · exact fun hright => ⟨hright.first henter, fun v pos' hok => hright.second henter hok⟩
    · rintro ⟨hfirst, hsecond⟩
      refine ⟨hbounds, fun henter' => ?_, fun henter' hok => ?_⟩
      · cases henter.symm.trans henter'
        exact hfirst
      · cases henter.symm.trans henter'
        exact hsecond _ _ hok
  rw [hsplit, integerRight_iff_wraps hp hat]
  simp only [noWrap, hbody, Option.all_some, Bool.and_eq_true, Bool.not_eq_true']
  refine and_congr_right fun hfirst => ?_
  have hnext := ((integerRight_iff_wraps hp hat).mpr hfirst).next hp hat
  rcases hrest : integerRest s with _ | rest
  · rw [hrest] at hnext
    simp [hnext]
  · rw [hrest] at hnext
    rcases hnext with ⟨v, pos', hok, hat'⟩
    simp [hok, integerRight_iff_wraps hp hat']

end Right

theorem InBounds.bind {α β : Type} {m : DerReader α} {f : α → DerReader β} {pos : UInt64} (hm : InBounds (m pos))
    (hf : ∀ a pos', m pos = .ok a pos' → InBounds (f a pos')) : InBounds ((m >>= f) pos) := by
  show InBounds (EStateM.bind m f pos)
  rw [EStateM.bind]
  cases hrun : m pos with
  | ok a pos' => exact hf a pos' hrun
  | error e pos' =>
    intro i pos'' hbad
    cases hbad
    exact hm i pos' hrun

/-- Where the reader is right, a key is read in bounds. -/
theorem ReaderRight.readPublicKey_inBounds {p : Bytes} (h : ReaderRight p) : InBounds (readPublicKey p 0) := by
  refine h.sequence.bind fun _ pos henter => ?_
  refine (h.first henter).inBounds.bind fun n pos' hn => ?_
  refine (h.second henter hn).inBounds.bind fun e pos'' he => ?_
  intro i _ hbad
  cases hbad

/-- **The reader is right** exactly where the arithmetic goes wrong on neither INTEGER that it reaches; there a whole
key is read in bounds. -/
theorem readerRight_iff {p : Bytes} (hp : p.length < 2 ^ 63) :
    (ReaderRight p ↔ noWrap p = true) ∧ (noWrap p = true → InBounds (readPublicKey p 0)) := by
  have hiff := readerRight_iff_noWrap hp
  exact ⟨hiff, fun hno => (hiff.mpr hno).readPublicKey_inBounds⟩

/-- A key with the modulus 5 and the exponent 3 is read right. -/
theorem readerRight_iff_smallKey : ReaderRight [0x30, 6, 0x02, 1, 5, 0x02, 1, 3] ∧
    InBounds (readPublicKey [0x30, 6, 0x02, 1, 5, 0x02, 1, 3] 0) := by
  obtain ⟨hiff, hkey⟩ := readerRight_iff (p := [0x30, 6, 0x02, 1, 5, 0x02, 1, 3]) (by decide)
  have hno : noWrap [0x30, 6, 0x02, 1, 5, 0x02, 1, 3] = true := by decide +kernel
  exact ⟨hiff.mpr hno, hkey hno⟩

/-- A SEQUENCE that ends in the header of an INTEGER of `2 ^ 64 - 1` bytes. -/
def endsInHeader : Bytes := [0x30, 0, 0x02, 0x88] ++ List.replicate 8 0xFF

/-- A SEQUENCE with an INTEGER of `2 ^ 64 + 1` bytes, of which one is there. -/
def cutLength : Bytes := [0x30, 0, 0x02, 0x89, 1, 0, 0, 0, 0, 0, 0, 0, 1, 0x2A]

/-- The byte behind the first of them is looked at, and the second one is read as the one byte that it has. -/
theorem reader_wrong : ¬ReaderRight endsInHeader ∧ ¬ReaderRight cutLength := by
  constructor
  · intro hright
    have hrun : readInteger endsInHeader 2 = .error (.outOfBounds 12) 12 := rfl
    exact (hright.first rfl).inBounds _ _ hrun
  · intro hright
    have hrun : readInteger cutLength 2 = .ok [0x2A] 14 := rfl
    rcases (hright.first rfl).fits hrun with ⟨L, body, hheader, hle, -⟩
    have hlength : integerHeader (cutLength.drop 2) = some (2 ^ 64 + 1, [0x2A]) := rfl
    cases hlength.symm.trans hheader
    exact absurd hle (by decide)

end DerReader

end ShuzaGram.Mtproto.Crypto

import ShuzaGram.Infra.ShiftRegister
import ShuzaGram.Mtproto.Transport.Full

/-!
# The checksum of a frame

`Crc32Ieee` takes a byte at a time from a table. It is the remainder of the bit-by-bit division, fed with the bits
of the bytes from the lowest on (`crc32Ieee_eq_crc32Bitwise`). The polynomial has the highest bit, so the register never
forgets a difference: two strings that differ in one byte have different checksums, and a frame in which a bit was
flipped behind its length is refused.
-/

namespace ShuzaGram.Mtproto.Transport

open Infra ByteStream ShiftRegister

/-! ## Bit by bit -/

def crc32Polynomial : BitVec 32 := 0xEDB88320#32

/-- The bits of a message, each byte from its lowest bit on. -/
def messageBits (data : Bytes) : List Bool := data.flatMap fun b => lowBits 8 b.toBitVec

/-- The reflected CRC-32, bit by bit: the register starts with ones, and is inverted at the end. -/
def crc32Bitwise (data : Bytes) : UInt32 :=
  ⟨(messageBits data).foldl (feed crc32Polynomial) 0xFFFFFFFF#32 ^^^ 0xFFFFFFFF#32⟩

/-- A byte added to the register, and eight shifts. -/
def shiftByte (c : BitVec 32) (b : UInt8) : BitVec 32 := (step crc32Polynomial)^[8] (c ^^^ b.toBitVec.setWidth 32)

theorem crc32Bit_toBitVec (c : UInt32) : (crc32Bit c).toBitVec = step crc32Polynomial c.toBitVec := by
  have hlow : c &&& 1 = 0 ↔ c.toBitVec.getLsbD 0 = false := by
    rw [← UInt32.toNat_inj, UInt32.toNat_and]
    show c.toNat &&& 1 = 0 ↔ c.toNat.testBit 0 = false
    rw [Nat.and_one_is_mod, Nat.testBit_zero, decide_eq_false_iff_not]
    omega
  rw [crc32Bit, step]
  cases hbit : c.toBitVec.getLsbD 0 with
  | true =>
    rw [if_pos (fun h => by rw [hlow.mp h] at hbit; cases hbit), if_pos rfl]
    exact BitVec.xor_comm _ _
  | false =>
    rw [if_neg (not_not.mpr (hlow.mpr hbit)), if_neg Bool.false_ne_true]
    rfl

theorem crc32Table_toBitVec (i : UInt32) : (crc32Table i).toBitVec = (step crc32Polynomial)^[8] i.toBitVec := by
  have hfold : ∀ (l : List Nat) (c : UInt32),
      (l.foldl (fun c _ => crc32Bit c) c).toBitVec = (step crc32Polynomial)^[l.length] c.toBitVec := by
    intro l
    induction l with
    | nil => exact fun _ => rfl
    | cons x xs ih =>
      intro c
      rw [List.foldl_cons, ih, crc32Bit_toBitVec, List.length_cons, Function.iterate_succ_apply]
  exact hfold (List.range 8) i

theorem lowByte_toBitVec (x : UInt32) : (x &&& 0xFF).toBitVec = (x.toBitVec.setWidth 8).setWidth 32 := by
  apply BitVec.eq_of_toNat_eq
  rw [UInt32.toBitVec_and, BitVec.toNat_and, BitVec.toNat_setWidth, BitVec.toNat_setWidth]
  show x.toNat &&& 2 ^ 8 - 1 = x.toNat % 2 ^ 8 % 2 ^ 32
  rw [Nat.and_two_pow_sub_one_eq_mod]
  omega

/-- A byte has no bits above the eighth. -/
theorem byte_shiftRight (b : UInt8) : b.toBitVec.setWidth 32 >>> 8 = 0#32 := by
  apply BitVec.eq_of_toNat_eq
  have hb : b.toNat < 256 := b.toNat_lt
  rw [BitVec.toNat_ushiftRight, BitVec.toNat_setWidth, Nat.shiftRight_eq_div_pow]
  show b.toNat % 2 ^ 32 / 2 ^ 8 = 0
  omega

/-- A byte from the table does what eight shifts do. -/
theorem tableByte_toBitVec (crc : UInt32) (b : UInt8) :
    (crc32Table ((crc ^^^ b.toUInt32) &&& 0xFF) ^^^ (crc >>> 8)).toBitVec = shiftByte crc.toBitVec b := by
  have hindex : ((crc ^^^ b.toUInt32) &&& 0xFF).toBitVec =
      ((crc.toBitVec ^^^ b.toBitVec.setWidth 32).setWidth 8).setWidth 32 := lowByte_toBitVec _
  have hhigh : (crc.toBitVec ^^^ b.toBitVec.setWidth 32) >>> 8 = crc.toBitVec >>> 8 := by
    rw [BitVec.ushiftRight_xor_distrib, byte_shiftRight, BitVec.xor_zero]
  rw [shiftByte, iterate_step_split, hhigh, UInt32.toBitVec_xor, crc32Table_toBitVec, hindex]
  rfl

theorem shiftByte_eq_feed (c : BitVec 32) (b : UInt8) :
    shiftByte c b = (lowBits 8 b.toBitVec).foldl (feed crc32Polynomial) c := by
  have hbits : lowBits 8 b.toBitVec = lowBits 8 (b.toBitVec.setWidth 32) := by
    refine List.map_congr_left fun i hi => ?_
    have := List.mem_range.mp hi
    rw [BitVec.getLsbD_setWidth, decide_eq_true (by omega), Bool.true_and]
  rw [hbits, foldl_feed _ (byte_shiftRight b), shiftByte]

theorem crc32Fold_toBitVec (data : Bytes) (crc : UInt32) :
    (data.foldl (fun crc b => crc32Table ((crc ^^^ b.toUInt32) &&& 0xFF) ^^^ (crc >>> 8)) crc).toBitVec =
      data.foldl shiftByte crc.toBitVec := by
  induction data generalizing crc with
  | nil => rfl
  | cons b data ih => rw [List.foldl_cons, List.foldl_cons, ih, tableByte_toBitVec]

theorem foldl_shiftByte_eq_feed (data : Bytes) (c : BitVec 32) :
    data.foldl shiftByte c = (messageBits data).foldl (feed crc32Polynomial) c := by
  induction data generalizing c with
  | nil => rfl
  | cons b data ih =>
    rw [List.foldl_cons, ih, shiftByte_eq_feed, messageBits, messageBits, List.flatMap_cons, List.foldl_append]

theorem crc32Ieee_toBitVec (data : Bytes) :
    (crc32Ieee data).toBitVec = data.foldl shiftByte 0xFFFFFFFF#32 ^^^ 0xFFFFFFFF#32 := by
  rw [crc32Ieee, UInt32.toBitVec_xor, crc32Fold_toBitVec]
  rfl

/-- **The table gives the checksum of the bit-by-bit division.** -/
theorem crc32Ieee_eq_crc32Bitwise (data : Bytes) : crc32Ieee data = crc32Bitwise data := by
  apply UInt32.toBitVec_inj.mp
  rw [crc32Ieee_toBitVec, foldl_shiftByte_eq_feed]
  rfl

/-- The check value of the standard. -/
example : crc32Ieee (ascii "123456789") = 0xCBF43926 := by decide +kernel

/-! ## Damage -/

theorem shiftByte_injective (b : UInt8) : Function.Injective fun c => shiftByte c b := by
  intro c c' h
  have hsum := iterate_step_injective (show crc32Polynomial.msb = true by decide) 8 h
  exact (BitVec.xor_left_inj _).mp hsum

theorem shiftByte_ne {b b' : UInt8} (h : b ≠ b') (c : BitVec 32) : shiftByte c b ≠ shiftByte c b' := by
  intro hsame
  have hsum := iterate_step_injective (show crc32Polynomial.msb = true by decide) 8 hsame
  have hwide : b.toBitVec.setWidth 32 = b'.toBitVec.setWidth 32 := (BitVec.xor_right_inj _).mp hsum
  have hbits := congrArg (BitVec.setWidth 8) hwide
  rw [BitVec.setWidth_setWidth_of_le _ (by decide), BitVec.setWidth_setWidth_of_le _ (by decide), BitVec.setWidth_eq,
    BitVec.setWidth_eq] at hbits
  exact h (UInt8.toBitVec_inj.mp hbits)

/-- The same bytes behind a difference keep it. -/
theorem foldl_shiftByte_injective (data : Bytes) : Function.Injective fun c => data.foldl shiftByte c := by
  induction data with
  | nil => exact fun _ _ h => h
  | cons b data ih => exact fun c c' h => shiftByte_injective b (ih h)

/-- **Strings that differ in one byte have different checksums.** -/
theorem crc32Ieee_ne {before behind : Bytes} {b b' : UInt8} (h : b ≠ b') :
    crc32Ieee (before ++ b :: behind) ≠ crc32Ieee (before ++ b' :: behind) := by
  intro hsame
  have hregister := congrArg UInt32.toBitVec hsame
  rw [crc32Ieee_toBitVec, crc32Ieee_toBitVec, BitVec.xor_left_inj, List.foldl_append, List.foldl_append, List.foldl_cons,
    List.foldl_cons] at hregister
  exact shiftByte_ne h _ (foldl_shiftByte_injective behind hregister)

/-- A byte with one bit flipped. -/
def flipBit (k : Nat) (b : UInt8) : UInt8 := b ^^^ UInt8.ofNat (2 ^ k)

theorem flipBit_ne {k : Nat} (hk : k < 8) (b : UInt8) : flipBit k b ≠ b := by
  intro h
  have hmask : UInt8.ofNat (2 ^ k) = 0 := by
    have := congrArg (b ^^^ ·) h
    simpa [flipBit, ← UInt8.xor_assoc] using this
  have hnat := congrArg UInt8.toNat hmask
  rw [UInt8.toNat_ofNat', Nat.mod_eq_of_lt (Nat.pow_lt_pow_right (by decide) hk)] at hnat
  exact absurd hnat (Nat.ne_of_gt (Nat.two_pow_pos k))

theorem crc32Ieee_modify_ne {data : Bytes} {i k : Nat} (hi : i < data.length) (hk : k < 8) :
    crc32Ieee (data.modify i (flipBit k)) ≠ crc32Ieee data := by
  obtain ⟨before, b, behind, hdata, -, hmodify⟩ := List.exists_of_modify (flipBit k) hi
  rw [hmodify, hdata]
  exact crc32Ieee_ne (flipBit_ne hk b)

theorem modify_ne {data : Bytes} {i k : Nat} (hi : i < data.length) (hk : k < 8) : data.modify i (flipBit k) ≠ data := by
  intro h
  have hbyte := List.getElem_modify_eq (flipBit k) i data (by rw [List.length_modify]; exact hi)
  simp only [h] at hbyte
  exact flipBit_ne hk _ hbyte.symm

/-- Four bytes are the number they stand for. -/
theorem word_injective {a b : Bytes} (ha : a.length = 4) (hb : b.length = 4)
    (h : UInt32.ofNat (ofLE a) = UInt32.ofNat (ofLE b)) : a = b := by
  have hlt : ∀ {c : Bytes}, c.length = 4 → ofLE c < 2 ^ 32 := by
    intro c hc
    have := ofLE_lt c
    rw [hc] at this
    exact this
  have hnat := congrArg UInt32.toNat h
  rw [UInt32.toNat_ofNat_of_lt' (hlt ha), UInt32.toNat_ofNat_of_lt' (hlt hb)] at hnat
  rw [← toLE_ofLE_of_length ha, ← toLE_ofLE_of_length hb, hnat]

namespace FullCodec

variable {S T : Type}

/-- The length and what is covered behind it, or the checksum, do not fit any more. -/
theorem crc_mismatch {seqNo : Nat} {payload : Bytes} {i k : Nat} (hi : i < (frame seqNo payload).length) (hk : k < 8) :
    UInt32.ofNat (ofLE ((((frame seqNo payload).modify i (flipBit k)).drop (payload.length + 8)).take 4)) ≠
      crc32Ieee (((frame seqNo payload).modify i (flipBit k)).take (payload.length + 8)) := by
  have hcovered := length_covered seqNo payload
  rw [List.take_modify, covered_of_frame]
  -- The bit is in what is covered, whose checksum changes, or in the checksum itself.
  by_cases hin : i < payload.length + 8
  · rw [List.drop_modify_of_lt _ _ _ _ hin, crc_of_frame]
    exact fun h => crc32Ieee_modify_ne (by rw [hcovered]; exact hin) hk h.symm
  · have hbehind : i ≥ payload.length + 8 := Nat.not_lt.mp hin
    have huntouched : (covered seqNo payload).modify i (flipBit k) = covered seqNo payload :=
      List.modify_eq_self (by rw [hcovered]; exact hbehind)
    rw [List.drop_modify_of_ge _ _ _ _ hbehind, huntouched]
    have hfield : (frame seqNo payload).drop (payload.length + 8) =
        toLE 4 (crc32Ieee (covered seqNo payload)).toNat := List.drop_left' hcovered
    have hlen : (frame seqNo payload).length = payload.length + 12 := by
      rw [frame, List.length_append, hcovered, length_toLE]
    rw [hfield]
    generalize hcrc : toLE 4 (crc32Ieee (covered seqNo payload)).toNat = field
    have hfieldLen : field.length = 4 := by rw [← hcrc, length_toLE]
    have hread : UInt32.ofNat (ofLE field) = crc32Ieee (covered seqNo payload) := by
      rw [← hcrc, ofLE_toLE_of_lt (by simpa using (crc32Ieee (covered seqNo payload)).toNat_lt), UInt32.ofNat_toNat]
    have hmodified : (field.modify (i - (payload.length + 8)) (flipBit k)).length = 4 := by
      rw [List.length_modify, hfieldLen]
    rw [List.take_of_length_le (Nat.le_of_eq hmodified), ← hread]
    exact fun hsame => modify_ne (by omega) hk (word_injective hmodified hfieldLen hsame)

/-- **Every flipped bit behind the length is noticed**, whatever number the receiver expects. -/
theorem read_damaged {read' : ReadExact Exn S} {stream : S → Bytes} {closed : Exn} (h : ReadsStream read' stream closed)
    (receiver : FullCodec) {seqNo : Nat} {payload rest : Bytes} (hfits : payload.length + 12 ≤ maxMessageSize) {i k : Nat}
    (hlength : 4 ≤ i) (hi : i < (frame seqNo payload).length) (hk : k < 8) {s : S}
    (hs : stream s = (frame seqNo payload).modify i (flipBit k) ++ rest) :
    ∃ e cs, read read' (receiver, s) = .error e cs := by
  have hframe : (frame seqNo payload).modify i (flipBit k) =
      toLE 4 (payload.length + 12) ++ (behindLength seqNo payload).modify (i - 4) (flipBit k) := by
    rw [← List.take_append_drop 4 ((frame seqNo payload).modify i (flipBit k)), List.take_modify,
      List.drop_modify_of_ge _ _ _ _ hlength, frame_eq, List.take_left' (length_toLE 4 _), List.drop_left' (length_toLE 4 _),
      List.modify_eq_self (by rw [length_toLE]; exact hlength)]
  have hbehind : payload.length + 12 - 4 = payload.length + 8 := by omega
  rw [hframe] at hs
  obtain ⟨s', hread, -⟩ := read_of_length h receiver (by omega) hfits
    (by rw [List.length_modify, length_behindLength]; omega) hs
  rw [← hframe, hbehind, if_pos (crc_mismatch hi hk)] at hread
  split at hread
  · exact ⟨_, _, hread⟩
  · exact ⟨_, _, hread⟩

/-- **CRC-32 is right and catches single-bit damage.** The table gives the bit-by-bit checksum of every string; and
in every frame that is written with a payload which can be read, any flipped bit behind the length makes the receiver
of that number throw. -/
theorem crc32_right_and_detects {write' : WriteBytes Exn S} {sent : S → Bytes} (hwrites : WritesStream write' sent)
    {read' : ReadExact Exn T} {stream : T → Bytes} {closed : Exn} (hreads : ReadsStream read' stream closed) :
    (∀ data, crc32Ieee data = crc32Bitwise data) ∧
    ∀ (sender sender' receiver : FullCodec) (payload : Bytes) (s s' : S), payload.length ≤ 2 ^ 24 - 12 →
      receiver.readSeqNo = sender.writeSeqNo → write write' payload (sender, s) = .ok () (sender', s') →
      ∃ bytes, sent s' = sent s ++ bytes ∧ 12 < bytes.length ∧
        ∀ i k, 4 ≤ i → i < bytes.length → k < 8 → ∀ (t : T) (rest : Bytes),
          stream t = bytes.modify i (flipBit k) ++ rest → ∃ e cs, read read' (receiver, t) = .error e cs := by
  refine ⟨crc32Ieee_eq_crc32Bitwise, ?_⟩
  intro sender sender' receiver payload s s' hlen _ hwrite
  by_cases hvalid : ValidLength payload.length
  · obtain ⟨s'', hok, hsent⟩ := write_of_valid hwrites hvalid sender s
    rw [hok] at hwrite
    cases hwrite
    have hframe : (frame sender.writeSeqNo payload).length = payload.length + 12 := by
      rw [frame, List.length_append, length_covered, length_toLE]
    have hfits : payload.length + 12 ≤ maxMessageSize := by
      unfold maxMessageSize
      omega
    refine ⟨frame sender.writeSeqNo payload, hsent, by have := hvalid.1; omega, ?_⟩
    intro i k hlength hi hk t rest ht
    exact read_damaged hreads receiver hfits hlength hi hk ht
  · obtain ⟨e, herr⟩ := write_of_not_valid write' hvalid sender s
    rw [herr] at hwrite
    cases hwrite

/-- A bit of the payload, flipped. -/
theorem crc32_right_and_detects_fiveBytes :
    ∃ sender bytes, write appendBytes [1, 2, 3, 4, 5] ({}, []) = .ok () (sender, bytes) ∧
      ∃ e cs, read (takeBytes .connectionClosed) ({}, bytes.modify 9 (flipBit 3)) = .error e cs := by
  have hvalid : ValidLength [1, 2, 3, 4, (5 : UInt8)].length := ⟨by decide, by decide⟩
  obtain ⟨stream, hwrite, -⟩ := write_of_valid writesStream_appendBytes hvalid ({} : FullCodec) []
  obtain ⟨-, hdamage⟩ := crc32_right_and_detects writesStream_appendBytes (readsStream_takeBytes Exn.connectionClosed)
  obtain ⟨bytes, hbytes, hlen, hread⟩ := hdamage {} _ {} [1, 2, 3, 4, 5] [] stream (by decide) rfl hwrite
  have hsame : stream = bytes := hbytes
  rw [← hsame] at hlen hread
  exact ⟨_, stream, hwrite,
    hread 9 3 (by decide) (by omega) (by decide) (stream.modify 9 (flipBit 3)) [] (List.append_nil _).symm⟩

end FullCodec

end ShuzaGram.Mtproto.Transport

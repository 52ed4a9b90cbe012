import ShuzaGram.Mtproto.Transport.Codec

/-!
# The full transport

`mtproto/transport/full_codec.cpp` and `crc32.hpp`. A frame is its own length, a sequence number, the
payload and a checksum of all of that. Each direction counts its frames; the counters are 64 bits wide, and
32 bits of them travel.
-/

namespace ShuzaGram.Mtproto.Transport

open Infra

/-! ## CRC-32 -/

/-- One bit of the reflected polynomial division. -/
def crc32Bit (c : UInt32) : UInt32 := if c &&& 1 ≠ 0 then (0xEDB88320 : UInt32) ^^^ (c >>> 1) else c >>> 1

/-- An entry of `Crc32Table`. -/
def crc32Table (i : UInt32) : UInt32 := (List.range 8).foldl (fun c _ => crc32Bit c) i

def crc32Ieee (data : Bytes) : UInt32 :=
  data.foldl (fun crc b => crc32Table ((crc ^^^ b.toUInt32) &&& 0xFF) ^^^ (crc >>> 8)) 0xFFFFFFFF ^^^ 0xFFFFFFFF

/-! ## The codec -/

structure FullCodec where
  writeSeqNo : Nat := 0
  readSeqNo : Nat := 0
deriving DecidableEq

namespace FullCodec

variable {S : Type}

/-- `write_seq_no_++`. -/
def nextWriteSeqNo : EStateM Exn (FullCodec × S) Nat := fun (c, s) =>
  .ok c.writeSeqNo ({ c with writeSeqNo := c.writeSeqNo + 1 }, s)

/-- `read_seq_no_++`. -/
def nextReadSeqNo : EStateM Exn (FullCodec × S) Nat := fun (c, s) =>
  .ok c.readSeqNo ({ c with readSeqNo := c.readSeqNo + 1 }, s)

def write (write : WriteBytes Exn S) (payload : Bytes) : EStateM Exn (FullCodec × S) Unit := do
  checkOutgoingMessage payload
  let seqNo ← nextWriteSeqNo
  let totalLen := 4 + 4 + payload.length + 4
  let frame := toLE 4 totalLen ++ toLE 4 seqNo ++ payload
  Steps.beside (write (frame ++ toLE 4 (crc32Ieee frame).toNat))

def read (read : ReadExact Exn S) : EStateM Exn (FullCodec × S) Bytes := do
  let n ← Steps.beside (readU32Le read)
  checkMessageLength n.toNat
  if n.toNat < 3 * 4 then throw (.invalidMessageLength n.toNat)
  let rest ← Steps.beside (read (n.toNat - 4))
  let frame := toLE 4 n.toNat ++ rest
  let serverSeqNo := UInt32.ofNat (ofLE ((frame.drop 4).take 4))
  let expectedSeqNo ← nextReadSeqNo
  if serverSeqNo.toInt32.toInt ≠ expectedSeqNo then throw (.runtimeError "full transport: seq_no mismatch")
  let receivedCrc := UInt32.ofNat (ofLE ((frame.drop (n.toNat - 4)).take 4))
  if receivedCrc ≠ crc32Ieee (frame.take (n.toNat - 4)) then throw (.runtimeError "full transport: crc mismatch")
  deliver ((frame.drop 8).take (n.toNat - 12))

/-! ## Frames -/

/-- What the checksum of a frame covers. -/
def covered (seqNo : Nat) (payload : Bytes) : Bytes :=
  toLE 4 (4 + 4 + payload.length + 4) ++ toLE 4 seqNo ++ payload

def frame (seqNo : Nat) (payload : Bytes) : Bytes :=
  covered seqNo payload ++ toLE 4 (crc32Ieee (covered seqNo payload)).toNat

theorem length_covered (seqNo : Nat) (payload : Bytes) : (covered seqNo payload).length = payload.length + 8 := by
  simp only [covered, List.length_append, length_toLE]
  omega

theorem write_of_valid {write' : WriteBytes Exn S} {sent : S → Bytes} (h : WritesStream write' sent) {payload : Bytes}
    (hp : ValidLength payload.length) (c : FullCodec) (s : S) :
    ∃ s', write write' payload (c, s) = .ok () ({ c with writeSeqNo := c.writeSeqNo + 1 }, s') ∧
      sent s' = sent s ++ frame c.writeSeqNo payload := by
  obtain ⟨s', hframe, hs'⟩ := h s (frame c.writeSeqNo payload)
  refine ⟨s', ?_, hs'⟩
  rw [write, checkOutgoingMessage, Steps.bind_of_ok (checkMessageLength_of_valid hp (c, s))]
  exact Steps.beside_of_ok hframe

/-- Any other payload is refused before anything is written or counted. -/
theorem write_of_not_valid (write' : WriteBytes Exn S) {payload : Bytes} (hp : ¬ ValidLength payload.length)
    (c : FullCodec) (s : S) : ∃ e, write write' payload (c, s) = .error e (c, s) :=
  ⟨_, by rw [write, checkOutgoingMessage, Steps.bind_of_error (checkMessageLength_of_not hp (c, s))]⟩

/-! ## The fields of a frame -/

/-- A frame behind its length. -/
def behindLength (seqNo : Nat) (payload : Bytes) : Bytes :=
  toLE 4 seqNo ++ payload ++ toLE 4 (crc32Ieee (covered seqNo payload)).toNat

theorem frame_eq (seqNo : Nat) (payload : Bytes) :
    frame seqNo payload = toLE 4 (payload.length + 12) ++ behindLength seqNo payload := by
  have hlen : 4 + 4 + payload.length + 4 = payload.length + 12 := by omega
  simp only [frame, covered, behindLength, hlen, List.append_assoc]

theorem length_behindLength (seqNo : Nat) (payload : Bytes) :
    (behindLength seqNo payload).length = payload.length + 8 := by
  simp only [behindLength, List.length_append, length_toLE]
  omega

theorem seqNo_of_frame (seqNo : Nat) (payload : Bytes) :
    UInt32.ofNat (ofLE (((frame seqNo payload).drop 4).take 4)) = UInt32.ofNat seqNo := by
  have hfield : ((frame seqNo payload).drop 4).take 4 = toLE 4 seqNo := by
    rw [frame_eq, List.drop_left' (length_toLE 4 _), behindLength, List.append_assoc,
      List.take_left' (length_toLE 4 seqNo)]
  rw [hfield, ofLE_toLE]
  exact UInt32.ofNat_mod_size

theorem covered_of_frame (seqNo : Nat) (payload : Bytes) :
    (frame seqNo payload).take (payload.length + 8) = covered seqNo payload :=
  List.take_left' (length_covered seqNo payload)

theorem crc_of_frame (seqNo : Nat) (payload : Bytes) :
    UInt32.ofNat (ofLE (((frame seqNo payload).drop (payload.length + 8)).take 4)) =
      crc32Ieee (covered seqNo payload) := by
  have hcrc : ofLE (toLE 4 (crc32Ieee (covered seqNo payload)).toNat) = (crc32Ieee (covered seqNo payload)).toNat :=
    ofLE_toLE_of_lt (by simpa using (crc32Ieee (covered seqNo payload)).toNat_lt)
  rw [frame, List.drop_left' (length_covered seqNo payload), List.take_of_length_le (Nat.le_of_eq (length_toLE 4 _)),
    hcrc, UInt32.ofNat_toNat]

theorem payload_of_frame (seqNo : Nat) (payload : Bytes) :
    ((frame seqNo payload).drop 8).take payload.length = payload := by
  have hhead : (toLE 4 (4 + 4 + payload.length + 4) ++ toLE 4 seqNo).length = 8 := by simp
  rw [frame, covered, List.append_assoc _ payload, List.drop_left' hhead, List.take_left' rfl]

section Read

variable {read' : ReadExact Exn S} {stream : S → Bytes} {closed : Exn} {s : S} {rest payload : Bytes}

/-- `read`, once as many bytes as a valid length announces are there: they are all taken, and then checked. -/
theorem read_of_length (h : ReadsStream read' stream closed) (c : FullCodec) {n : Nat} {behind : Bytes} (hmin : 12 ≤ n)
    (hfits : n ≤ maxMessageSize) (hlen : behind.length = n - 4) (hs : stream s = toLE 4 n ++ behind ++ rest) :
    ∃ s', read read' (c, s) =
      (if (UInt32.ofNat (ofLE (((toLE 4 n ++ behind).drop 4).take 4))).toInt32.toInt ≠ c.readSeqNo then
        .error (.runtimeError "full transport: seq_no mismatch") ({ c with readSeqNo := c.readSeqNo + 1 }, s')
      else if UInt32.ofNat (ofLE (((toLE 4 n ++ behind).drop (n - 4)).take 4)) ≠
          crc32Ieee ((toLE 4 n ++ behind).take (n - 4)) then
        .error (.runtimeError "full transport: crc mismatch") ({ c with readSeqNo := c.readSeqNo + 1 }, s')
      else deliver (((toLE 4 n ++ behind).drop 8).take (n - 12)) ({ c with readSeqNo := c.readSeqNo + 1 }, s')) ∧
      stream s' = rest := by
  have hvalid : ValidLength n := ⟨by omega, hfits⟩
  have hn : (UInt32.ofNat n).toNat = n := toNat_ofNat_of_valid hvalid
  have hstream : stream s = toLE 4 (UInt32.ofNat n).toNat ++ (behind ++ rest) := by rw [hs, hn, List.append_assoc]
  obtain ⟨t, hlength, ht⟩ := readU32Le_put h hstream
  obtain ⟨s', hrest, hs'⟩ := h.read_append ht hlen
  refine ⟨s', ?_, hs'⟩
  rw [read, Steps.bind_of_ok (Steps.beside_of_ok hlength), hn,
    Steps.bind_of_ok (checkMessageLength_of_valid hvalid (c, t)), if_neg (by omega)]
  beta_reduce
  rw [Steps.bind_of_ok (Steps.beside_of_ok hrest)]
  -- The expected number is taken before it is compared, so that it moves on even where the frame is refused.
  have hcount : (nextReadSeqNo : EStateM Exn (FullCodec × S) Nat) (c, s') =
      .ok c.readSeqNo ({ c with readSeqNo := c.readSeqNo + 1 }, s') := rfl
  rw [Steps.bind_of_ok hcount]
  by_cases hseq : (UInt32.ofNat (ofLE (((toLE 4 n ++ behind).drop 4).take 4))).toInt32.toInt ≠ c.readSeqNo
  · rw [if_pos hseq, if_pos hseq]
    rfl
  · rw [if_neg hseq, if_neg hseq]
    by_cases hcrc : UInt32.ofNat (ofLE (((toLE 4 n ++ behind).drop (n - 4)).take 4)) ≠
        crc32Ieee ((toLE 4 n ++ behind).take (n - 4))
    · simp only [if_pos hcrc]
      rfl
    · simp only [if_neg hcrc]

/-- `read`, once a frame that is short enough is there: only its sequence number can be wrong. -/
theorem read_of_fits (h : ReadsStream read' stream closed) (c : FullCodec) {seqNo : Nat}
    (hfits : payload.length + 12 ≤ maxMessageSize) (hs : stream s = frame seqNo payload ++ rest) :
    ∃ s', read read' (c, s) = (if (UInt32.ofNat seqNo).toInt32.toInt ≠ c.readSeqNo then
        .error (.runtimeError "full transport: seq_no mismatch") ({ c with readSeqNo := c.readSeqNo + 1 }, s')
      else deliver payload ({ c with readSeqNo := c.readSeqNo + 1 }, s')) ∧ stream s' = rest := by
  have hframe := frame_eq seqNo payload
  have hbehind : payload.length + 12 - 4 = payload.length + 8 := by omega
  rw [hframe] at hs
  obtain ⟨s', hread, hs'⟩ := read_of_length h c (by omega) hfits (by rw [length_behindLength]; omega) hs
  refine ⟨s', ?_, hs'⟩
  rw [hread, ← hframe, hbehind, seqNo_of_frame, covered_of_frame, crc_of_frame, Nat.add_sub_cancel, payload_of_frame,
    if_neg (not_not_intro rfl)]

/-- A frame with the expected number is read back. -/
theorem read_frame (h : ReadsStream read' stream closed) (c : FullCodec)
    (hfits : payload.length + 12 ≤ maxMessageSize) (hseq : c.readSeqNo < 2 ^ 31)
    (hs : stream s = frame c.readSeqNo payload ++ rest) :
    ∃ s', read read' (c, s) = deliver payload ({ c with readSeqNo := c.readSeqNo + 1 }, s') ∧ stream s' = rest := by
  obtain ⟨s', hread, hrest⟩ := read_of_fits h c hfits hs
  have hint : (UInt32.ofNat c.readSeqNo).toInt32.toInt = c.readSeqNo := by
    rw [UInt32.toInt32_ofNat', Int32.toInt_ofNat_of_lt hseq]
  rw [if_neg (not_not_intro hint)] at hread
  exact ⟨s', hread, hrest⟩

/-- From `2 ^ 31` on no number is the expected one. -/
theorem read_frame_wrapped (h : ReadsStream read' stream closed) (c : FullCodec) {seqNo : Nat}
    (hfits : payload.length + 12 ≤ maxMessageSize) (hseq : 2 ^ 31 ≤ c.readSeqNo)
    (hs : stream s = frame seqNo payload ++ rest) : ∃ e cs, read read' (c, s) = .error e cs := by
  obtain ⟨s', hread, -⟩ := read_of_fits h c hfits hs
  have hint : (UInt32.ofNat seqNo).toInt32.toInt ≠ c.readSeqNo := by
    have hlt := Int32.toInt_lt (UInt32.ofNat seqNo).toInt32
    omega
  rw [if_pos hint] at hread
  exact ⟨_, _, hread⟩

/-- A frame that is longer than the largest message is refused. -/
theorem read_frame_long (h : ReadsStream read' stream closed) (c : FullCodec) {seqNo : Nat}
    (hlong : maxMessageSize < payload.length + 12) (hlt : payload.length + 12 < 2 ^ 32)
    (hs : stream s = frame seqNo payload ++ rest) : ∃ e cs, read read' (c, s) = .error e cs := by
  have hn : (UInt32.ofNat (payload.length + 12)).toNat = payload.length + 12 := UInt32.toNat_ofNat_of_lt' hlt
  have hbad : ¬ ValidLength (payload.length + 12) := fun hv => Nat.not_lt.mpr hv.2 hlong
  rw [frame_eq, List.append_assoc, ← hn] at hs
  obtain ⟨t, hlength, -⟩ := readU32Le_put h hs
  exact ⟨_, _, by rw [read, Steps.bind_of_ok (Steps.beside_of_ok hlength), hn,
    Steps.bind_of_error (checkMessageLength_of_not hbad (c, t))]⟩

end Read

end FullCodec

end ShuzaGram.Mtproto.Transport

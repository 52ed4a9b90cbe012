import ShuzaGram.Mtproto.Transport.Abridged
import ShuzaGram.Mtproto.Transport.Full
import ShuzaGram.Mtproto.Transport.Intermediate

/-!
# Framing

What one side of a connection writes, the other side reads. A run of `Write` appends frames to a byte
string, and a run of `Read` takes them off again.

* Abridged and Intermediate lose nothing.
* Full and PaddedIntermediate apply the limit of a message to the payload on writing, and to the whole frame
  on reading. They lose nothing exactly as long as the frame also keeps the limit.
-/

namespace ShuzaGram.Mtproto.Transport

open Infra ByteStream

/-- The bytes of a connection, read to their end. -/
abbrev takeExact : ReadExact Exn Bytes := takeBytes .connectionClosed

/-- What a codec owes the connection: its frames are read back in order to the last byte, a `Write` that
throws has written nothing, a frame of 4 bytes is an error, and payloads have valid lengths. -/
structure LosslessFraming (write : WriteBytes Exn Bytes → Bytes → EStateM Exn Bytes Unit)
    (read : ReadExact Exn Bytes → EStateM Exn Bytes Bytes) : Prop where
  roundTrip : ∀ payloads stream, (∀ p ∈ payloads, p.length ≠ 4) →
    writeAll (write appendBytes) payloads [] = .ok () stream →
    times (read takeExact) payloads.length stream = .ok payloads []
  atomic : ∀ payload out e out', write appendBytes payload out = .error e out' → out' = out
  protocolError : ∀ (c : Int32) frame rest, -2 ^ 31 < c.toInt →
    write appendBytes (toLE 4 c.toUInt32.toNat) [] = .ok () frame →
    ∃ code : Int32, code.toInt = -c.toInt ∧ read takeExact (frame ++ rest) = .error (.protocolError code) rest
  returned : ∀ stream payload rest, read takeExact stream = .ok payload rest →
    payload ≠ [] ∧ payload.length ≤ 2 ^ 24

/-- The code of an error frame. -/
theorem deliver_code (c : Int32) (hc : -2 ^ 31 < c.toInt) (s : Bytes) :
    ∃ code : Int32, code.toInt = -c.toInt ∧
      (deliver (toLE 4 c.toUInt32.toNat) : EStateM Exn Bytes Bytes) s = .error (.protocolError code) s := by
  have hword : ofLE (toLE 4 c.toUInt32.toNat) = c.toUInt32.toNat :=
    ofLE_toLE_of_lt (by simpa using c.toUInt32.toNat_lt)
  refine ⟨-c, ?_, ?_⟩
  · rw [Int32.toInt_neg]
    have hlt := Int32.toInt_lt c
    rw [Int.bmod_eq_of_le] <;> omega
  · rw [deliver_of_eq (length_toLE 4 _), hword, UInt32.ofNat_toNat, Int32.toInt32_toUInt32]

/-- A codec that writes one frame for an accepted payload and refuses any other, and that reads such a frame
wherever it stands, is lossless. -/
theorem losslessFraming_of_frames {write : WriteBytes Exn Bytes → Bytes → EStateM Exn Bytes Unit}
    {read : ReadExact Exn Bytes → EStateM Exn Bytes Bytes} {frame : Bytes → Bytes}
    (hwrite : ∀ p s, AcceptsWords p → ∃ s', write appendBytes p s = .ok () s' ∧ id s' = id s ++ frame p)
    (hrefuse : ∀ p s, ¬ AcceptsWords p → ∃ e, write appendBytes p s = .error e s)
    (hread : ∀ p s rest, AcceptsWords p → id s = frame p ++ rest →
      ∃ s', read takeExact s = deliver p s' ∧ id s' = rest)
    (hreturned : ∀ stream payload rest, read takeExact stream = .ok payload rest → ValidLength payload.length) :
    LosslessFraming write read where
  roundTrip payloads stream hne hall := by
    have hrefuse' : ∀ p s, ¬ AcceptsWords p → ∃ e s', write appendBytes p s = .error e s' := by
      intro p s hp
      obtain ⟨e, he⟩ := hrefuse p s hp
      exact ⟨e, s, he⟩
    obtain ⟨hacc, hsent⟩ := sent_of_writeAll hwrite hrefuse' payloads hall
    -- Payloads of 4 bytes are taken for error codes, so the round trip leaves them out.
    have hstep : ∀ p s rest, (AcceptsWords p ∧ p.length ≠ 4) → id s = frame p ++ rest →
        ∃ s', read takeExact s = .ok (id p) s' ∧ id s' = rest := by
      rintro p s rest ⟨hp, hlen⟩ hs
      obtain ⟨s', hok, hs'⟩ := hread p s rest hp hs
      rw [deliver_of_ne hlen] at hok
      exact ⟨s', hok, hs'⟩
    obtain ⟨s', htimes, hs'⟩ := times_frames hstep payloads stream [] (fun q hq => ⟨hacc q hq, hne q hq⟩)
      (by simpa using hsent)
    rw [htimes, List.map_id, show s' = [] from hs']
  atomic payload out e out' h := by
    by_cases hp : AcceptsWords payload
    · obtain ⟨s', hok, -⟩ := hwrite payload out hp
      rw [hok] at h
      cases h
    · obtain ⟨e', herr⟩ := hrefuse payload out hp
      rw [herr] at h
      cases h
      rfl
  protocolError c bytes rest hc h := by
    have hp : AcceptsWords (toLE 4 c.toUInt32.toNat) :=
      ⟨by rw [length_toLE]; exact ⟨by decide, by decide⟩, ⟨1, length_toLE _ _⟩⟩
    obtain ⟨s', hok, hs'⟩ := hwrite _ [] hp
    rw [hok] at h
    cases h
    have hbytes : bytes = frame (toLE 4 c.toUInt32.toNat) := hs'
    obtain ⟨t, hread', ht⟩ := hread _ (bytes ++ rest) rest hp (by rw [hbytes]; rfl)
    obtain ⟨code, hcode, hdeliver⟩ := deliver_code c hc t
    refine ⟨code, hcode, ?_⟩
    rw [hread', hdeliver, show t = rest from ht]
  returned stream payload rest h := by
    obtain ⟨hpos, hle⟩ := hreturned stream payload rest h
    exact ⟨List.ne_nil_of_length_pos hpos, hle⟩

/-- **Abridged and Intermediate framing is lossless.** Abridged returns whole words, and reads an error frame
also when its header asks for a quick acknowledgement. -/
theorem plainFraming_lossless :
    LosslessFraming AbridgedCodec.write AbridgedCodec.read ∧
      LosslessFraming IntermediateCodec.write IntermediateCodec.read ∧
      (∀ stream payload rest, AbridgedCodec.read takeExact stream = .ok payload rest → 4 ∣ payload.length) ∧
      (∀ (first : UInt8) (c : Int32) rest, (first &&& 0x7f) = 1 → -2 ^ 31 < c.toInt → ∃ code : Int32,
        code.toInt = -c.toInt ∧
          AbridgedCodec.read takeExact (first :: toLE 4 c.toUInt32.toNat ++ rest) = .error (.protocolError code) rest) := by
  have hreads := readsStream_takeBytes Exn.connectionClosed
  refine ⟨?_, ?_, ?_, ?_⟩
  · refine losslessFraming_of_frames (fun p s hp => AbridgedCodec.write_of_accepts writesStream_appendBytes hp s)
      (fun p s hp => outgoing_of_not_accepts hp _ s) (fun p s rest hp hs => AbridgedCodec.read_frame hreads hp hs) ?_
    intro stream payload rest h
    exact (AbridgedCodec.acceptsWords_of_read_eq_ok hreads h).length
  · refine losslessFraming_of_frames (fun p s hp => IntermediateCodec.write_of_accepts writesStream_appendBytes hp s)
      (fun p s hp => outgoing_of_not_accepts hp _ s) (fun p s rest hp hs => IntermediateCodec.read_frame hreads hp hs) ?_
    intro stream payload rest h
    exact IntermediateCodec.validLength_of_read_eq_ok hreads h
  · intro stream payload rest h
    exact (AbridgedCodec.acceptsWords_of_read_eq_ok hreads h).words
  · intro first c rest hfirst hc
    obtain ⟨s', hread, hs'⟩ := AbridgedCodec.read_one hreads hfirst (length_toLE 4 _) rfl
    obtain ⟨code, hcode, hdeliver⟩ := deliver_code c hc s'
    refine ⟨code, hcode, ?_⟩
    rw [hread, hdeliver, show s' = rest from hs']

/-! ## Full -/

namespace FullCodec

/-- Frames that are numbered from `n` on. -/
def frames (n : Nat) : List Bytes → Bytes
  | [] => []
  | p :: ps => frame n p ++ frames (n + 1) ps

theorem frames_append : ∀ (a b : List Bytes) (n : Nat), frames n (a ++ b) = frames n a ++ frames (n + a.length) b
  | [], _, _ => rfl
  | p :: a, b, n => by
    rw [List.cons_append, frames, frames_append a b (n + 1), frames, List.append_assoc, List.length_cons,
      Nat.add_assoc, Nat.add_comm 1]

theorem length_le_frames : ∀ (n : Nat) (payloads : List Bytes), payloads.length ≤ (frames n payloads).length
  | _, [] => Nat.le_refl 0
  | n, p :: ps => by
    have hrest := length_le_frames (n + 1) ps
    have hcovered := length_covered n p
    simp only [frames, frame, List.length_cons, List.length_append]
    omega

/-- Payloads that were all written are valid, and their frames are numbered one after another. -/
theorem sent_of_writeAll : ∀ (payloads : List Bytes) {c c' : FullCodec} {out out' : Bytes},
    writeAll (write appendBytes) payloads (c, out) = .ok () (c', out') →
    (∀ p ∈ payloads, ValidLength p.length) ∧ out' = out ++ frames c.writeSeqNo payloads
  | [], c, c', out, out', h => by
    cases h
    exact ⟨fun _ hp => absurd hp List.not_mem_nil, by simp [frames]⟩
  | p :: ps, c, c', out, out', h => by
    obtain ⟨s', hwrite, hall⟩ := writeAll_cons_eq_ok.mp h
    have hp : ValidLength p.length := by
      by_contra hnp
      obtain ⟨e, herr⟩ := write_of_not_valid appendBytes hnp c out
      rw [herr] at hwrite
      cases hwrite
    obtain ⟨t, hok, ht⟩ := write_of_valid writesStream_appendBytes hp c out
    rw [hok] at hwrite
    cases hwrite
    obtain ⟨hvalid, hout⟩ := sent_of_writeAll ps hall
    refine ⟨?_, by rw [hout, show t = out ++ _ from ht, frames, List.append_assoc]⟩
    intro q hq
    rcases List.mem_cons.mp hq with rfl | hq
    · exact hp
    · exact hvalid q hq

section Read

variable {S : Type} {read' : ReadExact Exn S} {stream : S → Bytes} {closed : Exn}

/-- **Numbered frames read back** as long as they keep the limit and the numbers keep 31 bits. -/
theorem times_read_frames (h : ReadsStream read' stream closed) : ∀ (payloads : List Bytes) (c : FullCodec) (s : S)
    (rest : Bytes), (∀ p ∈ payloads, p.length ≠ 4) → (∀ p ∈ payloads, p.length + 12 ≤ maxMessageSize) →
    c.readSeqNo + payloads.length ≤ 2 ^ 31 → stream s = frames c.readSeqNo payloads ++ rest →
    ∃ c' s', times (read read') payloads.length (c, s) = .ok payloads (c', s') ∧
      c'.readSeqNo = c.readSeqNo + payloads.length ∧ stream s' = rest
  | [], c, s, rest, _, _, _, hs => ⟨c, s, rfl, rfl, hs⟩
  | p :: ps, c, s, rest, hne, hfits, hseq, hs => by
    rw [List.length_cons] at hseq
    rw [frames, List.append_assoc] at hs
    obtain ⟨t, hread, ht⟩ := read_frame h c (hfits p List.mem_cons_self) (by omega) hs
    rw [deliver_of_ne (hne p List.mem_cons_self)] at hread
    obtain ⟨c', s', htimes, hc', hs'⟩ := times_read_frames h ps { c with readSeqNo := c.readSeqNo + 1 } t rest
      (fun q hq => hne q (List.mem_cons_of_mem p hq)) (fun q hq => hfits q (List.mem_cons_of_mem p hq))
      (by simp only; omega) ht
    refine ⟨c', s', times_succ_eq_ok.mpr ⟨p, _, ps, hread, htimes, rfl⟩, ?_, hs'⟩
    rw [hc', List.length_cons]
    simp only
    omega

/-- Frames that were all read back keep the limit. -/
theorem fits_of_times (h : ReadsStream read' stream closed) : ∀ (payloads : List Bytes) (c : FullCodec) (s : S)
    (rest : Bytes), (∀ p ∈ payloads, p.length ≠ 4) → (∀ p ∈ payloads, ValidLength p.length) →
    c.readSeqNo + payloads.length ≤ 2 ^ 31 → stream s = frames c.readSeqNo payloads ++ rest →
    (∃ cs, times (read read') payloads.length (c, s) = .ok payloads cs) →
    ∀ p ∈ payloads, p.length + 12 ≤ maxMessageSize
  | [], _, _, _, _, _, _, _, _, _, hq => absurd hq List.not_mem_nil
  | p :: ps, c, s, rest, hne, hvalid, hseq, hs, ⟨cs, hall⟩, q, hq => by
    rw [List.length_cons] at hseq
    rw [frames, List.append_assoc] at hs
    obtain ⟨a, s₁, as, hread, htimes, heq⟩ := times_succ_eq_ok.mp hall
    cases heq
    -- The first frame was read, so it was not too long; then the codec expects the next number.
    have hfits : p.length + 12 ≤ maxMessageSize := by
      by_contra hlong
      have hle := (hvalid p List.mem_cons_self).2
      have hlt : p.length + 12 < 2 ^ 32 := by
        unfold maxMessageSize at hle
        omega
      obtain ⟨e, cs', herr⟩ := read_frame_long h c (Nat.lt_of_not_le hlong) hlt hs
      rw [herr] at hread
      cases hread
    obtain ⟨t, hread', ht⟩ := read_frame h c hfits (by omega) hs
    rw [deliver_of_ne (hne p List.mem_cons_self)] at hread'
    rw [hread'] at hread
    cases hread
    rcases List.mem_cons.mp hq with rfl | hq
    · exact hfits
    · exact fits_of_times h ps { c with readSeqNo := c.readSeqNo + 1 } t rest
        (fun q hq => hne q (List.mem_cons_of_mem p hq)) (fun q hq => hvalid q (List.mem_cons_of_mem p hq))
        (by simp only; omega) ht ⟨cs, htimes⟩ q hq

/-- **Numbered frames stop reading back** after `2 ^ 31` of them: the counter of the reader and the number that
travels no longer agree. -/
theorem times_read_overlong (h : ReadsStream read' stream closed) {payloads : List Bytes}
    (hne : ∀ p ∈ payloads, p.length ≠ 4) (hfits : ∀ p ∈ payloads, p.length + 12 ≤ maxMessageSize)
    (hlong : 2 ^ 31 < payloads.length) {s : S} {rest : Bytes} (hs : stream s = frames 0 payloads ++ rest) :
    ∃ e cs, times (read read') payloads.length ({}, s) = .error e cs := by
  -- the payloads whose numbers keep 31 bits, and the first one whose number does not
  obtain ⟨a, p, b, rfl, ha⟩ : ∃ a p b, payloads = a ++ p :: b ∧ a.length = 2 ^ 31 := by
    refine ⟨payloads.take (2 ^ 31), payloads[2 ^ 31], payloads.drop (2 ^ 31 + 1), ?_,
      List.length_take_of_le (Nat.le_of_lt hlong)⟩
    rw [← List.drop_eq_getElem_cons, List.take_append_drop]
  have hs' : stream s = frames 0 a ++ (frame (2 ^ 31) p ++ (frames (2 ^ 31 + 1) b ++ rest)) := by
    rw [hs, frames_append, ha, Nat.zero_add, frames, List.append_assoc, List.append_assoc]
  obtain ⟨c', t, htimes, hcount, ht⟩ := times_read_frames h a {} s _
    (fun q hq => hne q (List.mem_append_left _ hq)) (fun q hq => hfits q (List.mem_append_left _ hq))
    (by simp [ha]) hs'
  obtain ⟨e, cs, herror⟩ := read_frame_wrapped h c' (hfits p (List.mem_append_right _ List.mem_cons_self))
    (by rw [hcount, ha]; exact Nat.le_add_left _ _) ht
  have hlen : (a ++ p :: b).length = a.length + 1 + b.length := by
    rw [List.length_append, List.length_cons]
    omega
  rw [hlen]
  exact ⟨e, _, times_error herror b.length a.length htimes⟩

end Read

/-- What was written is read back, to the last byte, if and only if every frame keeps the limit. -/
theorem lossless_iff {payloads : List Bytes} {c : FullCodec} {stream : Bytes} (hne : ∀ p ∈ payloads, p.length ≠ 4)
    (hcount : payloads.length ≤ 2 ^ 31) (hall : writeAll (write appendBytes) payloads ({}, []) = .ok () (c, stream)) :
    (∃ c', times (read takeExact) payloads.length ({}, stream) = .ok payloads (c', [])) ↔
      ∀ p ∈ payloads, p.length + 12 ≤ maxMessageSize := by
  have hreads := readsStream_takeBytes Exn.connectionClosed
  obtain ⟨hvalid, hstream⟩ := sent_of_writeAll payloads hall
  have hs : id stream = frames ({} : FullCodec).readSeqNo payloads ++ [] := by simp [hstream]
  have hseq : ({} : FullCodec).readSeqNo + payloads.length ≤ 2 ^ 31 := by simpa using hcount
  constructor
  · rintro ⟨c', htimes⟩
    exact fits_of_times hreads payloads {} stream [] hne hvalid hseq hs ⟨_, htimes⟩
  · intro hfits
    obtain ⟨c', s', htimes, -, hs'⟩ := times_read_frames hreads payloads {} stream [] hne hfits hseq hs
    exact ⟨c', by rw [htimes, show s' = [] from hs']⟩

end FullCodec

/-! ## Padded intermediate -/

namespace PaddedIntermediateCodec

variable {S : Type} {read' : ReadExact Exn S} {stream : S → Bytes} {closed : Exn}

/-- Frames that were all read back keep the limit. -/
theorem fits_of_times (h : ReadsStream read' stream closed) : ∀ (sends : List (Arr 4 × Bytes)) (s : S) (rest : Bytes),
    (∀ q ∈ sends, q.2.length ≠ 4 ∧ AcceptsWords q.2) →
    stream s = sends.flatMap (fun q => intermediateFrame (framed q.1 q.2)) ++ rest →
    (∃ s', times (read read') sends.length s = .ok (sends.map Prod.snd) s') →
    ∀ q ∈ sends, q.2.length + padLen q.2 ≤ maxMessageSize
  | [], _, _, _, _, _, _, hq => absurd hq List.not_mem_nil
  | (tail, p) :: sends, s, rest, hgood, hs, ⟨s', hall⟩, q, hq => by
    rw [List.flatMap_cons, List.append_assoc] at hs
    obtain ⟨hne, hp⟩ := hgood (tail, p) List.mem_cons_self
    obtain ⟨a, s₁, as, hread, htimes, heq⟩ := times_succ_eq_ok.mp hall
    cases heq
    have hfits : p.length + padLen p ≤ maxMessageSize := by
      by_contra hlong
      obtain ⟨e, t, herr⟩ := read_frame_long h hp tail (Nat.lt_of_not_le hlong) hs
      rw [herr] at hread
      cases hread
    obtain ⟨t, hread', ht⟩ := read_frame h hp tail hfits hs
    rw [deliver_of_ne hne] at hread'
    rw [hread'] at hread
    cases hread
    rcases List.mem_cons.mp hq with rfl | hq
    · exact hfits
    · exact fits_of_times h sends _ rest (fun q hq => hgood q (List.mem_cons_of_mem _ hq)) ht ⟨s', htimes⟩ q hq

/-- Padded frames that keep the limit read back. -/
theorem times_read_frames (h : ReadsStream read' stream closed) (sends : List (Arr 4 × Bytes)) (s : S) (rest : Bytes)
    (hgood : ∀ q ∈ sends, q.2.length ≠ 4 ∧ AcceptsWords q.2)
    (hfits : ∀ q ∈ sends, q.2.length + padLen q.2 ≤ maxMessageSize)
    (hs : stream s = sends.flatMap (fun q => intermediateFrame (framed q.1 q.2)) ++ rest) :
    ∃ s', times (read read') sends.length s = .ok (sends.map Prod.snd) s' ∧ stream s' = rest := by
  have hstep : ∀ (q : Arr 4 × Bytes) s rest,
      ((q.2.length ≠ 4 ∧ AcceptsWords q.2) ∧ q.2.length + padLen q.2 ≤ maxMessageSize) →
      stream s = intermediateFrame (framed q.1 q.2) ++ rest →
      ∃ s', read read' s = .ok q.2 s' ∧ stream s' = rest := by
    rintro q s rest ⟨⟨hne, hq⟩, hfit⟩ hs
    obtain ⟨s', hread, hs'⟩ := read_frame h hq q.1 hfit hs
    rw [deliver_of_ne hne] at hread
    exact ⟨s', hread, hs'⟩
  exact times_frames hstep sends s rest (fun q hq => ⟨hgood q hq, hfits q hq⟩) hs

/-- What was written is read back, to the last byte, if and only if every frame keeps the limit. -/
theorem lossless_iff {sends : List (Arr 4 × Bytes)} {out : Bytes} (hne : ∀ q ∈ sends, q.2.length ≠ 4)
    (hall : writeAll (fun q => write appendBytes q.1 q.2) sends [] = .ok () out) :
    times (read takeExact) sends.length out = .ok (sends.map Prod.snd) [] ↔
      ∀ q ∈ sends, q.2.length + padLen q.2 ≤ maxMessageSize := by
  have hreads := readsStream_takeBytes Exn.connectionClosed
  have hrefuse : ∀ (q : Arr 4 × Bytes) (s : Bytes), ¬ AcceptsWords q.2 →
      ∃ e s', write appendBytes q.1 q.2 s = .error e s' := by
    intro q s hq
    obtain ⟨e, he⟩ := outgoing_of_not_accepts hq (writeIntermediateFrame appendBytes _) s
    exact ⟨e, s, he⟩
  obtain ⟨hacc, hout⟩ := sent_of_writeAll
    (fun q s hq => write_of_accepts writesStream_appendBytes hq q.1 s) hrefuse sends hall
  have hgood : ∀ q ∈ sends, q.2.length ≠ 4 ∧ AcceptsWords q.2 := fun q hq => ⟨hne q hq, hacc q hq⟩
  have hs : id out = sends.flatMap (fun q => intermediateFrame (framed q.1 q.2)) ++ [] := by simpa using hout
  constructor
  · intro htimes
    exact fits_of_times hreads sends out [] hgood hs ⟨_, htimes⟩
  · intro hfits
    obtain ⟨s', htimes, hs'⟩ := times_read_frames hreads sends out [] hgood hfits hs
    rw [htimes, show s' = [] from hs']

end PaddedIntermediateCodec

/-- **Full and PaddedIntermediate framing.** Payloads that were all written are all read back, in order and to
the last byte, if and only if every frame keeps the limit of a message: its payload together with the 12
bytes that Full adds, or with the padding. -/
theorem countedFraming_lossless_iff (payloads : List Bytes) (c : FullCodec) (stream : Bytes)
    (sends : List (Arr 4 × Bytes)) (padded : Bytes) :
    ((∀ p ∈ payloads, p.length ≠ 4) → payloads.length < 2 ^ 31 →
      writeAll (FullCodec.write appendBytes) payloads ({}, []) = .ok () (c, stream) →
      ((∃ c', times (FullCodec.read takeExact) payloads.length ({}, stream) = .ok payloads (c', [])) ↔
        ∀ p ∈ payloads, p.length + 12 ≤ 2 ^ 24)) ∧
    ((∀ q ∈ sends, q.2.length ≠ 4) →
      writeAll (fun q => PaddedIntermediateCodec.write appendBytes q.1 q.2) sends [] = .ok () padded →
      (times (PaddedIntermediateCodec.read takeExact) sends.length padded = .ok (sends.map Prod.snd) [] ↔
        ∀ q ∈ sends, q.2.length + PaddedIntermediateCodec.padLen q.2 ≤ 2 ^ 24)) := by
  constructor
  · intro hne hcount hall
    exact FullCodec.lossless_iff hne (Nat.le_of_lt hcount) hall
  · intro hne hall
    exact PaddedIntermediateCodec.lossless_iff hne hall

/-- Payloads of two lengths, the second one padded. -/
def twoPayloads : List Bytes := [List.replicate 8 4, List.replicate 12 7]

theorem countedFraming_lossless_twoPayloads :
    (∃ c stream c', writeAll (FullCodec.write appendBytes) twoPayloads ({}, []) = .ok () (c, stream) ∧
      times (FullCodec.read takeExact) 2 ({}, stream) = .ok twoPayloads (c', [])) ∧
    ∃ padded, writeAll (fun q => PaddedIntermediateCodec.write appendBytes q.1 q.2)
        (twoPayloads.map fun p => (Arr.zero 4, p)) [] = .ok () padded ∧
      times (PaddedIntermediateCodec.read takeExact) 2 padded = .ok twoPayloads [] := by
  have hvalid : ∀ p ∈ twoPayloads, 0 < p.length ∧ p.length ≤ maxMessageSize := by decide
  have hsends : ∀ q ∈ twoPayloads.map fun p => (Arr.zero 4, p), AcceptsWords q.2 := by
    intro q hq
    obtain ⟨p, hp, rfl⟩ := List.mem_map.mp hq
    have hwords : ∀ p ∈ twoPayloads, 4 ∣ p.length := by decide
    exact ⟨hvalid p hp, hwords p hp⟩
  have hwriteFull : ∀ (p : Bytes) (cs : FullCodec × Bytes), ValidLength p.length →
      ∃ s', FullCodec.write appendBytes p cs = .ok () s' := by
    intro p cs hp
    obtain ⟨s', hwrite, -⟩ := FullCodec.write_of_valid (writesStream_appendBytes (ε := Exn)) hp cs.1 cs.2
    exact ⟨_, hwrite⟩
  have hwritePadded : ∀ (q : Arr 4 × Bytes) (s : Bytes), AcceptsWords q.2 →
      ∃ s', PaddedIntermediateCodec.write appendBytes q.1 q.2 s = .ok () s' := by
    intro q s hq
    obtain ⟨s', hwrite, -⟩ := PaddedIntermediateCodec.write_of_accepts writesStream_appendBytes hq q.1 s
    exact ⟨s', hwrite⟩
  obtain ⟨⟨c, stream⟩, hfull⟩ := writeAll_of_accepts hwriteFull twoPayloads ({}, []) hvalid
  obtain ⟨padded, hpadded⟩ :=
    writeAll_of_accepts hwritePadded (twoPayloads.map fun p => (Arr.zero 4, p)) [] hsends
  obtain ⟨hlossless, hlossless'⟩ :=
    countedFraming_lossless_iff twoPayloads c stream (twoPayloads.map fun p => (Arr.zero 4, p)) padded
  obtain ⟨c', htimes⟩ := (hlossless (by decide) (by decide) hfull).mpr (by decide)
  exact ⟨⟨c, stream, c', hfull, htimes⟩, padded, hpadded, (hlossless' (by decide) hpadded).mpr (by decide)⟩

/-- A payload of the largest size that is padded is written by both codecs, and read by neither. -/
theorem largest_refused {payload : Bytes} (hlen : payload.length = 2 ^ 24)
    (hpad : PaddedIntermediateCodec.padLen payload = 1) :
    (∃ c stream, FullCodec.write appendBytes payload ({}, []) = .ok () (c, stream) ∧
      ∃ e s, FullCodec.read takeExact ({}, stream) = .error e s) ∧
    (∃ stream, PaddedIntermediateCodec.write appendBytes (Arr.zero 4) payload [] = .ok () stream ∧
      ∃ e s, PaddedIntermediateCodec.read takeExact stream = .error e s) := by
  have hreads := readsStream_takeBytes Exn.connectionClosed
  have hvalid : ValidLength payload.length := by
    rw [hlen]
    exact ⟨by decide, Nat.le_refl _⟩
  have hp : AcceptsWords payload := ⟨hvalid, by rw [hlen]; decide⟩
  constructor
  · obtain ⟨stream, hwrite, hstream⟩ :=
      FullCodec.write_of_valid (writesStream_appendBytes (ε := Exn)) hvalid ({} : FullCodec) []
    have hs : id stream = FullCodec.frame 0 payload ++ [] := by
      rw [List.append_nil]
      exact hstream
    obtain ⟨e, cs, hread⟩ := FullCodec.read_frame_long hreads ({} : FullCodec)
      (by rw [hlen]; unfold maxMessageSize; omega) (by rw [hlen]; omega) hs
    exact ⟨_, stream, hwrite, e, cs, hread⟩
  · obtain ⟨stream, hwrite, hstream⟩ := PaddedIntermediateCodec.write_of_accepts
      (writesStream_appendBytes (ε := Exn)) hp (Arr.zero 4) []
    have hs : id stream = intermediateFrame (PaddedIntermediateCodec.framed (Arr.zero 4) payload) ++ [] := by
      rw [List.append_nil]
      exact hstream
    obtain ⟨e, s, hread⟩ := PaddedIntermediateCodec.read_frame_long hreads hp (Arr.zero 4)
      (by rw [hlen, hpad]; unfold maxMessageSize; omega) hs
    exact ⟨stream, hwrite, e, s, hread⟩

theorem padLen_replicate (n : Nat) (b : UInt8) :
    PaddedIntermediateCodec.padLen (List.replicate (n + 1) b) = b.toNat % 4 := by
  rw [PaddedIntermediateCodec.padLen, List.getLast?_replicate, if_neg (Nat.succ_ne_zero n)]

/-- The largest payload, of ones. -/
theorem largestOnes_refused :
    (∃ c stream, FullCodec.write appendBytes (List.replicate (16777215 + 1) 1) ({}, []) = .ok () (c, stream) ∧
      ∃ e s, FullCodec.read takeExact ({}, stream) = .error e s) ∧
    (∃ stream, PaddedIntermediateCodec.write appendBytes (Arr.zero 4) (List.replicate (16777215 + 1) 1) [] =
        .ok () stream ∧
      ∃ e s, PaddedIntermediateCodec.read takeExact stream = .error e s) :=
  largest_refused List.length_replicate (padLen_replicate 16777215 1)

end ShuzaGram.Mtproto.Transport

import ShuzaGram.Mtproto.Transport.Detect
import ShuzaGram.Properties.Framing

/-!
# The detected transport

The first bytes of a plain connection select the codec of its client, and what was read of them is not lost.
The two detectors read different amounts ahead, and nothing that is read through them tells which of the two
it was.
-/

namespace ShuzaGram.Mtproto.Transport

open Infra ByteStream

/-- A transport that is not obfuscated. -/
def DetectedTransport.IsPlain (d : DetectedTransport) : Prop := d.write = .raw

section Detectors

variable {S : Type} {P : StreamPrimitives} {rawRead : ReadExact Exn S} {stream : S → Bytes} {closed : Exn}
variable {secret : Bytes} {s s' : S}

theorem not_isPlain_of_detectObfuscated {init : Arr 64} {d : DetectedTransport}
    (h : detectObfuscated P init secret = .ok d) : ¬ d.IsPlain := by
  unfold detectObfuscated at h
  cases hacc : acceptObfuscated2 P init secret with
  | error e =>
    rw [hacc] at h
    cases h
  | ok accepted =>
    rw [hacc, ok_bind] at h
    cases htag : codecOfTag accepted.metadata.protocol with
    | none =>
      rw [htag] at h
      cases h
    | some codec =>
      rw [htag] at h
      cases h
      exact Writer.noConfusion

/-- Where `detectTransport` finds a plain transport, `detectCodec` finds the same codec, and the readers of
both stand before the same bytes. -/
theorem detectCodec_of_detectTransport (hraw : ReadsStream rawRead stream closed) {d : DetectedTransport}
    (h : detectTransport P rawRead secret s = .ok d s') (hplain : d.IsPlain) :
    ∃ d' s₁, detectCodec rawRead s = .ok d' s₁ ∧ d'.codec = d.codec ∧
      Reader.stream P stream (d'.read, s₁) = Reader.stream P stream (d.read, s') := by
  obtain ⟨first, s₁, hfirst, h₁⟩ := Steps.bind_eq_ok.mp h
  unfold detectCodec
  rw [Steps.bind_of_ok hfirst]
  -- Both detectors take their branches by the same first bytes; only `Full` needs a look at what is left.
  by_cases habridged : first = abridgedClientStart
  · rw [if_pos habridged] at h₁ ⊢
    cases h₁
    exact ⟨_, _, rfl, rfl, rfl⟩
  · rw [if_neg habridged] at h₁ ⊢
    obtain ⟨next, s₂, hnext, h₂⟩ := Steps.bind_eq_ok.mp h₁
    rw [Steps.bind_of_ok hnext]
    simp only at h₂ ⊢
    by_cases hinter : first :: next = intermediateClientStart
    · rw [if_pos hinter] at h₂ ⊢
      cases h₂
      exact ⟨_, _, rfl, rfl, rfl⟩
    · rw [if_neg hinter] at h₂ ⊢
      by_cases hpadded : first :: next = paddedIntermediateClientStart
      · rw [if_pos hpadded] at h₂ ⊢
        cases h₂
        exact ⟨_, _, rfl, rfl, rfl⟩
      · rw [if_neg hpadded] at h₂ ⊢
        by_cases hreserved : isReservedPrefix (first :: next) = true
        · rw [if_pos hreserved] at h₂
          cases h₂
        · rw [if_neg hreserved] at h₂
          obtain ⟨tail, s₃, htail, h₃⟩ := Steps.bind_eq_ok.mp h₂
          by_cases hzero : tail = [0, 0, 0, 0]
          · -- Full: one detector has read 4 bytes ahead, the other one 8
            rw [if_pos hzero] at h₃
            cases h₃
            refine ⟨_, _, rfl, rfl, ?_⟩
            simp only [Reader.stream, List.drop_zero]
            rw [(hraw.stream_of_ok htail).2, ← List.append_assoc]
          · rw [if_neg hzero] at h₃
            obtain ⟨rest, s₄, -, h₄⟩ := Steps.bind_eq_ok.mp h₃
            cases hobf : detectObfuscated P (Arr.ofList 64 (first :: next ++ tail ++ rest)) secret with
            | error e =>
              simp only [hobf] at h₄
              cases h₄
            | ok detected =>
              simp only [hobf] at h₄
              cases h₄
              exact absurd hplain (not_isPlain_of_detectObfuscated hobf)

end Detectors

/-- **The two detectors agree.** For every byte stream on which `detectTransport` returns a plain transport,
`detectCodec` returns the same codec, and both readers deliver the same bytes for every sequence of lengths,
up to the same failing read. -/
theorem detectors_agree (P : StreamPrimitives) (secret stream : Bytes) {d : DetectedTransport} {rest : Bytes}
    (h : detectTransport P takeExact secret stream = .ok d rest) (hplain : d.IsPlain) :
    ∃ d' rest', detectCodec takeExact stream = .ok d' rest' ∧ d'.codec = d.codec ∧
      ∀ lengths : List Nat, deliveries (Reader.read P takeExact) lengths (d'.read, rest') =
        deliveries (Reader.read P takeExact) lengths (d.read, rest) := by
  have hraw := readsStream_takeBytes Exn.connectionClosed
  obtain ⟨d', rest', hcodec, heq, hstream⟩ := detectCodec_of_detectTransport hraw h hplain
  refine ⟨d', rest', hcodec, heq, fun lengths => ?_⟩
  rw [(Reader.readsStream P hraw).deliveries_eq, (Reader.readsStream P hraw).deliveries_eq, hstream]

/-- A hash and keystreams of zeros. -/
def blankStreams : StreamPrimitives where
  sha256 _ := Arr.zero 32
  keystream _ _ _ := 0

/-- A first Full frame of 20 bytes, as far as it has come. -/
theorem detectors_agree_full :
    ∃ d' rest', detectCodec takeExact [20, 0, 0, 0, 0, 0, 0, 0, 1, 2, 3] = .ok d' rest' ∧ d'.codec = .full {} ∧
      ∀ lengths : List Nat, deliveries (Reader.read blankStreams takeExact) lengths (d'.read, rest') =
        deliveries (Reader.read blankStreams takeExact) lengths (.replay [20, 0, 0, 0, 0, 0, 0, 0] 0, [1, 2, 3]) :=
  detectors_agree blankStreams [] [20, 0, 0, 0, 0, 0, 0, 0, 1, 2, 3]
    (d := { codec := .full {}, read := .replay [20, 0, 0, 0, 0, 0, 0, 0] 0, write := .raw }) rfl rfl

/-! ## What selects a transport -/

section Selects

variable {S : Type} {P : StreamPrimitives} {rawRead : ReadExact Exn S} {stream : S → Bytes} {closed : Exn}
variable {secret rest : Bytes} {s : S}

theorem detectTransport_abridged (h : ReadsStream rawRead stream closed)
    (hs : stream s = abridgedClientStart :: rest) :
    ∃ s', detectTransport P rawRead secret s = .ok { codec := .abridged, read := .raw, write := .raw } s' ∧
      stream s' = rest := by
  obtain ⟨s', hfirst, hrest⟩ := readByte_cons h hs
  exact ⟨s', by rw [detectTransport, Steps.bind_of_ok hfirst, if_pos rfl]; rfl, hrest⟩

theorem detectTransport_intermediate (h : ReadsStream rawRead stream closed)
    (hs : stream s = intermediateClientStart ++ rest) :
    ∃ s', detectTransport P rawRead secret s = .ok { codec := .intermediate, read := .raw, write := .raw } s' ∧
      stream s' = rest := by
  obtain ⟨t, hfirst, ht⟩ := readByte_cons h hs
  obtain ⟨s', hnext, hrest⟩ := h.read_append (v := List.replicate 3 0xEE) (n := 3) ht rfl
  exact ⟨s', by rw [detectTransport, Steps.bind_of_ok hfirst, if_neg (by decide), Steps.bind_of_ok hnext]; rfl, hrest⟩

theorem detectTransport_paddedIntermediate (h : ReadsStream rawRead stream closed)
    (hs : stream s = paddedIntermediateClientStart ++ rest) :
    ∃ s', detectTransport P rawRead secret s = .ok { codec := .paddedIntermediate, read := .raw, write := .raw } s' ∧
      stream s' = rest := by
  obtain ⟨t, hfirst, ht⟩ := readByte_cons h hs
  obtain ⟨s', hnext, hrest⟩ := h.read_append (v := List.replicate 3 0xDD) (n := 3) ht rfl
  exact ⟨s', by rw [detectTransport, Steps.bind_of_ok hfirst, if_neg (by decide), Steps.bind_of_ok hnext]; rfl, hrest⟩

/-- Four bytes that are no mark of another transport. -/
structure Unmarked (first : UInt8) (next : Bytes) : Prop where
  length : next.length = 3
  abridged : first ≠ abridgedClientStart
  intermediate : first :: next ≠ intermediateClientStart
  paddedIntermediate : first :: next ≠ paddedIntermediateClientStart
  reserved : isReservedPrefix (first :: next) = false

/-- Behind them, detection looks at the next four bytes. -/
theorem detectTransport_of_unmarked (h : ReadsStream rawRead stream closed) {first : UInt8} {next tail : Bytes}
    (hmark : Unmarked first next) (htail : tail.length = 4) (hs : stream s = first :: (next ++ (tail ++ rest))) :
    ∃ s', stream s' = rest ∧ detectTransport P rawRead secret s =
      (do
        if tail = [0, 0, 0, 0] then
          return { codec := .full {}, read := .replay (first :: next ++ tail) 0, write := .raw }
        let rest ← rawRead 56
        match detectObfuscated P (Arr.ofList 64 (first :: next ++ tail ++ rest)) secret with
        | .ok detected => return detected
        | .error e => throw e : EStateM Exn S DetectedTransport) s' := by
  obtain ⟨s₁, hfirst, hs₁⟩ := readByte_cons h hs
  obtain ⟨s₂, hnext, hs₂⟩ := h.read_append hs₁ hmark.length
  obtain ⟨s', hread, hs'⟩ := h.read_append hs₂ htail
  refine ⟨s', hs', ?_⟩
  rw [detectTransport, Steps.bind_of_ok hfirst, if_neg hmark.abridged, Steps.bind_of_ok hnext]
  simp only
  rw [if_neg hmark.intermediate, if_neg hmark.paddedIntermediate, if_neg (by rw [hmark.reserved]; decide)]
  exact Steps.bind_of_ok hread

/-- The length of a Full frame is no mark. -/
theorem unmarked_length {n : Nat} (hwords : 4 ∣ n) (hlt : n < 2 ^ 24) :
    Unmarked (UInt8.ofNat n) (toLE 3 (n / 256)) := by
  have hlast : (UInt8.ofNat n :: toLE 3 (n / 256)).drop 3 = [0] := by
    have hzero : n / 256 / 256 / 256 = 0 := by omega
    simp [toLE, hzero]
  have hne : ∀ b : Bytes, b.drop 3 ≠ [0] → UInt8.ofNat n :: toLE 3 (n / 256) ≠ b := by
    rintro b hb rfl
    exact hb hlast
  refine ⟨length_toLE 3 _, ?_, hne _ (by decide), hne _ (by decide), ?_⟩
  · intro hc
    have hmod := congrArg UInt8.toNat hc
    rw [UInt8.toNat_ofNat'] at hmod
    have habridged : abridgedClientStart.toNat = 239 := rfl
    omega
  · unfold isReservedPrefix
    rw [decide_eq_false (hne _ (by decide)), decide_eq_false (hne _ (by decide)),
      decide_eq_false (hne _ (by decide)), decide_eq_false (hne _ (by decide)),
      decide_eq_false (hne _ (by decide))]
    rfl

end Selects

/-! ## What a client sends -/

/-- A client opens a connection and writes its payloads; the padded codec draws a tail for each. -/
def clientRun (sends : List (Arr 4 × Bytes)) : EStateM Exn (Codec × Bytes) Unit := do
  Codec.writeHeader appendBytes
  writeAll (fun q => Codec.write appendBytes q.1 q.2) sends

/-- The codecs that a client starts with. -/
def freshCodecs : List Codec := [.abridged, .intermediate, .paddedIntermediate, .full {}]

/-- The payloads that can open a connection: whole words, no error, room for what a codec adds. -/
structure Ordinary (payload : Bytes) : Prop where
  words : 4 ∣ payload.length
  noError : payload.length ≠ 4
  fits : payload.length ≤ 2 ^ 24 - 16

/-- The frame of Full keeps the limit. -/
theorem Ordinary.length_add_le {payload : Bytes} (h : Ordinary payload) : payload.length + 12 ≤ maxMessageSize := by
  have hfits := h.fits
  unfold maxMessageSize
  omega

/-- What the server reads: the same payloads, to the end of the connection. -/
def ReadsBack (P : StreamPrimitives) (d : DetectedTransport) (rest : Bytes) (payloads : List Bytes) : Prop :=
  ∃ c t, times (Codec.read (Reader.read P takeExact)) payloads.length (d.codec, (d.read, rest)) = .ok payloads (c, t) ∧
    Reader.stream P id t = []

/-- The reader gives the stream from its first byte, however it is read. -/
def GivesStream (P : StreamPrimitives) (d : DetectedTransport) (rest stream : Bytes) : Prop :=
  ∀ lengths : List Nat, lengths.sum ≤ stream.length →
    (deliveries (Reader.read P takeExact) lengths (d.read, rest)).2 = none ∧
    (deliveries (Reader.read P takeExact) lengths (d.read, rest)).1.map List.length = lengths ∧
    (deliveries (Reader.read P takeExact) lengths (d.read, rest)).1.flatten = stream.take lengths.sum

/-! ### Codecs without counters -/

/-- A codec that has no state of its own: its header, and a frame for every payload that is read back wherever
it stands. -/
structure Stateless (codec : Codec) (header : Bytes) (frame : Arr 4 × Bytes → Bytes)
    (write : Arr 4 × Bytes → EStateM Exn Bytes Unit)
    (read : ReadExact Exn (Reader × Bytes) → EStateM Exn (Reader × Bytes) Bytes) : Prop where
  writeHeader : Codec.writeHeader appendBytes (codec, []) = .ok () (codec, header)
  embedsWrite : ∀ q, Steps.Embeds (Prod.mk codec) (write q) (Codec.write appendBytes q.1 q.2)
  embedsRead : ∀ r, Steps.Embeds (Prod.mk codec) (read r) (Codec.read r)
  accepts : ∀ q s, AcceptsWords q.2 → ∃ s', write q s = .ok () s' ∧ id s' = id s ++ frame q
  refuses : ∀ q s, ¬ AcceptsWords q.2 → ∃ e, write q s = .error e s
  readFrame : ∀ r str, ReadsStream r str .connectionClosed → ∀ q s rest, AcceptsWords q.2 → Ordinary q.2 →
    str s = frame q ++ rest → ∃ s', read r s = deliver q.2 s' ∧ str s' = rest

theorem stateless_abridged : Stateless .abridged [abridgedClientStart] (fun q => AbridgedCodec.frame q.2)
    (fun q => AbridgedCodec.write appendBytes q.2) AbridgedCodec.read where
  writeHeader := rfl
  embedsWrite := Codec.embeds_write_abridged appendBytes
  embedsRead := Codec.embeds_read_abridged
  accepts _ s hq := AbridgedCodec.write_of_accepts writesStream_appendBytes hq s
  refuses _ s hq := outgoing_of_not_accepts hq _ s
  readFrame _ _ hr _ _ _ hq _ hs := AbridgedCodec.read_frame hr hq hs

theorem stateless_intermediate : Stateless .intermediate intermediateClientStart (fun q => intermediateFrame q.2)
    (fun q => IntermediateCodec.write appendBytes q.2) IntermediateCodec.read where
  writeHeader := rfl
  embedsWrite := Codec.embeds_write_intermediate appendBytes
  embedsRead := Codec.embeds_read_intermediate
  accepts _ s hq := IntermediateCodec.write_of_accepts writesStream_appendBytes hq s
  refuses _ s hq := outgoing_of_not_accepts hq _ s
  readFrame _ _ hr _ _ _ hq _ hs := IntermediateCodec.read_frame hr hq hs

theorem stateless_paddedIntermediate : Stateless .paddedIntermediate paddedIntermediateClientStart
    (fun q => intermediateFrame (PaddedIntermediateCodec.framed q.1 q.2))
    (fun q => PaddedIntermediateCodec.write appendBytes q.1 q.2) PaddedIntermediateCodec.read where
  writeHeader := rfl
  embedsWrite := Codec.embeds_write_paddedIntermediate appendBytes
  embedsRead := Codec.embeds_read_paddedIntermediate
  accepts q s hq := PaddedIntermediateCodec.write_of_accepts writesStream_appendBytes hq q.1 s
  refuses _ s hq := outgoing_of_not_accepts hq _ s
  readFrame _ _ hr q _ _ hq hordinary hs := by
    have hpad := PaddedIntermediateCodec.padLen_lt q.2
    have hfits := hordinary.fits
    exact PaddedIntermediateCodec.read_frame hr hq q.1 (by unfold maxMessageSize; omega) hs

section Client

variable {P : StreamPrimitives} {secret : Bytes} {sends : List (Arr 4 × Bytes)} {c : Codec} {stream rest : Bytes}

namespace Stateless

variable {codec : Codec} {header : Bytes} {frame : Arr 4 × Bytes → Bytes}
variable {write : Arr 4 × Bytes → EStateM Exn Bytes Unit}
variable {read : ReadExact Exn (Reader × Bytes) → EStateM Exn (Reader × Bytes) Bytes}

/-- What such a client sends. -/
theorem clientRun (h : Stateless codec header frame write read)
    (hrun : clientRun sends (codec, []) = .ok () (c, stream)) :
    (∀ q ∈ sends, AcceptsWords q.2) ∧ stream = header ++ sends.flatMap frame := by
  rw [Transport.clientRun, Steps.bind_of_ok h.writeHeader, embeds_writeAll h.embedsWrite sends header] at hrun
  cases hall : writeAll write sends header with
  | error e s =>
    rw [hall] at hrun
    cases hrun
  | ok u s =>
    rw [hall] at hrun
    cases hrun
    exact sent_of_writeAll h.accepts (fun q s hq => (h.refuses q s hq).imp fun e he => ⟨s, he⟩) sends hall

/-- The server reads it through the connection's own reader. -/
theorem readsBack (h : Stateless codec header frame write read) (hacc : ∀ q ∈ sends, AcceptsWords q.2)
    (hordinary : ∀ q ∈ sends, Ordinary q.2) :
    ReadsBack P { codec, read := .raw, write := .raw } (sends.flatMap frame) (sends.map Prod.snd) := by
  have hreads := Reader.readsStream P (readsStream_takeBytes Exn.connectionClosed)
  have hstep : ∀ (q : Arr 4 × Bytes) s rest, (AcceptsWords q.2 ∧ Ordinary q.2) →
      Reader.stream P id s = frame q ++ rest →
      ∃ s', read (Reader.read P takeExact) s = .ok q.2 s' ∧ Reader.stream P id s' = rest := by
    rintro q s rest ⟨hq, hq'⟩ hs
    obtain ⟨s', hread, hs'⟩ := h.readFrame _ _ hreads q s rest hq hq' hs
    rw [deliver_of_ne hq'.noError] at hread
    exact ⟨s', hread, hs'⟩
  obtain ⟨t, htimes, ht⟩ := times_frames hstep sends (.raw, sends.flatMap frame) []
    (fun q hq => ⟨hacc q hq, hordinary q hq⟩) (by simp [Reader.stream])
  refine ⟨codec, t, ?_, ht⟩
  have hcodec := embeds_times (h.embedsRead (Reader.read P takeExact)) sends.length (.raw, sends.flatMap frame)
  rw [htimes] at hcodec
  rw [List.length_map]
  exact hcodec

/-- A client whose header is detected is recognised. -/
theorem recognises (h : Stateless codec header frame write read) (hstateful : codec ≠ .full {})
    (hdetect : ∀ rest, ∃ rest', detectTransport P takeExact secret (header ++ rest) =
      .ok { codec, read := .raw, write := .raw } rest' ∧ id rest' = rest)
    (hordinary : ∀ q ∈ sends, Ordinary q.2) (hrun : Transport.clientRun sends (codec, []) = .ok () (c, stream)) :
    ∃ d rest, detectTransport P takeExact secret stream = .ok d rest ∧ d.IsPlain ∧ d.codec = codec ∧
      ReadsBack P d rest (sends.map Prod.snd) ∧ (codec = .full {} → GivesStream P d rest stream) := by
  obtain ⟨hacc, rfl⟩ := h.clientRun hrun
  obtain ⟨rest, hok, hrest⟩ := hdetect (sends.flatMap frame)
  refine ⟨_, rest, hok, rfl, rfl, ?_, fun hc => absurd hc hstateful⟩
  rw [show rest = sends.flatMap frame from hrest]
  exact h.readsBack hacc hordinary

end Stateless

/-! ### Full -/

/-- What a Full client sends. -/
theorem clientRun_full (hrun : clientRun sends (.full {}, []) = .ok () (c, stream)) :
    (∀ q ∈ sends, ValidLength q.2.length) ∧ stream = FullCodec.frames 0 (sends.map Prod.snd) := by
  have hembeds : ∀ q : Arr 4 × Bytes, Steps.Embeds Codec.ofFull (FullCodec.write appendBytes q.2)
      (Codec.write appendBytes q.1 q.2) := Codec.embeds_write_full appendBytes
  have hheader : Codec.writeHeader appendBytes (.full {}, []) = .ok () (Codec.ofFull ({}, [])) := rfl
  rw [clientRun, Steps.bind_of_ok hheader, embeds_writeAll hembeds sends ({}, [])] at hrun
  cases hall : writeAll (fun q : Arr 4 × Bytes => FullCodec.write appendBytes q.2) sends ({}, []) with
  | error e cs =>
    rw [hall] at hrun
    cases hrun
  | ok u cs =>
    rw [hall] at hrun
    obtain ⟨f, out⟩ := cs
    cases hrun
    rw [writeAll_map] at hall
    obtain ⟨hvalid, hout⟩ := FullCodec.sent_of_writeAll (sends.map Prod.snd) hall
    exact ⟨fun q hq => hvalid q.2 (List.mem_map_of_mem hq), hout⟩

/-- The first frame selects Full, and what was read of it is given back. -/
theorem detectTransport_full (P : StreamPrimitives) (secret : Bytes) {p : Bytes} {ps : List Bytes} (hp : Ordinary p)
    (hstream : stream = FullCodec.frames 0 (p :: ps)) :
    ∃ bytes rest, detectTransport P takeExact secret stream =
        .ok { codec := .full {}, read := .replay bytes 0, write := .raw } rest ∧ bytes ++ rest = stream := by
  have hraw := readsStream_takeBytes Exn.connectionClosed
  have hfits := hp.fits
  have hmark := unmarked_length (Nat.dvd_add hp.words (by decide : 4 ∣ 12)) (by omega)
  have hs : id stream = UInt8.ofNat (p.length + 12) :: (toLE 3 ((p.length + 12) / 256) ++ ([0, 0, 0, 0] ++
      (p ++ toLE 4 (crc32Ieee (FullCodec.covered 0 p)).toNat ++ FullCodec.frames 1 ps))) := by
    rw [hstream, FullCodec.frames, FullCodec.frame_eq, FullCodec.behindLength]
    simp only [List.append_assoc]
    rfl
  obtain ⟨rest, hrest, hdetect⟩ := detectTransport_of_unmarked (P := P) hraw hmark rfl hs
  refine ⟨_, rest, hdetect, ?_⟩
  rw [show rest = _ from hrest, show stream = _ from hs]
  simp

theorem readsBack_full {bytes : Bytes} {payloads : List Bytes} (hordinary : ∀ p ∈ payloads, Ordinary p)
    (hcount : payloads.length ≤ 2 ^ 31) (hstream : bytes ++ rest = FullCodec.frames 0 payloads) :
    ReadsBack P { codec := .full {}, read := .replay bytes 0, write := .raw } rest payloads := by
  have hreads := Reader.readsStream P (readsStream_takeBytes Exn.connectionClosed)
  have hfits : ∀ p ∈ payloads, p.length + 12 ≤ maxMessageSize := fun p hp => (hordinary p hp).length_add_le
  obtain ⟨c', t, htimes, -, ht⟩ := FullCodec.times_read_frames hreads payloads {} (.replay bytes 0, rest) []
    (fun p hp => (hordinary p hp).noError) hfits (by simpa using hcount) (by simpa [Reader.stream] using hstream)
  refine ⟨.full c', t, ?_, ht⟩
  have hcodec := embeds_times (Codec.embeds_read_full (Reader.read P takeExact)) payloads.length
    ({}, (.replay bytes 0, rest))
  rw [htimes] at hcodec
  exact hcodec

theorem givesStream_full {bytes : Bytes} (hstream : bytes ++ rest = stream) :
    GivesStream P { codec := .full {}, read := .replay bytes 0, write := .raw } rest stream := by
  intro lengths hsum
  have hreads := Reader.readsStream P (readsStream_takeBytes Exn.connectionClosed)
  have hall : Reader.stream P id (.replay bytes 0, rest) = stream := by
    rw [← hstream]
    rfl
  rw [hreads.deliveries_eq, hall]
  exact deliveries_takeBytes _ lengths stream hsum

end Client

/-- **Plain transports are always recognised.** Whatever a client of one of the four plain transports sends
at first, detection selects its codec, and the payloads are read back. A Full client sends at most `2 ^ 31` of
them; its stream is given back from the first byte, however it is read. -/
theorem detectTransport_recognises (P : StreamPrimitives) (secret : Bytes) {codec : Codec} (hcodec : codec ∈ freshCodecs)
    {sends : List (Arr 4 × Bytes)} (hne : sends ≠ []) (hordinary : ∀ q ∈ sends, Ordinary q.2)
    (hcount : codec = .full {} → sends.length ≤ 2 ^ 31) {c : Codec} {stream : Bytes}
    (hrun : clientRun sends (codec, []) = .ok () (c, stream)) :
    ∃ d rest, detectTransport P takeExact secret stream = .ok d rest ∧ d.IsPlain ∧ d.codec = codec ∧
      ReadsBack P d rest (sends.map Prod.snd) ∧ (codec = .full {} → GivesStream P d rest stream) := by
  have hraw := readsStream_takeBytes Exn.connectionClosed
  simp only [freshCodecs, List.mem_cons, List.not_mem_nil, or_false] at hcodec
  rcases hcodec with rfl | rfl | rfl | rfl
  · exact stateless_abridged.recognises (by decide) (fun rest => detectTransport_abridged hraw rfl) hordinary hrun
  · exact stateless_intermediate.recognises (by decide) (fun rest => detectTransport_intermediate hraw rfl) hordinary
      hrun
  · exact stateless_paddedIntermediate.recognises (by decide) (fun rest => detectTransport_paddedIntermediate hraw rfl)
      hordinary hrun
  · obtain ⟨-, hstream⟩ := clientRun_full hrun
    cases sends with
    | nil => exact absurd rfl hne
    | cons q sends =>
      obtain ⟨bytes, rest, hdetect, hall⟩ := detectTransport_full P secret (hordinary q List.mem_cons_self) hstream
      refine ⟨_, rest, hdetect, rfl, rfl, ?_, fun _ => givesStream_full hall⟩
      refine readsBack_full ?_ (by rw [List.length_map]; exact hcount rfl) (by rw [hall, hstream])
      intro p hp
      obtain ⟨q', hq', rfl⟩ := List.mem_map.mp hp
      exact hordinary q' hq'

/-- A Full client with two payloads. -/
theorem detectTransport_recognises_full :
    ∃ c stream d rest,
      clientRun [(Arr.zero 4, [1, 2, 3, 4, 5, 6, 7, 8]), (Arr.zero 4, [9, 10, 11, 12, 13, 14, 15, 16])]
        (.full {}, []) = .ok () (c, stream) ∧
      detectTransport blankStreams takeExact [] stream = .ok d rest ∧ d.codec = .full {} ∧
      ReadsBack blankStreams d rest [[1, 2, 3, 4, 5, 6, 7, 8], [9, 10, 11, 12, 13, 14, 15, 16]] := by
  have hordinary : ∀ q ∈ [(Arr.zero 4, [1, 2, 3, 4, 5, 6, 7, 8]), (Arr.zero 4, [9, 10, 11, 12, 13, 14, 15, 16])],
      Ordinary q.2 := by
    intro q hq
    rcases List.mem_cons.mp hq with rfl | hq
    · exact ⟨by decide, by decide, by decide⟩
    · rcases List.mem_singleton.mp hq with rfl
      exact ⟨by decide, by decide, by decide⟩
  obtain ⟨d, rest, hdetect, -, hcodec, hreads, -⟩ := detectTransport_recognises blankStreams []
    (by decide : Codec.full {} ∈ freshCodecs) (by simp) hordinary (fun _ => by simp) rfl
  exact ⟨_, _, d, rest, rfl, hdetect, hcodec, hreads⟩

/-! ## Too many Full payloads -/

/-- Valid payloads are all written. -/
theorem clientRun_full_of_valid {sends : List (Arr 4 × Bytes)} (hvalid : ∀ q ∈ sends, ValidLength q.2.length) :
    ∃ c stream, clientRun sends (.full {}, []) = .ok () (c, stream) := by
  have hok : ∀ (q : Arr 4 × Bytes) (cs : FullCodec × Bytes), ValidLength q.2.length →
      ∃ cs', FullCodec.write appendBytes q.2 cs = .ok () cs' := by
    rintro q ⟨c, out⟩ hq
    obtain ⟨s', hwrite, -⟩ := FullCodec.write_of_valid writesStream_appendBytes hq c out
    exact ⟨_, hwrite⟩
  obtain ⟨cs, hall⟩ := writeAll_of_accepts hok sends ({}, []) hvalid
  have hembeds : ∀ q : Arr 4 × Bytes, Steps.Embeds Codec.ofFull (FullCodec.write appendBytes q.2)
      (Codec.write appendBytes q.1 q.2) := Codec.embeds_write_full appendBytes
  have hheader : Codec.writeHeader appendBytes (.full {}, []) = .ok () (Codec.ofFull ({}, [])) := rfl
  refine ⟨.full cs.1, cs.2, ?_⟩
  rw [clientRun, Steps.bind_of_ok hheader, embeds_writeAll hembeds sends ({}, []), hall]
  rfl

/-- After `2 ^ 31` payloads the counter of the reader and the number that travels no longer agree. -/
theorem overlong_refused (P : StreamPrimitives) (secret : Bytes) {sends : List (Arr 4 × Bytes)}
    (hordinary : ∀ q ∈ sends, Ordinary q.2) (hlong : 2 ^ 31 < sends.length) {c : Codec} {stream : Bytes}
    (hrun : clientRun sends (.full {}, []) = .ok () (c, stream)) :
    ∃ d rest e t, detectTransport P takeExact secret stream = .ok d rest ∧
      times (Codec.read (Reader.read P takeExact)) sends.length (d.codec, (d.read, rest)) = .error e t := by
  obtain ⟨-, hstream⟩ := clientRun_full hrun
  have hpayloads : ∀ p ∈ sends.map Prod.snd, Ordinary p := by
    intro p hp
    obtain ⟨q, hq, rfl⟩ := List.mem_map.mp hp
    exact hordinary q hq
  rw [← List.length_map (f := Prod.snd)] at hlong ⊢
  obtain ⟨p, ps, hcons⟩ : ∃ p ps, sends.map Prod.snd = p :: ps := List.exists_cons_of_length_pos (by omega)
  have hp : Ordinary p := hpayloads p (by rw [hcons]; exact List.mem_cons_self)
  obtain ⟨bytes, rest, hdetect, hall⟩ := detectTransport_full P secret hp (hcons ▸ hstream)
  have hs : Reader.stream P id (.replay bytes 0, rest) = FullCodec.frames 0 (sends.map Prod.snd) ++ [] := by
    rw [List.append_nil, ← hstream, ← hall]
    rfl
  obtain ⟨e, cs, herror⟩ := FullCodec.times_read_overlong
    (Reader.readsStream P (readsStream_takeBytes Exn.connectionClosed)) (fun p hp => (hpayloads p hp).noError)
    (fun p hp => (hpayloads p hp).length_add_le) hlong hs
  have hcodec := embeds_times (Codec.embeds_read_full (Reader.read P takeExact)) (sends.map Prod.snd).length
    ({}, (.replay bytes 0, rest))
  rw [herror] at hcodec
  exact ⟨_, rest, e, _, hdetect, hcodec⟩

/-- The same payload again and again. -/
theorem overlong_replicate {p : Bytes} (hp : Ordinary p) (hpos : 0 < p.length) {n : Nat} (hlong : 2 ^ 31 < n) :
    ∃ c stream d rest e t, clientRun (List.replicate n (Arr.zero 4, p)) (.full {}, []) = .ok () (c, stream) ∧
      detectTransport blankStreams takeExact [] stream = .ok d rest ∧
      times (Codec.read (Reader.read blankStreams takeExact)) n (d.codec, (d.read, rest)) = .error e t := by
  have hfits := hp.fits
  have hordinary : ∀ q ∈ List.replicate n (Arr.zero 4, p), Ordinary q.2 := by
    intro q hq
    rw [List.eq_of_mem_replicate hq]
    exact hp
  have hvalid : ∀ q ∈ List.replicate n (Arr.zero 4, p), ValidLength q.2.length := by
    intro q hq
    have hle : p.length ≤ maxMessageSize := by
      unfold maxMessageSize
      omega
    rw [List.eq_of_mem_replicate hq]
    exact ⟨hpos, hle⟩
  obtain ⟨c, stream, hrun⟩ := clientRun_full_of_valid hvalid
  obtain ⟨d, rest, e, t, hdetect, hread⟩ := overlong_refused blankStreams [] hordinary
    (by rw [List.length_replicate]; exact hlong) hrun
  rw [List.length_replicate] at hread
  exact ⟨c, stream, d, rest, e, t, hrun, hdetect, hread⟩

/-- One payload more than 31 bits can number. -/
theorem overlongRun_refused :
    ∃ c stream d rest e t,
      clientRun (List.replicate (2 ^ 31 + 1) (Arr.zero 4, List.replicate 8 0)) (.full {}, []) = .ok () (c, stream) ∧
      detectTransport blankStreams takeExact [] stream = .ok d rest ∧
      times (Codec.read (Reader.read blankStreams takeExact)) (2 ^ 31 + 1) (d.codec, (d.read, rest)) = .error e t := by
  have hordinary : Ordinary (List.replicate 8 0) := ⟨by decide, by decide, by decide⟩
  obtain ⟨c, stream, d, rest, e, t, hrun, hdetect, hread⟩ := overlong_replicate hordinary
    (by decide) (Nat.lt_succ_self (2 ^ 31))
  exact ⟨c, stream, d, rest, e, t, hrun, hdetect, hread⟩

end ShuzaGram.Mtproto.Transport

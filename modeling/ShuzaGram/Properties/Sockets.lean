import Mathlib.Algebra.BigOperators.Group.List.Basic
import ShuzaGram.Net.TcpSocket
import ShuzaGram.Properties.TransportDetection

/-!
# Transports over sockets

Detection and the codecs see a connection only through its reads and writes. So they cannot tell in which parts the
bytes travel: what a server makes of a connection depends on the bytes alone, and what a client sends over one socket
is what the server reads from the other.
-/

namespace ShuzaGram.Mtproto.Transport

open Infra ByteStream

/-! ## The same reads, the same program -/

section Reads

variable {S T : Type} {early : Prop} {R : S → T → Prop} {read : ReadExact Exn S} {read' : ReadExact Exn T}

theorem refines_readByte (h : ∀ n, Refines early R (read n) (read' n)) :
    Refines early R (readByte read) (readByte read') :=
  (h 1).bind fun b => .pure (b.headD 0)

theorem refines_readU32Le (h : ∀ n, Refines early R (read n) (read' n)) :
    Refines early R (readU32Le read) (readU32Le read') :=
  (h 4).bind fun b => .pure (UInt32.ofNat (ofLE b))

theorem refines_checkMessageLength (n : Nat) :
    Refines early R (checkMessageLength n : EStateM Exn S Unit) (checkMessageLength n) := .ite (.throw _) (.pure ())

theorem refines_deliver (payload : Bytes) : Refines early R (deliver payload : EStateM Exn S Bytes) (deliver payload) := by
  have hcheck : Refines early R (checkProtocolError payload : EStateM Exn S Unit) (checkProtocolError payload) :=
    .ite (.pure ()) (.throw _)
  exact hcheck.bind fun _ => .pure payload

theorem AbridgedCodec.refines_read (h : ∀ n, Refines early R (read n) (read' n)) :
    Refines early R (AbridgedCodec.read read) (AbridgedCodec.read read') := by
  have hlength : Refines early R (AbridgedCodec.readLength read) (AbridgedCodec.readLength read') := by
    refine (refines_readByte h).bind fun first => ?_
    have hwords : ∀ n, Refines early R (checkMessageLength n >>= fun _ => pure n : EStateM Exn S Nat)
        (checkMessageLength n >>= fun _ => pure n) := fun n => (refines_checkMessageLength n).bind fun _ => .pure n
    exact .guard (.ite (hwords _) ((h 3).bind fun ext => .guard (hwords _)))
  exact hlength.bind fun n => (h n).bind refines_deliver

theorem refines_readIntermediateFrame (h : ∀ n, Refines early R (read n) (read' n)) (padding : Bool) :
    Refines early R (readIntermediateFrame read padding) (readIntermediateFrame read' padding) := by
  refine (refines_readU32Le h).bind fun n => (refines_checkMessageLength _).bind fun _ => (h _).bind fun payload => ?_
  exact .ite (.pure _) (.pure _)

theorem IntermediateCodec.refines_read (h : ∀ n, Refines early R (read n) (read' n)) :
    Refines early R (IntermediateCodec.read read) (IntermediateCodec.read read') :=
  (refines_readIntermediateFrame h false).bind refines_deliver

theorem PaddedIntermediateCodec.refines_read (h : ∀ n, Refines early R (read n) (read' n)) :
    Refines early R (PaddedIntermediateCodec.read read) (PaddedIntermediateCodec.read read') :=
  (refines_readIntermediateFrame h true).bind refines_deliver

theorem FullCodec.refines_read (h : ∀ n, Refines early R (read n) (read' n)) :
    Refines early (Refines.Beside FullCodec R) (FullCodec.read read) (FullCodec.read read') := by
  have hnext : Refines early (Refines.Beside FullCodec R) (nextReadSeqNo : EStateM Exn (FullCodec × S) Nat) nextReadSeqNo := by
    rintro ⟨c, s⟩ ⟨c', t⟩ ⟨rfl, hst⟩
    exact .ok ⟨rfl, hst⟩
  refine (Refines.beside (refines_readU32Le h)).bind fun n => (refines_checkMessageLength _).bind fun _ => ?_
  refine .guard ((Refines.beside (h _)).bind fun rest => hnext.bind fun expected => ?_)
  exact .guard (.guard (refines_deliver _))

theorem Codec.refines_read (h : ∀ n, Refines early R (read n) (read' n)) :
    Refines early (Refines.Beside Codec R) (Codec.read read) (Codec.read read') := by
  rintro ⟨c, s⟩ ⟨c', t⟩ ⟨rfl, hst⟩
  cases c with
  | abridged => exact Refines.beside (AbridgedCodec.refines_read h) ⟨rfl, hst⟩
  | intermediate => exact Refines.beside (IntermediateCodec.refines_read h) ⟨rfl, hst⟩
  | paddedIntermediate => exact Refines.beside (PaddedIntermediateCodec.refines_read h) ⟨rfl, hst⟩
  | full c =>
    have hfull : SameEnd early _ (FullCodec.read read (c, s)) (FullCodec.read read' (c, t)) :=
      FullCodec.refines_read h ⟨rfl, hst⟩
    simp only [Codec.read]
    generalize FullCodec.read read (c, s) = r at hfull ⊢
    generalize FullCodec.read read' (c, t) = r' at hfull ⊢
    cases hfull with
    | ok hcs => exact .ok ⟨congrArg Codec.full hcs.1, hcs.2⟩
    | error => exact .error
    | early h => exact .early h

variable (P : StreamPrimitives)

theorem Reader.refines_read (h : ∀ n, Refines early R (read n) (read' n)) (n : Nat) :
    Refines early (Refines.Beside Reader R) (Reader.read P read n) (Reader.read P read' n) := by
  rintro ⟨r, s⟩ ⟨r', t⟩ ⟨rfl, hst⟩
  cases r with
  | raw => exact Refines.beside (h n) ⟨rfl, hst⟩
  | replay bytes pos =>
    simp only [Reader.read, Replay.read]
    by_cases hlen : min n (bytes.length - pos) < n
    · -- what was read ahead is not enough
      rw [if_pos hlen, if_pos hlen]
      have hmore := h (n - min n (bytes.length - pos)) hst
      generalize read (n - min n (bytes.length - pos)) s = x at hmore ⊢
      generalize read' (n - min n (bytes.length - pos)) t = y at hmore ⊢
      cases hmore with
      | ok hst' => exact .ok ⟨rfl, hst'⟩
      | error => exact .error
      | early h => exact .early h
    · rw [if_neg hlen, if_neg hlen]
      exact .ok ⟨rfl, hst⟩
  | deobfuscated decrypt =>
    simp only [Reader.read]
    have hn := h n hst
    generalize read n s = x at hn ⊢
    generalize read' n t = y at hn ⊢
    cases hn with
    | ok hst' => exact .ok ⟨rfl, hst'⟩
    | error => exact .error
    | early h => exact .early h

theorem refines_detectTransport (h : ∀ n, Refines early R (read n) (read' n)) (secret : Bytes) :
    Refines early R (detectTransport P read secret) (detectTransport P read' secret) := by
  refine (refines_readByte h).bind fun first => .ite (.pure _) ((h 3).bind fun next => ?_)
  refine .ite (.pure _) (.ite (.pure _) (.guard ((h 4).bind fun tail => .ite (.pure _) ((h 56).bind fun rest => ?_))))
  cases detectObfuscated P (Arr.ofList 64 (first :: next ++ tail ++ rest)) secret with
  | ok detected => exact .pure detected
  | error e => exact .throw e

/-- So many payloads, through a detected transport. -/
def readPayloads (read : ReadExact Exn S) (detected : DetectedTransport) (n : Nat) : EStateM Exn S (List Bytes) := fun s =>
  match times (Codec.read (Reader.read P read)) n (detected.codec, (detected.read, s)) with
  | .ok payloads (_, (_, s')) => .ok payloads s'
  | .error e (_, (_, s')) => .error e s'

/-- A server's side of a connection: detection, and so many payloads. -/
def receive (read : ReadExact Exn S) (secret : Bytes) (n : Nat) : EStateM Exn S (List Bytes) := do
  readPayloads P read (← detectTransport P read secret) n

theorem uniform_detectTransport (secret : Bytes) :
    Uniform fun (S : Type) (read : ReadExact Exn S) => detectTransport P read secret :=
  fun _ _ _ _ _ _ h => refines_detectTransport P h secret

theorem refines_readPayloads (h : ∀ n, Refines early R (read n) (read' n)) (detected : DetectedTransport) (n : Nat) :
    Refines early R (readPayloads P read detected n) (readPayloads P read' detected n) := by
  intro s t hst
  have htimes := refines_times (Codec.refines_read (Reader.refines_read P h)) n
    (s := (detected.codec, (detected.read, s))) (t := (detected.codec, (detected.read, t))) ⟨rfl, rfl, hst⟩
  unfold readPayloads
  generalize times (Codec.read (Reader.read P read)) n (detected.codec, (detected.read, s)) = x at htimes ⊢
  generalize times (Codec.read (Reader.read P read')) n (detected.codec, (detected.read, t)) = y at htimes ⊢
  cases htimes with
  | ok hcs => exact .ok hcs.2.2
  | error => exact .error
  | early h => exact .early h

theorem uniform_readPayloads (detected : DetectedTransport) (n : Nat) :
    Uniform fun (S : Type) (read : ReadExact Exn S) => readPayloads P read detected n :=
  fun _ _ _ _ _ _ h => refines_readPayloads P h detected n

theorem uniform_receive (secret : Bytes) (n : Nat) :
    Uniform fun (S : Type) (read : ReadExact Exn S) => receive P read secret n :=
  fun _ _ _ _ _ _ h => (refines_detectTransport P h secret).bind fun detected => uniform_readPayloads P detected n h

end Reads

/-! ## What arrives -/

section Receives

variable (P : StreamPrimitives) (ending : Net.Ending) (secret : Bytes) (n : Nat)

/-- A server reads a socket as it would read the bytes that arrive at it. -/
theorem receive_outcome (t : Net.TcpSocket) :
    outcome (receive P (Net.TcpSocket.readExact ending) secret n t) =
      outcome (receive P (takeBytes ending.thrown) secret n (Net.incoming t.arrivals)) :=
  (uniform_receive P secret n).outcome_eq (Net.TcpSocket.readsStream ending) t

/-- A server detects what it would detect in the bytes that arrive at a socket. -/
theorem detectTransport_outcome (t : Net.TcpSocket) :
    outcome (detectTransport P (Net.TcpSocket.readExact ending) secret t) =
      outcome (detectTransport P (takeBytes ending.thrown) secret (Net.incoming t.arrivals)) :=
  (uniform_detectTransport P secret).outcome_eq (Net.TcpSocket.readsStream ending) t

/-- **The parts in which bytes travel do not matter.** From two sockets at which the same bytes arrive, in whatever
segments and with whatever interruptions, a server detects the same transport and reads the same payloads, or throws the
same exception. -/
theorem receive_segmentation {t t' : Net.TcpSocket} (h : Net.incoming t.arrivals = Net.incoming t'.arrivals) :
    outcome (detectTransport P (Net.TcpSocket.readExact ending) secret t) =
        outcome (detectTransport P (Net.TcpSocket.readExact ending) secret t') ∧
      outcome (receive P (Net.TcpSocket.readExact ending) secret n t) =
        outcome (receive P (Net.TcpSocket.readExact ending) secret n t') := by
  constructor
  · rw [detectTransport_outcome, detectTransport_outcome, h]
  · rw [receive_outcome, receive_outcome, h]

end Receives

/-- An abridged frame of two words, in one segment and in three, with a signal. -/
theorem receive_segmentation_abridged :
    let whole : Net.TcpSocket := ⟨[.segment 0xEF [2, 1, 2, 3, 4, 5, 6, 7, 8]], ⟨[], []⟩⟩
    let cut : Net.TcpSocket :=
      ⟨[.segment 0xEF [], .interrupted, .segment 2 [1, 2, 3], .segment 4 [5, 6, 7, 8]], ⟨[.interrupted], []⟩⟩
    outcome (detectTransport blankStreams (Net.TcpSocket.readExact .closed) [] whole) =
        outcome (detectTransport blankStreams (Net.TcpSocket.readExact .closed) [] cut) ∧
      outcome (receive blankStreams (Net.TcpSocket.readExact .closed) [] 1 whole) =
        outcome (receive blankStreams (Net.TcpSocket.readExact .closed) [] 1 cut) :=
  receive_segmentation blankStreams .closed [] 1 (by decide)

/-! ## What is sent -/

section Writes

variable {S T : Type} {abs : S → T} {le : T → T → Prop} [IsPreorder T le]
variable {write : WriteBytes Exn S} {write' : WriteBytes Exn T}

theorem writesAs_checkMessageLength (n : Nat) :
    WritesAs abs le (checkMessageLength n : EStateM Exn S Unit) (checkMessageLength n) := .ite (.throw _) (.pure ())

theorem writesAs_outgoing (payload : Bytes) {x : EStateM Exn S Unit} {y : EStateM Exn T Unit} (h : WritesAs abs le x y) :
    WritesAs abs le (do checkOutgoingMessage payload; checkAlign payload 4; x)
      (do checkOutgoingMessage payload; checkAlign payload 4; y) := by
  have halign : WritesAs abs le (checkAlign payload 4 : EStateM Exn S Unit) (checkAlign payload 4) :=
    .ite (.throw _) (.pure ())
  exact (writesAs_checkMessageLength _).bind fun _ => halign.bind fun _ => h

theorem writesAs_writeIntermediateFrame (h : ∀ bs, WritesAs abs le (write bs) (write' bs)) (payload : Bytes) :
    WritesAs abs le (writeIntermediateFrame write payload) (writeIntermediateFrame write' payload) :=
  (h _).bind fun _ => h payload

theorem FullCodec.writesAs_write (h : ∀ bs, WritesAs abs le (write bs) (write' bs)) (payload : Bytes) :
    WritesAs (Prod.map id abs) (WritesAs.Behind FullCodec le) (FullCodec.write write payload)
      (FullCodec.write write' payload) := by
  have hnext : WritesAs (Prod.map id abs) (WritesAs.Behind FullCodec le)
      (nextWriteSeqNo : EStateM Exn (FullCodec × S) Nat) nextWriteSeqNo := by
    refine ⟨fun t => refl t.2, ?_, ?_⟩
    · rintro ⟨c, s⟩ n ⟨c', s'⟩ hrun
      cases hrun
      rfl
    · rintro ⟨c, s⟩ e ⟨c', s'⟩ hrun
      cases hrun
  exact (writesAs_checkMessageLength _).bind fun _ => hnext.bind fun seqNo => WritesAs.beside (h _)

theorem Codec.writesAs_writeHeader (h : ∀ bs, WritesAs abs le (write bs) (write' bs)) :
    WritesAs (Prod.map id abs) (WritesAs.Behind Codec le) (Codec.writeHeader write) (Codec.writeHeader write') := by
  refine ⟨?_, ?_, ?_⟩
  · rintro ⟨c, t⟩
    cases c with
    | abridged => exact (WritesAs.beside (h _)).grows (Codec.abridged, t)
    | intermediate => exact (WritesAs.beside (h _)).grows (Codec.intermediate, t)
    | paddedIntermediate => exact (WritesAs.beside (h _)).grows (Codec.paddedIntermediate, t)
    | full c => exact refl t
  · rintro ⟨c, s⟩ a s' hrun
    cases c with
    | abridged => exact (WritesAs.beside (h _)).ok hrun
    | intermediate => exact (WritesAs.beside (h _)).ok hrun
    | paddedIntermediate => exact (WritesAs.beside (h _)).ok hrun
    | full c =>
      cases hrun
      rfl
  · rintro ⟨c, s⟩ e s' hrun
    cases c with
    | abridged => exact (WritesAs.beside (h _)).error hrun
    | intermediate => exact (WritesAs.beside (h _)).error hrun
    | paddedIntermediate => exact (WritesAs.beside (h _)).error hrun
    | full c => cases hrun

theorem Codec.writesAs_write (h : ∀ bs, WritesAs abs le (write bs) (write' bs)) (randomTail : Arr 4) (payload : Bytes) :
    WritesAs (Prod.map id abs) (WritesAs.Behind Codec le) (Codec.write write randomTail payload)
      (Codec.write write' randomTail payload) := by
  have habridged : WritesAs abs le (AbridgedCodec.write write payload) (AbridgedCodec.write write' payload) :=
    writesAs_outgoing payload ((h _).bind fun _ => h payload)
  have hinter : WritesAs abs le (IntermediateCodec.write write payload) (IntermediateCodec.write write' payload) :=
    writesAs_outgoing payload (writesAs_writeIntermediateFrame h payload)
  have hpadded : WritesAs abs le (PaddedIntermediateCodec.write write randomTail payload)
      (PaddedIntermediateCodec.write write' randomTail payload) :=
    writesAs_outgoing payload (writesAs_writeIntermediateFrame h _)
  have hfull := FullCodec.writesAs_write h payload
  refine ⟨?_, ?_, ?_⟩
  · rintro ⟨c, t⟩
    cases c with
    | abridged => exact (WritesAs.beside habridged).grows (Codec.abridged, t)
    | intermediate => exact (WritesAs.beside hinter).grows (Codec.intermediate, t)
    | paddedIntermediate => exact (WritesAs.beside hpadded).grows (Codec.paddedIntermediate, t)
    | full c =>
      have hgrows := hfull.grows (c, t)
      unfold Steps.final at hgrows ⊢
      simp only [Codec.write]
      generalize FullCodec.write write' payload (c, t) = r at hgrows ⊢
      cases r <;> exact hgrows
  · rintro ⟨c, s⟩ a s' hrun
    cases c with
    | abridged => exact (WritesAs.beside habridged).ok hrun
    | intermediate => exact (WritesAs.beside hinter).ok hrun
    | paddedIntermediate => exact (WritesAs.beside hpadded).ok hrun
    | full c =>
      simp only [Codec.write] at hrun
      split at hrun
      · next hx =>
        cases hrun
        have hy := hfull.ok hx
        simp only [Prod.map_apply, id_eq] at hy ⊢
        simp only [Codec.write, hy]
      · cases hrun
  · rintro ⟨c, s⟩ e s' hrun
    cases c with
    | abridged => exact (WritesAs.beside habridged).error hrun
    | intermediate => exact (WritesAs.beside hinter).error hrun
    | paddedIntermediate => exact (WritesAs.beside hpadded).error hrun
    | full c =>
      simp only [Codec.write] at hrun
      split at hrun
      · cases hrun
      · next hx =>
        cases hrun
        have hy := hfull.error hx
        unfold Steps.final at hy ⊢
        simp only [Prod.map_apply, id_eq, Codec.write] at hy ⊢
        generalize FullCodec.write write' payload (c, abs s) = r at hy ⊢
        cases r <;> exact hy

section Refines

variable {early : Prop} {R : S → T → Prop}

theorem refines_outgoing (payload : Bytes) {x : EStateM Exn S Unit} {y : EStateM Exn T Unit} (h : Refines early R x y) :
    Refines early R (do checkOutgoingMessage payload; checkAlign payload 4; x)
      (do checkOutgoingMessage payload; checkAlign payload 4; y) := by
  have halign : Refines early R (checkAlign payload 4 : EStateM Exn S Unit) (checkAlign payload 4) :=
    .ite (.throw _) (.pure ())
  exact (refines_checkMessageLength _).bind fun _ => halign.bind fun _ => h

theorem FullCodec.refines_write (h : ∀ bs, Refines early R (write bs) (write' bs)) (payload : Bytes) :
    Refines early (Refines.Beside FullCodec R) (FullCodec.write write payload) (FullCodec.write write' payload) := by
  have hnext : Refines early (Refines.Beside FullCodec R) (nextWriteSeqNo : EStateM Exn (FullCodec × S) Nat)
      nextWriteSeqNo := by
    rintro ⟨c, s⟩ ⟨c', t⟩ ⟨rfl, hst⟩
    exact .ok ⟨rfl, hst⟩
  exact (refines_checkMessageLength _).bind fun _ => hnext.bind fun seqNo => Refines.beside (h _)

/-- Where the writes of two connections end in the same way, so do those of a codec. -/
theorem Codec.refines_write (h : ∀ bs, Refines early R (write bs) (write' bs)) (randomTail : Arr 4) (payload : Bytes) :
    Refines early (Refines.Beside Codec R) (Codec.write write randomTail payload)
      (Codec.write write' randomTail payload) := by
  have hinter : ∀ framed, Refines early R (writeIntermediateFrame write framed) (writeIntermediateFrame write' framed) :=
    fun framed => (h _).bind fun _ => h framed
  rintro ⟨c, s⟩ ⟨c', t⟩ ⟨rfl, hst⟩
  cases c with
  | abridged => exact Refines.beside (refines_outgoing payload ((h _).bind fun _ => h payload)) ⟨rfl, hst⟩
  | intermediate => exact Refines.beside (refines_outgoing payload (hinter payload)) ⟨rfl, hst⟩
  | paddedIntermediate => exact Refines.beside (refines_outgoing payload (hinter _)) ⟨rfl, hst⟩
  | full c =>
    have hfull : SameEnd early _ (FullCodec.write write payload (c, s)) (FullCodec.write write' payload (c, t)) :=
      FullCodec.refines_write h payload ⟨rfl, hst⟩
    simp only [Codec.write]
    generalize FullCodec.write write payload (c, s) = r at hfull ⊢
    generalize FullCodec.write write' payload (c, t) = r' at hfull ⊢
    cases hfull with
    | ok hcs => exact .ok ⟨congrArg Codec.full hcs.1, hcs.2⟩
    | error => exact .error
    | early h => exact .early h

end Refines

/-- A client's side of a connection: the header, and its payloads. -/
def transmit (write : WriteBytes Exn S) (sends : List (Arr 4 × Bytes)) : EStateM Exn (Codec × S) Unit := do
  Codec.writeHeader write
  writeAll (fun q => Codec.write write q.1 q.2) sends

theorem writesAs_transmit (h : ∀ bs, WritesAs abs le (write bs) (write' bs)) (sends : List (Arr 4 × Bytes)) :
    WritesAs (Prod.map id abs) (WritesAs.Behind Codec le) (transmit write sends) (transmit write' sends) :=
  (Codec.writesAs_writeHeader h).bind fun _ => writesAs_writeAll (fun q => Codec.writesAs_write h q.1 q.2) sends

end Writes

/-! ## From one socket to the other -/

section Carry

variable {P : StreamPrimitives} {secret : Bytes} {codec c : Codec} {sends : List (Arr 4 × Bytes)} {stream : Bytes}

/-- A reader of a stream that is over has nothing left behind it. -/
theorem Reader.nothing_left : ∀ {t : Reader × Bytes}, Reader.stream P id t = [] → t.2 = []
  | (.raw, s), h => h
  | (.replay bytes pos, s), h => (List.append_eq_nil_iff.mp h).2
  | (.deobfuscated decrypt, s), h => by
    have hlen := congrArg List.length h
    rw [Reader.stream, Keystream.length_xorFrom] at hlen
    exact List.eq_nil_of_length_eq_zero hlen

/-- No codec reads from a stream that is over. -/
theorem Codec.read_nil {S : Type} {read : ReadExact Exn S} {stream : S → Bytes} {closed : Exn}
    (hread : ReadsStream read stream closed) {t : Reader × S} (h : Reader.stream P stream t = []) (c : Codec) :
    ∃ e t', Codec.read (Reader.read P read) (c, t) = .error e t' := by
  have hreads := Reader.readsStream P hread
  have hshort : ∀ n, 0 < n → ∃ t', Reader.read P read n t = .error closed t' := fun n hn =>
    hreads.short t n (by rw [h]; exact hn)
  obtain ⟨t₁, hone⟩ := hshort 1 Nat.one_pos
  obtain ⟨t₄, hfour⟩ := hshort 4 (by decide)
  have hbyte : readByte (Reader.read P read) t = .error closed t₁ := Steps.bind_of_error hone
  have hword : readU32Le (Reader.read P read) t = .error closed t₄ := Steps.bind_of_error hfour
  have hframe : ∀ padding, readIntermediateFrame (Reader.read P read) padding t = .error closed t₄ :=
    fun padding => Steps.bind_of_error hword
  cases c with
  | abridged =>
    exact ⟨_, _, Steps.beside_of_error (Steps.bind_of_error (Steps.bind_of_error hbyte))⟩
  | intermediate => exact ⟨_, _, Steps.beside_of_error (Steps.bind_of_error (hframe false))⟩
  | paddedIntermediate => exact ⟨_, _, Steps.beside_of_error (Steps.bind_of_error (hframe true))⟩
  | full f =>
    have hfull : FullCodec.read (Reader.read P read) (f, t) = .error closed (f, t₄) :=
      Steps.bind_of_error (Steps.beside_of_error hword)
    exact ⟨_, _, by simp only [Codec.read, hfull]; rfl⟩

/-- A payload that every codec takes. -/
theorem Ordinary.acceptsWords {payload : Bytes} (h : Ordinary payload) (hpos : 0 < payload.length) :
    AcceptsWords payload := by
  have hfits := h.length_add_le
  exact ⟨⟨hpos, by omega⟩, h.words⟩

theorem writes_of_stateless {header : Bytes} {frame : Arr 4 × Bytes → Bytes}
    {write : Arr 4 × Bytes → EStateM Exn Bytes Unit}
    {read : ReadExact Exn (Reader × Bytes) → EStateM Exn (Reader × Bytes) Bytes}
    (h : Stateless codec header frame write read) (hacc : ∀ q ∈ sends, AcceptsWords q.2) (out : Bytes) :
    ∃ cs, writeAll (fun q => Codec.write appendBytes q.1 q.2) sends (codec, out) = .ok () cs := by
  have hwrite : ∀ q s, AcceptsWords q.2 → ∃ s', write q s = .ok () s' := fun q s hq =>
    (h.accepts q s hq).imp fun s' hs' => hs'.1
  obtain ⟨out', hall⟩ := writeAll_of_accepts hwrite sends out hacc
  refine ⟨(codec, out'), ?_⟩
  rw [embeds_writeAll h.embedsWrite sends out, hall]
  rfl

/-- A codec that takes the payloads writes them, whatever it has written before. -/
theorem writes_return (hcodec : codec ∈ freshCodecs) (hacc : ∀ q ∈ sends, AcceptsWords q.2) (out : Bytes) :
    ∃ cs, writeAll (fun q => Codec.write appendBytes q.1 q.2) sends (codec, out) = .ok () cs := by
  simp only [freshCodecs, List.mem_cons, List.not_mem_nil, or_false] at hcodec
  rcases hcodec with rfl | rfl | rfl | rfl
  · exact writes_of_stateless stateless_abridged hacc out
  · exact writes_of_stateless stateless_intermediate hacc out
  · exact writes_of_stateless stateless_paddedIntermediate hacc out
  · have hembeds : ∀ q : Arr 4 × Bytes, Steps.Embeds Codec.ofFull (FullCodec.write appendBytes q.2)
        (Codec.write appendBytes q.1 q.2) := Codec.embeds_write_full appendBytes
    have hwrite : ∀ (q : Arr 4 × Bytes) (cs : FullCodec × Bytes), ValidLength q.2.length →
        ∃ cs', FullCodec.write appendBytes q.2 cs = .ok () cs' := by
      rintro q ⟨c, out⟩ hq
      obtain ⟨s', hok, -⟩ := FullCodec.write_of_valid writesStream_appendBytes hq c out
      exact ⟨_, hok⟩
    obtain ⟨cs, hall⟩ := writeAll_of_accepts hwrite sends ({}, out) fun q hq => (hacc q hq).length
    refine ⟨Codec.ofFull cs, ?_⟩
    show writeAll _ sends (Codec.ofFull ({}, out)) = _
    rw [embeds_writeAll hembeds sends ({}, out), hall]
    rfl

/-- The payloads of a client of any plain transport are all written. -/
theorem clientRun_returns (hcodec : codec ∈ freshCodecs) (hacc : ∀ q ∈ sends, AcceptsWords q.2) :
    ∃ c stream, clientRun sends (codec, []) = .ok () (c, stream) := by
  obtain ⟨out, hheader⟩ : ∃ out, Codec.writeHeader appendBytes (codec, []) = .ok () (codec, out) := by
    cases codec <;> exact ⟨_, rfl⟩
  obtain ⟨⟨c, stream⟩, hall⟩ := writes_return hcodec hacc out
  exact ⟨c, stream, by rw [clientRun, Steps.bind_of_ok hheader, hall]⟩

/-- Every payload takes at least a byte. -/
theorem length_le_clientRun (hcodec : codec ∈ freshCodecs) (hrun : clientRun sends (codec, []) = .ok () (c, stream)) :
    sends.length ≤ stream.length := by
  have hstateless : ∀ {header frame write read}, Stateless codec header frame write read →
      (∀ q, 1 ≤ (frame q).length) → sends.length ≤ stream.length := by
    intro header frame write read h hframe
    obtain ⟨-, rfl⟩ := h.clientRun hrun
    have hsum : sends.length ≤ (sends.flatMap frame).length := by
      rw [List.length_flatMap, ← List.length_map (f := fun q => (frame q).length)]
      refine List.length_le_sum_of_one_le _ fun n hn => ?_
      obtain ⟨q, -, rfl⟩ := List.mem_map.mp hn
      exact hframe q
    exact Nat.le_trans hsum (by rw [List.length_append]; omega)
  have hintermediate : ∀ framed, 1 ≤ (intermediateFrame framed).length := fun framed => by
    rw [intermediateFrame, List.length_append, length_toLE]
    omega
  simp only [freshCodecs, List.mem_cons, List.not_mem_nil, or_false] at hcodec
  rcases hcodec with rfl | rfl | rfl | rfl
  · refine hstateless stateless_abridged fun q => ?_
    rw [AbridgedCodec.frame, AbridgedCodec.lengthHeader]
    split <;> simp
  · exact hstateless stateless_intermediate fun q => hintermediate _
  · exact hstateless stateless_paddedIntermediate fun q => hintermediate _
  · obtain ⟨-, rfl⟩ := clientRun_full hrun
    rw [← List.length_map (f := Prod.snd)]
    exact FullCodec.length_le_frames 0 (sends.map Prod.snd)

/-- Its transport is detected, and the payloads are read back. -/
theorem detect_and_readsBack (P : StreamPrimitives) (secret : Bytes) (hcodec : codec ∈ freshCodecs) (hne : sends ≠ [])
    (hordinary : ∀ q ∈ sends, Ordinary q.2) (hcount : codec = .full {} → sends.length ≤ 2 ^ 31)
    (hrun : clientRun sends (codec, []) = .ok () (c, stream)) :
    ∃ d rest, detectTransport P takeExact secret stream = .ok d rest ∧ d.IsPlain ∧ d.codec = codec ∧
      ReadsBack P d rest (sends.map Prod.snd) := by
  have hraw := readsStream_takeBytes Exn.connectionClosed
  -- a codec without counters
  have hstateless : ∀ {header frame write read}, Stateless codec header frame write read → codec ≠ .full {} →
      (∀ rest, ∃ rest', detectTransport P takeExact secret (header ++ rest) =
        .ok { codec, read := .raw, write := .raw } rest' ∧ id rest' = rest) →
      ∃ d rest, detectTransport P takeExact secret stream = .ok d rest ∧ d.IsPlain ∧ d.codec = codec ∧
        ReadsBack P d rest (sends.map Prod.snd) := by
    intro header frame write read h hstateful hdetect
    obtain ⟨d, rest, hd, hplain, hcodec, hreads, -⟩ := h.recognises hstateful hdetect hordinary hrun
    exact ⟨d, rest, hd, hplain, hcodec, hreads⟩
  simp only [freshCodecs, List.mem_cons, List.not_mem_nil, or_false] at hcodec
  rcases hcodec with rfl | rfl | rfl | rfl
  · exact hstateless stateless_abridged (by decide) fun rest => detectTransport_abridged hraw rfl
  · exact hstateless stateless_intermediate (by decide) fun rest => detectTransport_intermediate hraw rfl
  · exact hstateless stateless_paddedIntermediate (by decide) fun rest => detectTransport_paddedIntermediate hraw rfl
  · obtain ⟨-, hstream⟩ := clientRun_full hrun
    cases sends with
    | nil => exact absurd rfl hne
    | cons q sends =>
      obtain ⟨bytes, rest, hdetect, hall⟩ := detectTransport_full P secret (hordinary q List.mem_cons_self) hstream
      refine ⟨_, rest, hdetect, rfl, rfl, ?_⟩
      refine readsBack_full ?_ (by rw [List.length_map]; exact hcount rfl) (by rw [hall, hstream])
      intro p hp
      obtain ⟨q', hq', rfl⟩ := List.mem_map.mp hp
      exact hordinary q' hq'

/-- So many payloads of a connection whose payloads are read back: the first ones, and no more than there are. -/
theorem readPayloads_of_readsBack {d : DetectedTransport} {rest : Bytes} {payloads : List Bytes}
    (hreads : ReadsBack P d rest payloads) (n : Nat) :
    if n ≤ payloads.length then ∃ b, readPayloads P takeExact d n rest = .ok (payloads.take n) b ∧
        (n = payloads.length → b = [])
      else ∃ e b, readPayloads P takeExact d n rest = .error e b := by
  obtain ⟨c, t, htimes, ht⟩ := hreads
  unfold readPayloads
  split
  · next hn =>
    obtain ⟨⟨c', t'⟩, hshort, hsame⟩ := times_take htimes hn
    rw [hshort]
    refine ⟨t'.2, rfl, fun heq => ?_⟩
    cases hsame heq
    exact Reader.nothing_left ht
  · next hn =>
    obtain ⟨k, rfl⟩ : ∃ k, n = payloads.length + 1 + k := ⟨n - (payloads.length + 1), by omega⟩
    obtain ⟨e, t', herror⟩ := Codec.read_nil (readsStream_takeBytes Exn.connectionClosed) ht c
    rw [times_error herror k _ htimes]
    exact ⟨e, _, rfl⟩

/-- All of them, from a socket at which these bytes arrive. The end of the connection is not reached, so it does not
matter which it is. -/
theorem readPayloads_socket {d : DetectedTransport} {rest : Bytes} {payloads : List Bytes}
    (hreads : ReadsBack P d rest payloads) (ending : Net.Ending) {t : Net.TcpSocket}
    (harrive : Net.incoming t.arrivals = rest) :
    ∃ t', readPayloads P (Net.TcpSocket.readExact ending) d payloads.length t = .ok payloads t' ∧
      Net.incoming t'.arrivals = [] := by
  have hall := readPayloads_of_readsBack hreads payloads.length
  rw [if_pos (Nat.le_refl _), List.take_length] at hall
  obtain ⟨b, hplain, hover⟩ := hall
  cases hover rfl
  rw [← harrive] at hplain
  exact (uniform_readPayloads P d payloads.length).of_bytes (Net.TcpSocket.readsStream ending) hplain

/-- Where everything arrives, the server detects the transport; its reads give all payloads, and then one throws. -/
theorem detect_and_outcomes (P : StreamPrimitives) (secret : Bytes) (hcodec : codec ∈ freshCodecs) (hne : sends ≠ [])
    (hordinary : ∀ q ∈ sends, Ordinary q.2) (hcount : codec = .full {} → sends.length ≤ 2 ^ 31)
    (hrun : clientRun sends (codec, []) = .ok () (c, stream)) (ending : Net.Ending) {arrivals : List Net.Arrival}
    (harrive : Net.incoming arrivals = stream) :
    ∃ d arrivals' e, detectTransport P (Net.readExact ending) secret arrivals = .ok d arrivals' ∧ d.IsPlain ∧
      d.codec = codec ∧
      outcomes (Codec.read (Reader.read P (Net.readExact ending))) (stream.length + 1) (d.codec, (d.read, arrivals')) =
        (sends.map Prod.snd).map .ok ++ [.error e] := by
  obtain ⟨d, rest, hdetect, hplain, hd, hreads⟩ := detect_and_readsBack P secret hcodec hne hordinary hcount hrun
  have hstream := Net.readsStream_readExact ending
  have hbytes : ∀ n, Refines True (fun b as => Net.incoming as = b) (takeExact n) (Net.readExact ending n) :=
    hstream.refines_bytes Exn.connectionClosed
  obtain ⟨arrivals', hdetect', hrest⟩ := (uniform_detectTransport P secret hbytes).of_ok harrive hdetect
  obtain ⟨c', ⟨r, b⟩, htimes, hover⟩ := hreads
  obtain ⟨⟨c'', r', arrivals''⟩, htimes', rfl, rfl, hleft⟩ :=
    (refines_times (Codec.refines_read (Reader.refines_read P hbytes)) (sends.map Prod.snd).length).of_ok
      (t := (d.codec, (d.read, arrivals'))) ⟨rfl, rfl, hrest⟩ htimes
  -- what is left over is nothing, so one more read throws
  have hnothing : Reader.stream P Net.incoming (r, arrivals'') = [] := by
    have hsame : Net.incoming arrivals'' = b := hleft
    rw [← hover, ← hsame]
    cases r <;> rfl
  obtain ⟨e, t, herror⟩ := Codec.read_nil hstream hnothing c'
  have hlen := length_le_clientRun hcodec hrun
  exact ⟨d, arrivals', e, hdetect', hplain, hd,
    outcomes_of_times herror htimes' (by rw [List.length_map]; omega)⟩

/-- What a client has sent that was not stopped. -/
theorem clientRun_of_transmit {broken : Option String} {s s' : Net.TcpSocket} (hfresh : s.outgoing.sent = [])
    (hrun : transmit (Net.TcpSocket.writeAll broken) sends (codec, s) = .ok () (c, s')) :
    clientRun sends (codec, []) = .ok () (c, s'.outgoing.sent) := by
  have hy := (writesAs_transmit (Net.TcpSocket.writesAs broken) sends).ok hrun
  rw [Prod.map_apply, Prod.map_apply, hfresh] at hy
  exact hy

/-- Where everything arrives, the server detects the transport and reads all payloads. -/
theorem detect_and_readPayloads (P : StreamPrimitives) (secret : Bytes) (hcodec : codec ∈ freshCodecs) (hne : sends ≠ [])
    (hordinary : ∀ q ∈ sends, Ordinary q.2) (hcount : codec = .full {} → sends.length ≤ 2 ^ 31) {broken : Option String}
    {s s' : Net.TcpSocket} (hfresh : s.outgoing.sent = [])
    (hrun : transmit (Net.TcpSocket.writeAll broken) sends (codec, s) = .ok () (c, s')) (ending : Net.Ending)
    {t : Net.TcpSocket} (harrive : Net.incoming t.arrivals = s'.outgoing.sent) :
    ∃ d t₁ t₂, detectTransport P (Net.TcpSocket.readExact ending) secret t = .ok d t₁ ∧ d.codec = codec ∧
      readPayloads P (Net.TcpSocket.readExact ending) d sends.length t₁ = .ok (sends.map Prod.snd) t₂ ∧
      Net.incoming t₂.arrivals = [] := by
  obtain ⟨d, rest, hdetect, -, hd, hreads⟩ :=
    detect_and_readsBack P secret hcodec hne hordinary hcount (clientRun_of_transmit hfresh hrun)
  rw [← harrive] at hdetect
  obtain ⟨t₁, hdetect', hrest⟩ :=
    (uniform_detectTransport P secret).of_bytes (Net.TcpSocket.readsStream ending) hdetect
  obtain ⟨t₂, hall, hover⟩ := readPayloads_socket hreads ending hrest
  rw [List.length_map] at hall
  exact ⟨d, t₁, t₂, hdetect', hd, hall, hover⟩

/-- A connection that breaks has sent the start of what the client would send. -/
theorem sent_transmit {s : Net.TcpSocket} (hfresh : s.outgoing.sent = []) {c : Codec} {stream : Bytes}
    (hrun : clientRun sends (codec, []) = .ok () (c, stream)) (broken : Option String) :
    (Steps.final (transmit (Net.TcpSocket.writeAll broken) sends) (codec, s)).2.outgoing.sent <+: stream := by
  unfold Steps.final
  cases hx : transmit (Net.TcpSocket.writeAll broken) sends (codec, s) with
  | ok u s' =>
    cases (clientRun_of_transmit hfresh hx).symm.trans hrun
    exact List.prefix_refl _
  | error e s' =>
    have hstart : Prod.map id (fun s : Net.TcpSocket => s.outgoing.sent) (codec, s) = (codec, []) := by
      rw [Prod.map_apply, hfresh]
      rfl
    have hy := (writesAs_transmit (Net.TcpSocket.writesAs broken) sends).error hx
    rw [hstart] at hy
    unfold Steps.final at hy
    rw [show transmit appendBytes sends (codec, []) = _ from hrun] at hy
    exact hy

/-- **What a client sends over one socket is what the server reads from another,** however both kernels cut it up.

A client of a plain transport writes its payloads to a connection that may break at any byte. Whatever part of what it
sent arrives, payloads that the server reads are the first of them, in order; and if the client was not stopped and
everything arrives, then the server reads all of them and nothing is left over. -/
theorem sockets_carry (P : StreamPrimitives) (secret : Bytes) (hcodec : codec ∈ freshCodecs) (hne : sends ≠ [])
    (hordinary : ∀ q ∈ sends, Ordinary q.2) (hpos : ∀ q ∈ sends, 0 < q.2.length)
    (hcount : codec = .full {} → sends.length ≤ 2 ^ 31) (broken : Option String) (ending : Net.Ending)
    {s : Net.TcpSocket} (hfresh : s.outgoing.sent = []) :
    let sent := (Steps.final (transmit (Net.TcpSocket.writeAll broken) sends) (codec, s)).2.outgoing.sent
    (∀ t n payloads t', Net.incoming t.arrivals <+: sent →
      receive P (Net.TcpSocket.readExact ending) secret n t = .ok payloads t' →
      n ≤ sends.length ∧ payloads = (sends.map Prod.snd).take n) ∧
    ∀ c' s', transmit (Net.TcpSocket.writeAll broken) sends (codec, s) = .ok () (c', s') →
      ∀ t, Net.incoming t.arrivals = sent →
      ∃ t', receive P (Net.TcpSocket.readExact ending) secret sends.length t = .ok (sends.map Prod.snd) t' ∧
        Net.incoming t'.arrivals = [] := by
  constructor
  · intro t n payloads t' harrive hok
    obtain ⟨c, stream, hrun⟩ := clientRun_returns hcodec fun q hq => (hordinary q hq).acceptsWords (hpos q hq)
    obtain ⟨d, rest, hdetect, -, -, hreads⟩ := detect_and_readsBack P secret hcodec hne hordinary hcount hrun
    -- what was sent is the start of what the client would send, and so is what has arrived
    obtain ⟨more, hmore⟩ := harrive.trans (sent_transmit hfresh hrun broken)
    obtain ⟨b, hplain, -⟩ :=
      (uniform_receive P secret n).of_start (Net.TcpSocket.readsStream ending) Exn.connectionClosed hmore hok
    rw [receive, Steps.bind_of_ok hdetect] at hplain
    have hn := readPayloads_of_readsBack hreads n
    rw [List.length_map] at hn
    split at hn
    · next hle =>
      obtain ⟨b', hfirst, -⟩ := hn
      rw [hfirst] at hplain
      cases hplain
      exact ⟨hle, rfl⟩
    · obtain ⟨e, b', herror⟩ := hn
      rw [herror] at hplain
      cases hplain
  · intro c' s' hx t harrive
    have harrived : Net.incoming t.arrivals = s'.outgoing.sent := by
      rw [harrive, Steps.final, hx]
    obtain ⟨d, t₁, t₂, hdetect, -, hall, hover⟩ :=
      detect_and_readPayloads P secret hcodec hne hordinary hcount hfresh hx ending harrived
    exact ⟨t₂, by rw [receive, Steps.bind_of_ok hdetect, hall], hover⟩

/-! ## And back -/

/-- Writing leaves the reading side of Full alone. -/
theorem FullCodec.readSeqNo_writeAll {S : Type} {write' : WriteBytes Exn S} : ∀ (sends : List (Arr 4 × Bytes))
    {c c' : FullCodec} {s s' : S},
    writeAll (fun q => FullCodec.write write' q.2) sends (c, s) = .ok () (c', s') → c'.readSeqNo = c.readSeqNo
  | [], c, c', s, s', h => by
    cases h
    rfl
  | q :: qs, c, c', s, s', h => by
    obtain ⟨_, ⟨c₁, s₁⟩, hone, hrest⟩ := Steps.bind_eq_ok.mp h
    have hstep : c₁.readSeqNo = c.readSeqNo := by
      unfold FullCodec.write at hone
      obtain ⟨_, cs, hcheck, hone⟩ := Steps.bind_eq_ok.mp hone
      obtain ⟨-, rfl⟩ := checkMessageLength_eq_ok hcheck
      obtain ⟨n, cs', hnext, hone⟩ := Steps.bind_eq_ok.mp hone
      cases hnext
      unfold Steps.beside at hone
      split at hone
      · cases hone
        rfl
      · cases hone
    rw [readSeqNo_writeAll qs hrest, hstep]

/-- The codec of a client reads what the codec of the server writes, also behind all that the client has written. -/
theorem readsBack_answers (P : StreamPrimitives) {answers : List (Arr 4 × Bytes)} {c' : Codec} {out : Bytes}
    (hcodec : codec ∈ freshCodecs) (hrun : clientRun sends (codec, []) = .ok () (c, stream))
    (hordinary : ∀ q ∈ answers, Ordinary q.2) (hcount : codec = .full {} → answers.length ≤ 2 ^ 31)
    (hanswers : writeAll (fun q => Codec.write appendBytes q.1 q.2) answers (codec, []) = .ok () (c', out)) :
    ReadsBack P { codec := c, read := .raw, write := .raw } out (answers.map Prod.snd) := by
  have hstateless : ∀ {header frame write read}, Stateless codec header frame write read →
      ReadsBack P { codec := c, read := .raw, write := .raw } out (answers.map Prod.snd) := by
    intro header frame write read h
    have hsame : c = codec := by
      rw [clientRun, Steps.bind_of_ok h.writeHeader, embeds_writeAll h.embedsWrite sends header] at hrun
      cases hall : writeAll write sends header <;> rw [hall] at hrun <;> cases hrun
      rfl
    rw [embeds_writeAll h.embedsWrite answers []] at hanswers
    cases hall : writeAll write answers [] with
    | error e s =>
      rw [hall] at hanswers
      cases hanswers
    | ok u s =>
      rw [hall] at hanswers
      cases hanswers
      obtain ⟨hacc, hout⟩ :=
        sent_of_writeAll h.accepts (fun q s hq => (h.refuses q s hq).imp fun e he => ⟨s, he⟩) answers hall
      rw [hsame, show out = answers.flatMap frame from hout]
      exact h.readsBack hacc hordinary
  simp only [freshCodecs, List.mem_cons, List.not_mem_nil, or_false] at hcodec
  rcases hcodec with rfl | rfl | rfl | rfl
  · exact hstateless stateless_abridged
  · exact hstateless stateless_intermediate
  · exact hstateless stateless_paddedIntermediate
  · have hheader : Codec.writeHeader appendBytes (.full {}, []) = .ok () (Codec.ofFull ({}, [])) := rfl
    obtain ⟨-, hout⟩ := clientRun_full (show clientRun answers (.full {}, []) = .ok () (c', out) by
      rw [clientRun, Steps.bind_of_ok hheader]
      exact hanswers)
    obtain ⟨f, rfl, hf⟩ : ∃ f, c = .full f ∧ f.readSeqNo = 0 := by
      have hembeds : ∀ q : Arr 4 × Bytes, Steps.Embeds Codec.ofFull (FullCodec.write appendBytes q.2)
          (Codec.write appendBytes q.1 q.2) := Codec.embeds_write_full appendBytes
      rw [clientRun, Steps.bind_of_ok hheader, embeds_writeAll hembeds sends ({}, [])] at hrun
      cases hall : writeAll (fun q : Arr 4 × Bytes => FullCodec.write appendBytes q.2) sends ({}, []) with
      | error e cs =>
        rw [hall] at hrun
        cases hrun
      | ok u cs =>
        rw [hall] at hrun
        cases hrun
        exact ⟨cs.1, rfl, FullCodec.readSeqNo_writeAll sends hall⟩
    have hwords : ∀ p ∈ answers.map Prod.snd, Ordinary p := by
      intro p hp
      obtain ⟨q, hq, rfl⟩ := List.mem_map.mp hp
      exact hordinary q hq
    obtain ⟨f', t, htimes, -, ht⟩ := FullCodec.times_read_frames
      (Reader.readsStream P (readsStream_takeBytes Exn.connectionClosed)) (answers.map Prod.snd) f (.raw, out) []
      (fun p hp => (hwords p hp).noError) (fun p hp => (hwords p hp).length_add_le)
      (by rw [hf, List.length_map, Nat.zero_add]; exact hcount rfl)
      (by simpa [Reader.stream, hf] using hout)
    refine ⟨.full f', t, ?_, ht⟩
    have hread := embeds_times (Codec.embeds_read_full (Reader.read P takeExact)) (answers.map Prod.snd).length
      (f, (.raw, out))
    rw [htimes] at hread
    exact hread

/-- So the client reads from its socket what the server has written to the other, whatever comes behind it. -/
theorem readPayloads_answers (P : StreamPrimitives) (hcodec : codec ∈ freshCodecs)
    (hrun : clientRun sends (codec, []) = .ok () (c, stream)) {answers : List (Arr 4 × Bytes)} {c' : Codec} {out : Bytes}
    (hordinary : ∀ q ∈ answers, Ordinary q.2) (hcount : codec = .full {} → answers.length ≤ 2 ^ 31)
    (hanswers : writeAll (fun q => Codec.write appendBytes q.1 q.2) answers (codec, []) = .ok () (c', out))
    (ending : Net.Ending) {v : Net.TcpSocket} (harrive : out <+: Net.incoming v.arrivals) :
    ∃ v', readPayloads P (Net.TcpSocket.readExact ending) { codec := c, read := .raw, write := .raw } answers.length v =
      .ok (answers.map Prod.snd) v' := by
  have hall := readPayloads_of_readsBack (readsBack_answers P hcodec hrun hordinary hcount hanswers)
    (answers.map Prod.snd).length
  rw [if_pos (Nat.le_refl _), List.take_length, List.length_map] at hall
  obtain ⟨b, hplain, -⟩ := hall
  obtain ⟨more, hmore⟩ := harrive
  have huniform := uniform_readPayloads P { codec := c, read := .raw, write := .raw } answers.length
  obtain ⟨b', hlong, -⟩ := huniform.of_start (readsStream_takeBytes Exn.connectionClosed) Exn.connectionClosed hmore hplain
  obtain ⟨v', hok, -⟩ := huniform.of_bytes (Net.TcpSocket.readsStream ending) hlong
  exact ⟨v', hok⟩

end Carry

/-- A client of the intermediate transport whose connection breaks in its second payload. -/
theorem sockets_carry_intermediate :
    let sends : List (Arr 4 × Bytes) := [(Arr.zero 4, [1, 2, 3, 4, 5, 6, 7, 8]), (Arr.zero 4, [9, 10, 11, 12, 13, 14, 15, 16])]
    let s : Net.TcpSocket := ⟨[], ⟨[.bytes 3, .interrupted, .bytes 3, .bytes 7, .bytes 3, .bytes 1], []⟩⟩
    let sent := (Steps.final (transmit (Net.TcpSocket.writeAll (some "Broken pipe")) sends) (.intermediate, s)).2.outgoing.sent
    (∀ t n payloads t', Net.incoming t.arrivals <+: sent →
      receive blankStreams (Net.TcpSocket.readExact (.failed "Connection reset by peer")) [] n t = .ok payloads t' →
      n ≤ sends.length ∧ payloads = (sends.map Prod.snd).take n) ∧
    ∀ c' s', transmit (Net.TcpSocket.writeAll (some "Broken pipe")) sends (.intermediate, s) = .ok () (c', s') →
      ∀ t, Net.incoming t.arrivals = sent →
      ∃ t', receive blankStreams (Net.TcpSocket.readExact (.failed "Connection reset by peer")) [] sends.length t =
          .ok (sends.map Prod.snd) t' ∧ Net.incoming t'.arrivals = [] := by
  intro sends s
  have hordinary : ∀ q ∈ sends, Ordinary q.2 ∧ 0 < q.2.length := by
    intro q hq
    rcases List.mem_cons.mp hq with rfl | hq
    · exact ⟨⟨by decide, by decide, by decide⟩, by decide⟩
    · rcases List.mem_singleton.mp hq with rfl
      exact ⟨⟨by decide, by decide, by decide⟩, by decide⟩
  exact sockets_carry blankStreams [] (by decide : Codec.intermediate ∈ freshCodecs) (by simp [sends])
    (fun q hq => (hordinary q hq).1) (fun q hq => (hordinary q hq).2) (fun h => by cases h) (some "Broken pipe")
    (.failed "Connection reset by peer") (s := s) rfl

end ShuzaGram.Mtproto.Transport

import ShuzaGram.Mtproto.TcpHandshakeServer

/-!
# Plaintext acknowledgements are transparent

A connection does the same whether or not its client sends plaintext acknowledgements in between.

Two routines pass over them: `ReadNextRealHandshakeMessage` in the exchanges, and the inner loop of the
session. Both decide by the frame alone, so that `Talk.respects_skipping` applies to both. Everything
else that a connection does only looks at what these two return and at what was sent, and programs that
respect the relation compose.

* `respects_readNextReal`, `respects_readFrame` — the two routines
* `respects_serverExchange` — an exchange
* `respects_serveConnection` — a connection
-/

namespace ShuzaGram.Mtproto

open Infra Crypto Messages

/-- A plaintext `msgs_ack` of a client. Decoding checks that the auth key id is zero. -/
def IsClientAck (frame : Bytes) : Prop :=
  ∃ msg rest data, UnencryptedMessage.decode frame = .ok msg rest ∧ MessageId.type msg.messageId = .fromClient
    ∧ msg.messageData = putId msgsAckTypeId ++ data

/-- What a client sends as an acknowledgement is one. -/
theorem isClientAck_encode {messageId : Int64} {data : Bytes} (htype : MessageId.type messageId = .fromClient)
    (hlen : (putId msgsAckTypeId ++ data).length < 2 ^ 31) :
    IsClientAck (UnencryptedMessage.encode { messageId, messageData := putId msgsAckTypeId ++ data }) := by
  have hdec := UnencryptedMessage.decode_encode (m := { messageId, messageData := putId msgsAckTypeId ++ data }) hlen []
  rw [List.append_nil] at hdec
  exact ⟨_, [], data, hdec, htype, rfl⟩

/-- The second list of frames is the first with acknowledgements inserted. -/
inductive WithAcks : List Bytes → List Bytes → Prop where
  | nil : WithAcks [] []
  | keep (frame : Bytes) {frames frames' : List Bytes} (h : WithAcks frames frames') :
    WithAcks (frame :: frames) (frame :: frames')
  | ack {frame : Bytes} (hack : IsClientAck frame) {frames frames' : List Bytes} (h : WithAcks frames frames') :
    WithAcks frames (frame :: frames')

/-! ## The two routines that pass over acknowledgements -/

/-- What a round of `ReadNextRealHandshakeMessage` makes of a frame. -/
def handshakeFrameRound (frame : Bytes) : Except Exn (Unit ⊕ UnencryptedMessage) := do
  let msg ← decodeHandshakeFrame frame
  let id ← decodeFrom peekId msg.messageData
  return if id = msgsAckTypeId then .inl () else .inr msg

theorem nextRealRound_eq (u : Unit) :
    nextRealRound u = Talk.receive connectionClosed >>= fun frame => Talk.lift (handshakeFrameRound frame) := by
  unfold nextRealRound readHandshakeMessage handshakeFrameRound
  rw [bind_assoc]
  refine congrArg _ (funext fun frame => ?_)
  rw [Talk.lift_bind]
  refine congrArg _ (funext fun msg => ?_)
  rw [Talk.lift_bind]
  refine congrArg _ (funext fun id => ?_)
  split <;> rfl

theorem frameRound_eq (u : Unit) :
    frameRound u = Talk.receive connectionClosed >>= fun frame =>
      Talk.lift (.ok (if isPlaintextMsgsAck frame then .inl () else .inr frame)) := by
  refine congrArg _ (funext fun frame => ?_)
  split <;> rfl

section Ack

variable {frame : Bytes}

/-- The eight bytes that an `int64` is read from are zero when it is. -/
theorem take_eq_zero_of_long {b b' : Bytes} (h : long b = .ok 0 b') : 8 ≤ b.length ∧ b.take 8 = List.replicate 8 0 := by
  unfold long uint64 at h
  obtain ⟨v, b₁, hv, h⟩ := Get.bind_eq_ok.mp h
  obtain ⟨bs, b₂, hbs, hv⟩ := Get.bind_eq_ok.mp hv
  cases hv
  unfold consumeN at hbs
  split at hbs
  · cases hbs
  · next hlen =>
    cases hbs
    have hzero : UInt64.toInt64 (UInt64.ofNat (ofLE (b.take 8))) = 0 := by
      injection h
    have hlt : ofLE (b.take 8) < 2 ^ 64 := by
      have := ofLE_lt (b.take 8)
      rw [List.length_take, Nat.min_eq_left (by omega)] at this
      exact this
    have hofLE : ofLE (b.take 8) = 0 := by
      have hnat := congrArg (fun i : Int64 => i.toUInt64.toNat) hzero
      simp only [UInt64.toUInt64_toInt64, UInt64.toNat_ofNat', Nat.mod_eq_of_lt hlt] at hnat
      exact hnat
    have hbytes : toLE 8 (ofLE (b.take 8)) = b.take 8 :=
      toLE_ofLE_of_length (by rw [List.length_take]; omega)
    refine ⟨by omega, ?_⟩
    rw [← hbytes, hofLE]
    rfl

theorem IsClientAck.zero_prefix (h : IsClientAck frame) : 8 ≤ frame.length ∧ frame.take 8 = List.replicate 8 0 := by
  obtain ⟨msg, rest, -, hdec, -, -⟩ := h
  unfold UnencryptedMessage.decode at hdec
  obtain ⟨id, b, hlong, hdec⟩ := Get.bind_eq_ok.mp hdec
  by_cases hid : id = 0
  · subst hid
    exact take_eq_zero_of_long hlong
  · simp only [ne_eq, hid, not_false_eq_true, if_true] at hdec
    cases hdec

theorem IsClientAck.peek {msg : UnencryptedMessage} {data : Bytes} (h : msg.messageData = putId msgsAckTypeId ++ data) :
    decodeFrom peekId msg.messageData = .ok msgsAckTypeId := by
  rw [h, decodeFrom, peekId_putId]

theorem handshakeFrameRound_of_ack (h : IsClientAck frame) : handshakeFrameRound frame = .ok (.inl ()) := by
  obtain ⟨-, hzero⟩ := h.zero_prefix
  obtain ⟨msg, rest, data, hdec, htype, hdata⟩ := h
  have hmsg : decodeHandshakeFrame frame = .ok msg := by
    have hdec' : decodeFrom UnencryptedMessage.decode frame = .ok msg := by
      rw [decodeFrom, hdec]
    rw [decodeHandshakeFrame, if_neg (fun hc => hc.2 hzero)]
    simp only [hdec', ok_bind]
    rw [if_neg (fun hne => hne htype)]
    rfl
  rw [handshakeFrameRound, hmsg, ok_bind, IsClientAck.peek hdata]
  rfl

theorem isPlaintextMsgsAck_of_ack (h : IsClientAck frame) : isPlaintextMsgsAck frame = true := by
  obtain ⟨hlen, hzero⟩ := h.zero_prefix
  obtain ⟨msg, rest, data, hdec, -, hdata⟩ := h
  unfold isPlaintextMsgsAck
  rw [if_neg (by omega), if_neg (fun hne => hne hzero), decodeFrom, hdec]
  simp only [IsClientAck.peek hdata, beq_self_eq_true]

end Ack

abbrev AckWire (w w' : Wire Exn Bytes) : Prop := Talk.PaddedWire IsClientAck w w'

theorem respects_readNextReal : Steps.Respects AckWire readNextRealHandshakeMessage :=
  Talk.respects_skipping nextRealRound_eq fun _ h => handshakeFrameRound_of_ack h

theorem respects_readFrame : Steps.Respects AckWire readFrame :=
  Talk.respects_skipping frameRound_eq fun _ h => by rw [isPlaintextMsgsAck_of_ack h, if_pos rfl]

theorem respects_writeHandshakeMessage (draws : Draws) (payload : Bytes) :
    Steps.Respects AckWire (writeHandshakeMessage draws payload) :=
  Talk.respects_send fun sent => handshakeFrame draws sent.length payload

/-! ## An exchange -/

section Exchange

variable (P : Primitives) (key : RsaPrivateKey) (draws : Draws)

theorem respects_resPqRound (nonce : Arr 16) : Steps.Respects AckWire (resPqRound P key draws nonce) := by
  refine (respects_writeHandshakeMessage draws _).bind fun _ => respects_readNextReal.bind fun next => ?_
  refine (Talk.respects_lift _).bind fun id => Steps.Respects.ite ?_ ?_
  · exact (Talk.respects_lift _).bind fun _ => Steps.respects_pure _
  · exact (Talk.respects_lift _).bind fun _ => Steps.respects_pure _

theorem respects_sendServerDhParams (nonce : Arr 16) (tempKey tempIv gA : Bytes) :
    Steps.Respects AckWire (sendServerDhParams P draws nonce tempKey tempIv gA) :=
  (Talk.respects_lift _).bind fun _ => respects_writeHandshakeMessage draws _

theorem respects_finishExchange (nonce : Arr 16) (newNonce : Arr 32) (expiresAt : Int) (a : Arr 256)
    (tempKey tempIv : Bytes) :
    Steps.Respects AckWire (finishExchange P draws nonce newNonce expiresAt a tempKey tempIv) := by
  refine respects_readNextReal.bind fun msg => (Talk.respects_lift _).bind fun clientParams => ?_
  refine (Talk.respects_lift _).bind fun clientInner => (Talk.respects_lift _).bind fun authKeyBytes => ?_
  exact (respects_writeHandshakeMessage draws _).bind fun _ => Steps.respects_pure _

theorem respects_completeExchange (nonce : Arr 16) (dhParams : ReqDhParams) :
    Steps.Respects AckWire (completeExchange P key draws nonce dhParams) := by
  refine (Talk.respects_lift _).bind fun inner => (Talk.respects_lift _).bind fun expiresAt => ?_
  refine (Talk.respects_lift _).bind fun share => ?_
  exact (respects_sendServerDhParams P draws nonce _ _ _).bind fun _ => respects_finishExchange P draws nonce _ _ _ _ _

theorem respects_serverExchange : Steps.Respects AckWire (serverExchange P key draws) := by
  refine respects_readNextReal.bind fun first => (Talk.respects_lift _).bind fun req => ?_
  refine (Steps.respects_iterate (advances_resPqRound P key draws) (respects_resPqRound P key draws) req.nonce).bind ?_
  exact fun r => respects_completeExchange P key draws r.1 r.2

end Exchange

/-! ## A connection -/

section Connection

variable {W : Type}

/-- Two connections that differ only by acknowledgements still to come. -/
def AckConnection (c c' : Connection W) : Prop := AckWire c.wire c'.wire ∧ c' = { c with wire := c'.wire }

theorem respects_onWire {α : Type} {x : Exchange α} (hx : Steps.Respects AckWire x) :
    Steps.Respects AckConnection (onWire x : Serving W α) := by
  rintro c c' ⟨hwire, hc⟩
  have h := hx hwire
  unfold onWire
  generalize x c.wire = r at h ⊢
  generalize x c'.wire = r' at h ⊢
  cases h with
  | ok h => exact .ok ⟨h, by rw [hc]⟩
  | error h => exact .error ⟨h, by rw [hc]⟩

/-- A step that only changes the rest of a connection, by that rest. -/
theorem respects_of_rest {α : Type} {x : Serving W α} {result : Connection W → α} {next : Connection W → Connection W}
    (hx : ∀ c, x c = .ok (result c) (next c)) (hwire : ∀ c, (next c).wire = c.wire)
    (hrest : ∀ c wire, result { c with wire } = result c ∧ next { c with wire } = { next c with wire }) :
    Steps.Respects AckConnection x := by
  rintro c c' ⟨hpad, hc⟩
  obtain ⟨hresult, hnext⟩ := hrest c c'.wire
  rw [← hc] at hresult hnext
  rw [hx, hx, hresult]
  refine .ok ⟨?_, ?_⟩
  · rw [hwire, hwire]
    exact hpad
  · rw [hwire, ← hnext]

variable (srv : TcpHandshakeServer W) (env : Surroundings W)

theorem respects_report (result : ServerExchangeResult) : Steps.Respects AckConnection (report srv env result) :=
  respects_of_rest (fun _ => rfl) (fun _ => rfl) (fun _ _ => ⟨rfl, rfl⟩)

theorem respects_lookUp (resolver : AuthKeyResolver W) (id : Arr 8) :
    Steps.Respects AckConnection (lookUp env resolver id) :=
  respects_of_rest (fun _ => rfl) (fun _ => rfl) (fun _ _ => ⟨rfl, rfl⟩)

theorem respects_handleFrame (cfg : SessionConfig W) (s : SessionState W) (frame : Bytes) :
    Steps.Respects AckConnection (handleFrame env cfg s frame) := by
  have hhandle : ∀ encrypted, Steps.Respects AckConnection (handleEncryptedFrame env cfg s frame encrypted) :=
    fun _ => respects_of_rest (fun _ => rfl) (fun _ => rfl) (fun _ _ => ⟨rfl, rfl⟩)
  refine (respects_onWire (Talk.respects_lift _)).bind fun encrypted => (hhandle encrypted).bind fun call => ?_
  refine (respects_onWire (Talk.respects_lift _)).bind fun replies => ?_
  exact (respects_onWire (Talk.respects_trySendAll _ _)).bind fun _ => Steps.respects_pure _

theorem respects_sessionRound (cfg : SessionConfig W) (s : SessionState W) :
    Steps.Respects AckConnection (sessionRound env cfg s) :=
  (respects_onWire respects_readFrame).bind fun frame =>
    (respects_handleFrame env cfg s frame).bind fun _ => Steps.respects_pure _

theorem respects_serveFrames (cfg : SessionConfig W) (s : SessionState W) (frame : Bytes) :
    Steps.Respects AckConnection (serveFrames env cfg s frame) :=
  (respects_handleFrame env cfg s frame).bind
    (Steps.respects_iterate (advances_sessionRound cfg) (respects_sessionRound env cfg))

theorem respects_serveSession (key : ResolvedAuthKey) (pendingFirstFrame : Bytes) :
    Steps.Respects AckConnection (serveSession srv env key pendingFirstFrame) := by
  intro c c' h
  have hworld : c'.world = c.world := by rw [h.2]
  unfold serveSession
  rw [hworld]
  exact respects_serveFrames env _ _ _ h

theorem respects_resolveFrame (sessionKey : Option ResolvedAuthKey) (id : Arr 8) (frame : Bytes) :
    Steps.Respects AckConnection (resolveFrame srv env sessionKey id frame) := by
  unfold resolveFrame
  split
  · exact Steps.respects_pure _
  · split
    · refine (respects_lookUp env _ id).bind fun resolved => ?_
      split
      · exact Steps.respects_pure _
      · exact (respects_onWire (Talk.respects_trySend _ _)).bind fun _ => Steps.respects_throw _
    · exact Steps.respects_throw _

theorem respects_nextExchange (n : Nat) (sessionKey : Option ResolvedAuthKey) :
    Steps.Respects AckConnection (nextExchange srv env n sessionKey) := by
  refine (respects_onWire (respects_serverExchange _ _ _)).attempt.bind fun r => ?_
  split
  · refine (respects_report srv env _).bind fun _ => ?_
    exact (Steps.respects_pure _).ite (Steps.respects_pure _)
  · exact (respects_resolveFrame srv env sessionKey _ _).bind fun _ => Steps.respects_pure _
  · exact Steps.respects_throw _

theorem respects_exchangeRound (sessionKey : Option ResolvedAuthKey) :
    Steps.Respects AckConnection (exchangeRound srv env sessionKey) := by
  intro c c' h
  have hcompleted : c'.completed = c.completed := by rw [h.2]
  unfold exchangeRound
  rw [hcompleted]
  exact respects_nextExchange srv env _ _ h

theorem respects_serveConnection : Steps.Respects AckConnection (serveConnection srv env) := by
  refine (Steps.respects_iterate advances_exchangeRound (respects_exchangeRound srv env) none).bind fun r => ?_
  split
  · exact Steps.respects_pure _
  · exact (Steps.respects_pure _).ite (respects_serveSession srv env _ _)

theorem WithAcks.padded {frames frames' : List Bytes} (h : WithAcks frames frames') (ending : String) :
    Talk.Padded IsClientAck (Delivery.wire { frames, ending }).incoming
      (Delivery.wire { frames := frames', ending }).incoming := by
  induction h with
  | nil => exact .keep _ .nil
  | keep frame _ ih => exact .keep _ ih
  | ack hack _ ih => exact .insert hack ih

/-- **Plaintext acknowledgements are transparent.** With the same clock and random source, a connection
with acknowledgements inserted anywhere ends with the same exception, and it has written the same frames,
reported the same exchanges and invoked the same handlers. -/
theorem serveConnection_withAcks (world : W) (ending : String) {frames frames' : List Bytes}
    (h : WithAcks frames frames') :
    let c := Connection.open { frames, ending } world
    let c' := Connection.open { frames := frames', ending } world
    Steps.raised (serveConnection srv env) c' = Steps.raised (serveConnection srv env) c ∧
      (Steps.final (serveConnection srv env) c').written = (Steps.final (serveConnection srv env) c).written ∧
      (Steps.final (serveConnection srv env) c').completed = (Steps.final (serveConnection srv env) c).completed ∧
      (Steps.final (serveConnection srv env) c').handled = (Steps.final (serveConnection srv env) c).handled := by
  intro c c'
  have hopen : AckConnection c c' := ⟨⟨h.padded ending, rfl⟩, rfl⟩
  obtain ⟨hraised, hwire, hrest⟩ := (respects_serveConnection srv env).final hopen
  refine ⟨hraised, hwire.2, ?_, ?_⟩
  · rw [hrest]
  · rw [hrest]

end Connection

/-- An acknowledgement of nothing, with a message id of a client. -/
def sampleAckFrame : Bytes :=
  UnencryptedMessage.encode { messageId := 4, messageData := putId msgsAckTypeId ++ putVectorHeader 0 }

theorem isClientAck_sampleAckFrame : IsClientAck sampleAckFrame := isClientAck_encode (by decide) (by decide)

/-- A server without keys: an encrypted frame is answered with the error code. -/
def keylessServer : TcpHandshakeServer Unit where
  P := blankPrimitives
  key := { n := [1], e := [1], d := [1] }
  rpcRegistry := some fun _ => none
  authKeyResolver := some fun _ w => (none, w)
  onSuccess := fun _ w => w
  debugTransport := false

theorem serveConnection_withAcks_sample :
    let c := Connection.open { frames := [List.replicate 24 1], ending := "closed" } ()
    let c' := Connection.open { frames := [sampleAckFrame, List.replicate 24 1, sampleAckFrame], ending := "closed" } ()
    (Steps.final (serveConnection keylessServer quietSurroundings) c).written = [putInt32 (-404)] ∧
      (Steps.final (serveConnection keylessServer quietSurroundings) c').written = [putInt32 (-404)] := by
  have hacks : WithAcks [List.replicate 24 1] [sampleAckFrame, List.replicate 24 1, sampleAckFrame] :=
    .ack isClientAck_sampleAckFrame (.keep _ (.ack isClientAck_sampleAckFrame .nil))
  obtain ⟨-, hwritten, -, -⟩ := serveConnection_withAcks keylessServer quietSurroundings () "closed" hacks
  have h : (Steps.final (serveConnection keylessServer quietSurroundings)
      (Connection.open { frames := [List.replicate 24 1], ending := "closed" } ())).written = [putInt32 (-404)] := by
    decide +kernel
  exact ⟨h, hwritten.trans h⟩

end ShuzaGram.Mtproto

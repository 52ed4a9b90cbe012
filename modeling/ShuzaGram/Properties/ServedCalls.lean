import ShuzaGram.Mtproto.TcpHandshakeServer
import ShuzaGram.Properties.SessionReplies
import ShuzaGram.Properties.FrameIdentity

/-!
# The calls of a connection

The thread of a connection whose frames are all of one known key: it hands them to a session, one by one, and writes the
replies, up to the first that does not go out.

* `servedCalls` — the calls of the session on these messages
* `serveConnection_resumed` — the connection leaves what these calls make of it
* `servedCalls_replies` — the replies are read back, one for each request
-/

namespace ShuzaGram.Mtproto

open Infra Crypto Messages

variable {W : Type} {srv : TcpHandshakeServer W} {env : Surroundings W} {cfg : SessionConfig W}

/-! ## The calls of a session -/

/-- The calls of a session on messages, while the world around it goes on. The first that throws is the last. -/
def servedCalls (env : Surroundings W) (cfg : SessionConfig W) :
    Nat → SessionState W → List EncryptedMessage → List (Call W)
  | _, _, [] => []
  | touched, s, m :: ms =>
    let call := handleEncrypted cfg env.replyDraws { s with world := env.elapse touched s.world } m
    match call.result with
    | .ok _ => call :: servedCalls env cfg (touched + 1) call.state ms
    | .error _ => [call]

/-- The replies of a call; one that throws has none. -/
def Call.replies (call : Call W) : List EncryptedMessage :=
  match call.result with
  | .ok replies => replies
  | .error _ => []

/-- Whether a call has returned. -/
def Call.returned (call : Call W) : Bool :=
  match call.result with
  | .ok _ => true
  | .error _ => false

theorem servedCalls_of_ok {touched : Nat} {s : SessionState W} {m : EncryptedMessage} {replies : List EncryptedMessage}
    (h : (handleEncrypted cfg env.replyDraws { s with world := env.elapse touched s.world } m).result = .ok replies)
    (ms : List EncryptedMessage) :
    servedCalls env cfg touched s (m :: ms) =
      handleEncrypted cfg env.replyDraws { s with world := env.elapse touched s.world } m ::
        servedCalls env cfg (touched + 1)
          (handleEncrypted cfg env.replyDraws { s with world := env.elapse touched s.world } m).state ms := by
  simp only [servedCalls, h]

theorem servedCalls_of_error {touched : Nat} {s : SessionState W} {m : EncryptedMessage} {e : Exn}
    (h : (handleEncrypted cfg env.replyDraws { s with world := env.elapse touched s.world } m).result = .error e)
    (ms : List EncryptedMessage) :
    servedCalls env cfg touched s (m :: ms) =
      [handleEncrypted cfg env.replyDraws { s with world := env.elapse touched s.world } m] := by
  simp only [servedCalls, h]

/-! ## The frames of a known key -/

/-- The frames that are still to come, and the end of the connection behind them. -/
def upcoming (ms : List EncryptedMessage) (ending : Exn) : List (List Bytes → Except Exn Bytes) :=
  ms.map (fun m _ => .ok m.encode) ++ [fun _ => .error ending]

/-- A connection whose peer is going to make these moves. -/
def Connection.accept (incoming : List (List Bytes → Except Exn Bytes)) (world : W) : Connection W :=
  { wire := { incoming, sent := [] }, world, touched := 0, completed := [], lookups := [], handled := [] }

/-- What a frame is recognised by: the first eight bytes of a plaintext message are zero. -/
def Named (m : EncryptedMessage) : Prop := m.authKeyId.toList ≠ List.replicate 8 0

theorem take_encode (m : EncryptedMessage) : 8 ≤ m.encode.length ∧ m.encode.take 8 = m.authKeyId.toList := by
  have hlen : m.authKeyId.toList.length = 8 := m.authKeyId.length_toList
  refine ⟨?_, ?_⟩
  · simp only [EncryptedMessage.encode, List.length_append, length_putArr]
    omega
  · rw [EncryptedMessage.encode, List.append_assoc]
    exact List.take_left' hlen

theorem isPlaintextMsgsAck_of_named {m : EncryptedMessage} (h : Named m) : isPlaintextMsgsAck m.encode = false := by
  obtain ⟨hlen, htake⟩ := take_encode m
  unfold isPlaintextMsgsAck
  rw [if_neg (Nat.not_lt.mpr hlen), htake]
  exact if_pos h

theorem decodeHandshakeFrame_of_named {m : EncryptedMessage} (h : Named m) :
    decodeHandshakeFrame m.encode = .error (.unexpectedEncryptedFrame m.authKeyId m.encode) := by
  obtain ⟨hlen, htake⟩ := take_encode m
  have hid : Arr.ofList 8 (m.encode.take 8) = m.authKeyId := by
    rw [htake]
    exact Arr.ofList_toList m.authKeyId
  unfold decodeHandshakeFrame
  rw [if_pos ⟨hlen, by rw [htake]; exact h⟩, hid]
  rfl

/-- The replies of a call, as frames. -/
def Call.frames (call : Call W) : List Bytes := call.replies.map EncryptedMessage.encode

/-- The connection behind a frame that the session has handled, when these frames went out. -/
def Connection.handle (c : Connection W) (env : Surroundings W) (cfg : SessionConfig W) (frame : Bytes) (call : Call W)
    (out : List Bytes) : Connection W :=
  { c with
    wire := { c.wire with sent := c.wire.sent ++ out }
    world := call.state.world
    touched := c.touched + 1
    handled := c.handled ++
      [{ frame, authKey := cfg.authKey, world := env.elapse c.touched c.world, invoked := call.invoked }] }

/-- A frame is handled; then its replies go out, up to the first that does not. -/
theorem handleFrame_encode (env : Surroundings W) (cfg : SessionConfig W) (s : SessionState W) (m : EncryptedMessage)
    (c : Connection W) :
    let call := handleEncrypted cfg env.replyDraws { s with world := env.elapse c.touched c.world } m
    (∀ e, call.result = .error e → handleFrame env cfg s m.encode c = .error e (c.handle env cfg m.encode call [])) ∧
      ∀ replies, call.result = .ok replies →
        (Talk.GoOut env.writes c.written call.frames ∧
          handleFrame env cfg s m.encode c = .ok call.state (c.handle env cfg m.encode call call.frames)) ∨
        ∃ out frame rest e, call.frames = out ++ frame :: rest ∧ Talk.GoOut env.writes c.written out ∧
          env.writes (c.written ++ out) frame = .error e ∧
          handleFrame env cfg s m.encode c = .error e (c.handle env cfg m.encode call out) := by
  intro call
  have hdec : decodeFrom EncryptedMessage.decode m.encode = .ok m := by
    rw [decodeFrom, EncryptedMessage.decode_encode]
  have hlift : (onWire (Talk.lift (decodeFrom EncryptedMessage.decode m.encode)) : Serving W EncryptedMessage) c =
      .ok m c := by
    rw [hdec]
    rfl
  have hhandle : handleEncryptedFrame env cfg s m.encode m c = .ok call (c.handle env cfg m.encode call []) := by
    simp only [handleEncryptedFrame, Connection.handle, List.append_nil]
    rfl
  have hresult : (onWire (Talk.lift call.result) : Serving W (List EncryptedMessage))
      (c.handle env cfg m.encode call []) =
        match call.result with
        | .ok replies => .ok replies (c.handle env cfg m.encode call [])
        | .error e => .error e (c.handle env cfg m.encode call []) := by
    unfold onWire Talk.lift
    cases call.result <;> rfl
  constructor
  · intro e herror
    rw [herror] at hresult
    rw [handleFrame, Steps.bind_of_ok hlift, Steps.bind_of_ok hhandle, herror, Steps.bind_of_error hresult]
  · intro replies hok
    rw [hok] at hresult
    have hframes : call.frames = replies.map EncryptedMessage.encode := by
      rw [Call.frames, Call.replies, hok]
    have hsent : (c.handle env cfg m.encode call []).wire.sent = c.written := List.append_nil _
    -- the replies are written one after another
    rw [handleFrame, Steps.bind_of_ok hlift, Steps.bind_of_ok hhandle, hok, Steps.bind_of_ok hresult, ← hframes]
    rcases Talk.trySendAll_cases env.writes call.frames (c.handle env cfg m.encode call []).wire with
      ⟨hgo, hall⟩ | ⟨out, frame, rest, e, hsplit, hgo, hnot, hstop⟩
    · rw [hsent] at hgo hall
      have hwrite : (onWire (Talk.trySendAll env.writes call.frames) : Serving W Unit)
          (c.handle env cfg m.encode call []) = .ok () (c.handle env cfg m.encode call call.frames) := by
        unfold onWire
        rw [hall]
        rfl
      refine .inl ⟨hgo, ?_⟩
      rw [Steps.bind_of_ok hwrite]
      rfl
    · rw [hsent] at hgo hnot hstop
      have hwrite : (onWire (Talk.trySendAll env.writes call.frames) : Serving W Unit)
          (c.handle env cfg m.encode call []) = .error e (c.handle env cfg m.encode call out) := by
        unfold onWire
        rw [hstop]
        rfl
      exact .inr ⟨out, frame, rest, e, hsplit, hgo, hnot, Steps.bind_of_error hwrite⟩

/-- Acknowledgements apart, a frame that arrives is the one that is read. -/
theorem readFrame_encode {m : EncryptedMessage} (h : Named m) {c : Connection W}
    {rest : List (List Bytes → Except Exn Bytes)} (hin : c.wire.incoming = (fun _ => .ok m.encode) :: rest) :
    (onWire readFrame : Serving W Bytes) c = .ok m.encode { c with wire := { c.wire with incoming := rest } } := by
  have hround : frameRound () c.wire = .ok (.inr m.encode) { c.wire with incoming := rest } := by
    rw [frameRound, Steps.bind_of_ok (Talk.receive_of_ok hin rfl), isPlaintextMsgsAck_of_named h]
    rfl
  have hread : readFrame c.wire = .ok m.encode { c.wire with incoming := rest } :=
    Steps.iterate_of_inr (Steps.advances_of_consumes consumes_frameRound) hround
  unfold onWire
  rw [hread]

theorem readFrame_ending {ending : Exn} {c : Connection W}
    (hin : c.wire.incoming = [fun _ => .error ending]) :
    (onWire readFrame : Serving W Bytes) c =
      .error ending { c with wire := { c.wire with incoming := [] } } := by
  have hround : frameRound () c.wire = .error ending { c.wire with incoming := [] } := by
    have hreceive : Talk.receive connectionClosed c.wire =
        .error ending { c.wire with incoming := [] } := by
      unfold Talk.receive
      rw [hin]
    rw [frameRound, Steps.bind_of_error hreceive]
  have hread : readFrame c.wire = .error ending { c.wire with incoming := [] } :=
    Steps.iterate_of_error (Steps.advances_of_consumes consumes_frameRound) hround
  unfold onWire
  rw [hread]

/-- What the thread of a connection leaves. It has made the calls `made`, each with the handlers that it has invoked,
and `out` are the replies that went out: all of them, or those in front of one that did not. -/
structure Leaves (env : Surroundings W) (c c' : Connection W) (ms : List EncryptedMessage) (calls made : List (Call W))
    (out : List Bytes) : Prop where
  first : made <+: calls
  handled : c'.handled.map (fun h => (h.frame, h.invoked)) =
    c.handled.map (fun h => (h.frame, h.invoked)) ++ (ms.map EncryptedMessage.encode).zip (made.map Call.invoked)
  written : c'.written = c.written ++ out
  goOut : Talk.GoOut env.writes c.written out
  stopped : made = calls ∧ out = calls.flatMap Call.frames ∨
    ∃ frame rest e, made.flatMap Call.frames = out ++ frame :: rest ∧ env.writes c'.written frame = .error e

/-- One more call, in front of others. -/
theorem Leaves.cons {c c' : Connection W} {m : EncryptedMessage} {call : Call W} {ms : List EncryptedMessage}
    {calls made : List (Call W)} {out : List Bytes} (hgo : Talk.GoOut env.writes c.written call.frames)
    (h : Leaves env (c.handle env cfg m.encode call call.frames) c' ms calls made out) :
    Leaves env c c' (m :: ms) (call :: calls) (call :: made) (call.frames ++ out) where
  first := (List.prefix_cons_inj call).mpr h.first
  handled := by
    rw [h.handled]
    simp only [Connection.handle, List.map_append, List.map_cons, List.map_nil, List.zip_cons_cons, List.append_assoc,
      List.cons_append, List.nil_append]
  written := by
    rw [h.written, ← List.append_assoc]
    rfl
  goOut := hgo.append h.goOut
  stopped := by
    rcases h.stopped with ⟨rfl, rfl⟩ | ⟨frame, rest, e, hsplit, hnot⟩
    · exact .inl ⟨rfl, rfl⟩
    · exact .inr ⟨frame, rest, e, by rw [List.flatMap_cons, hsplit, List.append_assoc], hnot⟩

theorem leaves_nil (env : Surroundings W) (c : Connection W) : Leaves env c c [] [] [] [] where
  first := List.prefix_refl []
  handled := by simp
  written := (List.append_nil _).symm
  goOut := trivial
  stopped := .inl ⟨rfl, rfl⟩

/-- The last call: it has thrown, or one of its replies did not go out. -/
theorem leaves_last {c : Connection W} {m : EncryptedMessage} {call : Call W} {ms : List EncryptedMessage}
    {calls : List (Call W)} {out : List Bytes} (hcalls : [call] <+: calls) (hgo : Talk.GoOut env.writes c.written out)
    (hstopped : [call] = calls ∧ out = calls.flatMap Call.frames ∨
      ∃ frame rest e, call.frames = out ++ frame :: rest ∧ env.writes (c.written ++ out) frame = .error e) :
    Leaves env c (c.handle env cfg m.encode call out) (m :: ms) calls [call] out where
  first := hcalls
  handled := by
    simp only [Connection.handle, List.map_append, List.map_cons, List.map_nil, List.zip_cons_cons, List.zip_nil_right]
  written := rfl
  goOut := hgo
  stopped := by
    rw [List.flatMap_cons, List.flatMap_nil, List.append_nil]
    exact hstopped

/-- What went out are the first of the replies. -/
theorem Leaves.out_prefix {c c' : Connection W} {ms : List EncryptedMessage} {calls made : List (Call W)}
    {out : List Bytes} (h : Leaves env c c' ms calls made out) : out <+: calls.flatMap Call.frames := by
  rcases h.stopped with ⟨-, rfl⟩ | ⟨frame, rest, e, hsplit, -⟩
  · exact List.prefix_refl _
  · obtain ⟨others, rfl⟩ := h.first
    rw [List.flatMap_append, hsplit, List.append_assoc]
    exact List.prefix_append _ _

/-- The step lemma: the session loop reads a frame and goes on as it does from that frame. -/
theorem iterate_sessionRound (s : SessionState W) {m : EncryptedMessage} (h : Named m) {c : Connection W}
    {rest : List (List Bytes → Except Exn Bytes)} (hin : c.wire.incoming = (fun _ => .ok m.encode) :: rest) :
    Steps.iterate Connection.left connectionClosed (sessionRound env cfg) s c =
      serveFrames env cfg s m.encode { c with wire := { c.wire with incoming := rest } } := by
  have hread := readFrame_encode h hin
  cases hframe : handleFrame env cfg s m.encode { c with wire := { c.wire with incoming := rest } } with
  | ok s' c' =>
    have hround : sessionRound env cfg s c = .ok (.inl s') c' := by
      rw [sessionRound, Steps.bind_of_ok hread, Steps.bind_of_ok hframe]
      rfl
    rw [Steps.iterate_of_inl (advances_sessionRound cfg) hround, serveFrames, Steps.bind_of_ok hframe]
  | error e c' =>
    have hround : sessionRound env cfg s c = .error e c' := by
      rw [sessionRound, Steps.bind_of_ok hread, Steps.bind_of_error hframe]
    rw [Steps.iterate_of_error (advances_sessionRound cfg) hround, serveFrames, Steps.bind_of_error hframe]

/-- What the thread does with a frame and behind it: the call, and where that returns and is answered, the loop. -/
theorem leaves_serveFrames (env : Surroundings W) (cfg : SessionConfig W) (s : SessionState W) (m : EncryptedMessage)
    {c : Connection W} (hworld : c.world = s.world) (ms : List EncryptedMessage)
    (hloop : ∀ call : Call W, ∃ made out, Leaves env (c.handle env cfg m.encode call call.frames)
      (Steps.final (Steps.iterate Connection.left connectionClosed (sessionRound env cfg) call.state)
        (c.handle env cfg m.encode call call.frames)) ms (servedCalls env cfg (c.touched + 1) call.state ms) made out) :
    ∃ made out, Leaves env c (Steps.final (serveFrames env cfg s m.encode) c) (m :: ms)
      (servedCalls env cfg c.touched s (m :: ms)) made out := by
  obtain ⟨hthrows, hreturns⟩ := handleFrame_encode env cfg s m c
  rw [hworld] at hthrows hreturns
  have hrest := hloop (handleEncrypted cfg env.replyDraws { s with world := env.elapse c.touched s.world } m)
  cases hresult : (handleEncrypted cfg env.replyDraws { s with world := env.elapse c.touched s.world } m).result with
  | error e =>
    have hnone : (handleEncrypted cfg env.replyDraws { s with world := env.elapse c.touched s.world } m).frames = [] := by
      rw [Call.frames, Call.replies, hresult, List.map_nil]
    rw [servedCalls_of_error hresult]
    unfold Steps.final
    rw [serveFrames, Steps.bind_of_error (hthrows e hresult)]
    exact ⟨_, [], leaves_last (List.prefix_refl _) trivial (.inl ⟨rfl, by simp [hnone]⟩)⟩
  | ok replies =>
    rw [servedCalls_of_ok hresult]
    unfold Steps.final at hrest ⊢
    rcases hreturns replies hresult with ⟨hgo, hframe⟩ | ⟨out, frame, rest, e, hsplit, hgo, hnot, hframe⟩
    · obtain ⟨made, out, hleaves⟩ := hrest
      rw [serveFrames, Steps.bind_of_ok hframe]
      exact ⟨_, _, hleaves.cons hgo⟩
    · rw [serveFrames, Steps.bind_of_error hframe]
      exact ⟨_, out, leaves_last ((List.prefix_cons_inj _).mpr List.nil_prefix) hgo
        (.inr ⟨frame, rest, e, hsplit, hnot⟩)⟩

/-- Where a read leaves a connection does not show in what the thread leaves. -/
theorem Leaves.of_incoming {c c' : Connection W} {ms : List EncryptedMessage} {calls made : List (Call W)}
    {out : List Bytes} {incoming : List (List Bytes → Except Exn Bytes)}
    (h : Leaves env { c with wire := { c.wire with incoming } } c' ms calls made out) :
    Leaves env c c' ms calls made out := ⟨h.first, h.handled, h.written, h.goOut, h.stopped⟩

/-- The run lemma: frame by frame, the loop makes the calls of the session. -/
theorem leaves_loop {ending : Exn} (ms : List EncryptedMessage) : ∀ (s : SessionState W) (c : Connection W),
    (∀ m ∈ ms, Named m) → c.wire.incoming = upcoming ms ending → c.world = s.world →
    ∃ made out, Leaves env c (Steps.final (Steps.iterate Connection.left connectionClosed (sessionRound env cfg) s) c) ms
      (servedCalls env cfg c.touched s ms) made out := by
  induction ms with
  | nil =>
    intro s c _ hin _
    have hround : sessionRound env cfg s c =
        .error ending { c with wire := { c.wire with incoming := [] } } := by
      rw [sessionRound, Steps.bind_of_error (readFrame_ending hin)]
    unfold Steps.final
    rw [Steps.iterate_of_error (advances_sessionRound cfg) hround]
    exact ⟨[], [], (leaves_nil env { c with wire := { c.wire with incoming := [] } }).of_incoming⟩
  | cons m ms ih =>
    intro s c hnamed hin hworld
    obtain ⟨hm, hms⟩ := List.forall_mem_cons.mp hnamed
    obtain ⟨made, out, hframes⟩ := leaves_serveFrames env cfg s m
      (c := { c with wire := { c.wire with incoming := upcoming ms ending } }) hworld ms
      fun call => ih call.state _ hms rfl rfl
    unfold Steps.final at hframes ⊢
    rw [iterate_sessionRound s hm hin]
    exact ⟨made, out, hframes.of_incoming⟩

/-- An exchange ends at a frame that is not part of one. -/
theorem serverExchange_encode (draws : Draws) {m : EncryptedMessage} (h : Named m) {w : Wire Exn Bytes}
    {rest : List (List Bytes → Except Exn Bytes)} (hin : w.incoming = (fun _ => .ok m.encode) :: rest) :
    serverExchange srv.P srv.key draws w =
      .error (.unexpectedEncryptedFrame m.authKeyId m.encode) { w with incoming := rest } := by
  have hmessage : readHandshakeMessage w =
      .error (.unexpectedEncryptedFrame m.authKeyId m.encode) { w with incoming := rest } := by
    rw [readHandshakeMessage, Steps.bind_of_ok (Talk.receive_of_ok hin rfl), decodeHandshakeFrame_of_named h]
    rfl
  have hround : nextRealRound () w =
      .error (.unexpectedEncryptedFrame m.authKeyId m.encode) { w with incoming := rest } := by
    rw [nextRealRound, Steps.bind_of_error hmessage]
  have hread : readNextRealHandshakeMessage w =
      .error (.unexpectedEncryptedFrame m.authKeyId m.encode) { w with incoming := rest } :=
    Steps.iterate_of_error advances_nextRealRound hround
  rw [serverExchange, Steps.bind_of_error hread]

/-- **A connection that resumes a key is served frame by frame.** The key is looked up once, for the first frame; then
every frame is a call of one session, in the order of the frames, until one throws, a reply does not go out or the
connection ends. -/
theorem serveConnection_resumed {registry : RpcHandlerRegistry W} {resolver : AuthKeyResolver W} {key : ResolvedAuthKey}
    (hregistry : srv.rpcRegistry = some registry) (hresolver : srv.authKeyResolver = some resolver)
    {m : EncryptedMessage} {ms : List EncryptedMessage} (hnamed : ∀ m' ∈ m :: ms, Named m') {world : W}
    (hkey : (resolver m.authKeyId (env.elapse 0 world)).1 = some key) (ending : Exn) :
    let c := Connection.accept (upcoming (m :: ms) ending) world
    ∃ made out, Leaves env c (Steps.final (serveConnection srv env) c) (m :: ms)
      (servedCalls env (sessionConfig srv key) 1 (SessionState.init 0 (resolver m.authKeyId (env.elapse 0 world)).2)
        (m :: ms)) made out := by
  intro c
  have hin : c.wire.incoming = (fun _ => .ok m.encode) :: upcoming ms ending := rfl
  let c₁ : Connection W :=
    { c with
      wire := { c.wire with incoming := upcoming ms ending }
      world := (resolver m.authKeyId (env.elapse 0 world)).2
      touched := 1
      lookups := [{ authKeyId := m.authKeyId, world := env.elapse 0 world, resolved := some key }] }
  have hround : exchangeRound srv env none c = .ok (.inr (some (key, m.encode))) c₁ := by
    have hexchange : Steps.attempt (onWire (serverExchange srv.P srv.key (env.exchangeDraws 0)) : Serving W _) c =
        .ok (.error (.unexpectedEncryptedFrame m.authKeyId m.encode))
          { c with wire := { c.wire with incoming := upcoming ms ending } } := by
      unfold Steps.attempt onWire
      rw [serverExchange_encode _ (hnamed m List.mem_cons_self) hin]
    have hresolve : resolveFrame srv env none m.authKeyId m.encode
        { c with wire := { c.wire with incoming := upcoming ms ending } } = .ok key c₁ := by
      unfold resolveFrame
      simp only [Option.filter_none, hregistry, hresolver]
      have hlookUp : lookUp env resolver m.authKeyId { c with wire := { c.wire with incoming := upcoming ms ending } } =
          .ok (some key) c₁ := by
        unfold lookUp
        simp only [c, Connection.accept, hkey]
        rfl
      rw [Steps.bind_of_ok hlookUp]
      rfl
    show nextExchange srv env 0 none c = _
    rw [nextExchange, Steps.bind_of_ok hexchange]
    show (resolveFrame srv env none m.authKeyId m.encode >>= fun key => _) _ = _
    rw [Steps.bind_of_ok hresolve]
    rfl
  have hserve : serveConnection srv env c =
      serveFrames env (sessionConfig srv key) (SessionState.init 0 c₁.world) m.encode c₁ := by
    rw [serveConnection, Steps.bind_of_ok (Steps.iterate_of_inr advances_exchangeRound hround)]
    simp only [hregistry, Option.isNone_some]
    rfl
  obtain ⟨hm, hms⟩ := List.forall_mem_cons.mp hnamed
  obtain ⟨made, out, hleaves⟩ := leaves_serveFrames env (sessionConfig srv key) (SessionState.init 0 c₁.world) m
    (c := c₁) rfl ms fun call => leaves_loop ms call.state _ hms rfl rfl
  unfold Steps.final at hleaves ⊢
  rw [hserve]
  exact ⟨made, out, hleaves.first, hleaves.handled, hleaves.written, hleaves.goOut, hleaves.stopped⟩

/-! ## Replies -/

/-- Sealed messages are frames that every codec takes, up to their length. -/
theorem length_encode_sealed (P : Primitives) (authKey : AuthKeyBytes) (d : EncryptedMessageData) (side : Side)
    (rand : CipherRandom) : 4 ∣ (sealed P authKey d side rand).encode.length ∧
      d.messageData.length + 56 ≤ (sealed P authKey d side rand).encode.length ∧
      (sealed P authKey d side rand).encode.length ≤ d.messageData.length + 323 := by
  have hblocks := sixteen_dvd_length_paddedPlaintext d rand
  obtain ⟨hlo, hhi, -⟩ := countPadding_spec (plaintextHeader d ++ d.messageData).length rand.randByte
  have hlen : (sealed P authKey d side rand).encode.length = 24 + (paddedPlaintext d rand).length := by
    simp only [EncryptedMessage.encode, sealed, List.length_append, length_putArr, length_encryptBlocks hblocks]
  have hpadded : (paddedPlaintext d rand).length = 32 + d.messageData.length +
      (countPadding (Int32.ofNat (plaintextHeader d ++ d.messageData).length).toInt rand.randByte).toNat := by
    simp only [paddedPlaintext, List.length_append, List.length_map, List.length_range, length_plaintextHeader]
  rw [hlen]
  omega

/-- Replies are sealed messages, and as long as their bodies. -/
theorem sealed_sealReplies {draws : Nat → Draw} {sessionId : Int64} : ∀ {n : Nat} {bodies : List Bytes},
    (∀ reply ∈ sealReplies cfg draws sessionId n bodies, ∃ d rand, reply = sealed cfg.P cfg.authKey d cfg.mySide rand) ∧
      ∀ body ∈ bodies, ∃ reply ∈ sealReplies cfg draws sessionId n bodies, body.length ≤ reply.encode.length
  | _, [] => ⟨fun _ h => absurd h List.not_mem_nil, fun _ h => absurd h List.not_mem_nil⟩
  | n, body :: bodies => by
    obtain ⟨hsealed, hlength⟩ := @sealed_sealReplies draws sessionId (n + 1) bodies
    constructor
    · intro reply hreply
      rcases List.mem_cons.mp hreply with rfl | hreply
      · exact ⟨_, _, rfl⟩
      · exact hsealed reply hreply
    · intro b hb
      rcases List.mem_cons.mp hb with rfl | hb
      · refine ⟨_, List.mem_cons_self, ?_⟩
        have hlen := (length_encode_sealed cfg.P cfg.authKey (outgoing cfg sessionId n (draws n).nowNanos b) cfg.mySide
          (draws n).rand).2.1
        exact Nat.le_trans (Nat.le_add_right _ _) hlen
      · obtain ⟨reply, hmem, hle⟩ := hlength b hb
        exact ⟨reply, List.mem_cons_of_mem _ hmem, hle⟩

theorem handleEncrypted_sealed {draws : Nat → Draw} {s : SessionState W} {incoming : EncryptedMessage}
    {replies : List EncryptedMessage} (h : (handleEncrypted cfg draws s incoming).result = .ok replies) :
    (∀ reply ∈ replies, ∃ d rand, reply = sealed cfg.P cfg.authKey d cfg.mySide rand) ∧
      ∀ k, ∀ body ∈ (handleEncrypted cfg draws s incoming).bodies.take k,
        ∃ reply ∈ replies.take k, body.length ≤ reply.encode.length := by
  have hhandled := handleEncrypted_handled cfg draws s incoming
  generalize handleEncrypted cfg draws s incoming = c at h hhandled
  cases hhandled with
  | undecryptable _ => cases h
  | replayed _ _ => cases h
  | malformed _ _ _ => cases h
  | @accepted data inner hdec _ hinner =>
    rw [dispatchAll_result draws data.messageId 0 inner (s.accept data) h]
    refine ⟨sealed_sealReplies.1, fun k => ?_⟩
    rw [sealReplies_take]
    exact sealed_sealReplies.2

/-- How many calls have returned. -/
def answered (calls : List (Call W)) : Nat := calls.countP Call.returned

/-- All the replies of a run are sealed. -/
theorem servedCalls_sealed (ms : List EncryptedMessage) : ∀ (touched : Nat) (s : SessionState W),
    ∀ reply ∈ (servedCalls env cfg touched s ms).flatMap Call.replies,
      ∃ d rand, reply = sealed cfg.P cfg.authKey d cfg.mySide rand := by
  induction ms with
  | nil => exact fun _ _ _ h => absurd h List.not_mem_nil
  | cons m ms ih =>
    intro touched s reply hreply
    cases hresult : (handleEncrypted cfg env.replyDraws { s with world := env.elapse touched s.world } m).result with
    | error e =>
      rw [servedCalls_of_error hresult] at hreply
      simp [Call.replies, hresult] at hreply
    | ok replies =>
      rw [servedCalls_of_ok hresult, List.flatMap_cons, Call.replies, hresult] at hreply
      rcases List.mem_append.mp hreply with hreply | hreply
      · exact (handleEncrypted_sealed hresult).1 reply hreply
      · exact ih _ _ reply hreply

/-- Replies that are read back one behind the other: those behind come in only when all of the first ones have. -/
theorem readBack_append {replies replies' : List EncryptedMessage} {asked asked' : List Request} {n k : Nat}
    (hnum : replies.length = asked.length)
    (h : ∃ decrypted : List EncryptedMessageData, (replies.take k).map (readBack cfg) = decrypted.map .ok ∧
      List.Forall₂ (IsReply cfg) ((asked.zipIdx n).take k) decrypted)
    (h' : replies.length ≤ k → ∃ decrypted : List EncryptedMessageData,
      (replies'.take (k - replies.length)).map (readBack cfg) = decrypted.map .ok ∧
        List.Forall₂ (IsReply cfg) ((asked'.zipIdx (n + replies.length)).take (k - replies.length)) decrypted) :
    ∃ decrypted : List EncryptedMessageData, ((replies ++ replies').take k).map (readBack cfg) = decrypted.map .ok ∧
      List.Forall₂ (IsReply cfg) (((asked ++ asked').zipIdx n).take k) decrypted := by
  obtain ⟨d, hd, hrep⟩ := h
  obtain ⟨d', hd', hrep'⟩ : ∃ d' : List EncryptedMessageData,
      (replies'.take (k - replies.length)).map (readBack cfg) = d'.map .ok ∧
        List.Forall₂ (IsReply cfg) ((asked'.zipIdx (n + replies.length)).take (k - replies.length)) d' := by
    by_cases hk : replies.length ≤ k
    · exact h' hk
    · rw [show k - replies.length = 0 from by omega]
      exact ⟨[], rfl, .nil⟩
  refine ⟨d ++ d', by rw [List.take_append, List.map_append, List.map_append, hd, hd'], ?_⟩
  rw [List.zipIdx_append, List.take_append, List.length_zipIdx, ← hnum]
  exact List.rel_append (R := IsReply cfg) hrep hrep'

/-- The replies of a whole run: one for each request of a message whose call has returned. The first of them are read
back whatever the others are. -/
theorem servedCalls_replies (env : Surroundings W) (hword : cfg.WordHandlers) (ms : List EncryptedMessage) :
    ∀ (touched : Nat) (s : SessionState W),
    ((servedCalls env cfg touched s ms).flatMap Call.replies).length =
        ((ms.take (answered (servedCalls env cfg touched s ms))).flatMap (requestsOf cfg)).length ∧
      ∀ k, s.contentSeqCounter + (((servedCalls env cfg touched s ms).flatMap Call.replies).take k).length < 2 ^ 30 →
        (∀ reply ∈ ((servedCalls env cfg touched s ms).flatMap Call.replies).take k,
          reply.encode.length ≤ 2 ^ 24 - 16) →
        ∃ decrypted : List EncryptedMessageData,
          (((servedCalls env cfg touched s ms).flatMap Call.replies).take k).map (readBack cfg) = decrypted.map .ok ∧
            List.Forall₂ (IsReply cfg)
              ((((ms.take (answered (servedCalls env cfg touched s ms))).flatMap (requestsOf cfg)).zipIdx
                (s.contentSeqCounter + 1)).take k) decrypted := by
  induction ms with
  | nil =>
    refine fun _ _ => ⟨rfl, fun k _ _ => ⟨[], ?_, ?_⟩⟩
    · simp only [servedCalls, List.flatMap_nil, List.take_nil, List.map_nil]
    · simp only [List.take_nil, List.flatMap_nil, List.zipIdx_nil]
      exact .nil
  | cons m ms ih =>
    intro touched s
    cases hresult : (handleEncrypted cfg env.replyDraws { s with world := env.elapse touched s.world } m).result with
    | error e =>
      rw [servedCalls_of_error hresult]
      simp only [List.flatMap_cons, List.flatMap_nil, Call.replies, hresult, answered, List.countP_cons, List.countP_nil,
        Call.returned]
      refine ⟨rfl, fun k _ _ => ⟨[], ?_, ?_⟩⟩
      · simp only [List.append_nil, List.take_nil, List.map_nil]
      · simp only [Bool.false_eq_true, if_false, Nat.add_zero, List.take_zero, List.flatMap_nil, List.zipIdx_nil,
          List.take_nil]
        exact .nil
    | ok replies =>
      rw [servedCalls_of_ok hresult]
      obtain ⟨-, hbodies⟩ := handleEncrypted_sealed hresult
      obtain ⟨hctr, hnum, hread⟩ := handleEncrypted_replies hword env.replyDraws
        { s with world := env.elapse touched s.world } m hresult
      generalize handleEncrypted cfg env.replyDraws { s with world := env.elapse touched s.world } m = call
        at hresult hbodies hctr hread ⊢
      have hreplies : call.replies = replies := by
        unfold Call.replies
        rw [hresult]
      have hreturned : call.returned = true := by
        unfold Call.returned
        rw [hresult]
      have hanswered : ∀ calls, answered (call :: calls) = answered calls + 1 := fun calls =>
        List.countP_cons_of_pos hreturned
      obtain ⟨hlength, hrest⟩ := ih (touched + 1) call.state
      simp only at hctr hread
      rw [List.flatMap_cons, hreplies, hanswered, List.take_succ_cons, List.flatMap_cons]
      refine ⟨by rw [List.length_append, List.length_append, hnum, hlength], fun k hcount hsize => ?_⟩
      rw [List.take_append] at hcount hsize
      rw [List.length_append] at hcount
      refine readBack_append hnum ?_ fun hk => ?_
      · refine hread k (by omega) fun body hbody => ?_
        obtain ⟨reply, hmem, hle⟩ := hbodies k body hbody
        have hreply := hsize reply (List.mem_append_left _ hmem)
        omega
      · rw [List.take_of_length_le hk] at hcount
        have hlater := hrest (k - replies.length) (by omega) fun reply hreply =>
          hsize reply (List.mem_append_right _ hreply)
        rw [hctr] at hlater
        rwa [Nat.add_right_comm]

end ShuzaGram.Mtproto

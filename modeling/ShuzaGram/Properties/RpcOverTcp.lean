import ShuzaGram.Properties.ServedCalls
import ShuzaGram.Properties.Sockets

/-!
# Requests over TCP

A client that has a key sends its requests over a socket, and reads the answers from it. Between the two there are the
cipher, a transport codec and a connection whose bytes travel in any parts.

* `serveSocket` — the thread of a connection on a socket: the transport, the frames, the writes
* `requests_over_tcp` — from end to end: the client decrypts one reply for each of its requests, in order
-/

namespace ShuzaGram.Mtproto

open Infra Crypto Messages Transport

variable {W : Type} {srv : TcpHandshakeServer W} {env : Surroundings W} {cfg : SessionConfig W}

/-! ## Over sockets -/

/-- A request of a client: its message, and what the cipher and the transport draw for it. -/
structure ClientCall where
  data : EncryptedMessageData
  rand : CipherRandom
  tail : Arr 4

/-- The message under the key that client and server share. -/
def ClientCall.seal (P : Primitives) (authKey : AuthKeyBytes) (q : ClientCall) : EncryptedMessage :=
  sealed P authKey q.data .client q.rand

/-- The inner messages of a request that are not acknowledgements. -/
def ClientCall.asks (q : ClientCall) : List Request :=
  match innerMessages q.data with
  | .error _ => []
  | .ok inner =>
    (inner.filter fun m => unwrappedId m.body ≠ some msgsAckTypeId).map fun m =>
      { sessionId := q.data.sessionId, msgId := m.msgId }

/-- Whole words, with room for what the cipher and the transport add. -/
structure ClientCall.Ordinary (q : ClientCall) : Prop where
  words : 4 ∣ q.data.messageData.length
  fits : q.data.messageData.length ≤ 2 ^ 24 - 2 ^ 11

theorem ordinary_sealed (P : Primitives) (authKey : AuthKeyBytes) (d : EncryptedMessageData) (side : Side)
    (rand : CipherRandom) (h : (sealed P authKey d side rand).encode.length ≤ 2 ^ 24 - 16) :
    Transport.Ordinary (sealed P authKey d side rand).encode := by
  obtain ⟨hwords, hlow, -⟩ := length_encode_sealed P authKey d side rand
  exact ⟨hwords, by omega, h⟩

theorem ClientCall.Ordinary.encode {q : ClientCall} (h : q.Ordinary) (P : Primitives) (authKey : AuthKeyBytes) :
    Transport.Ordinary (q.seal P authKey).encode := by
  have hhigh := (length_encode_sealed P authKey q.data .client q.rand).2.2
  have hfits := h.fits
  exact ordinary_sealed P authKey q.data .client q.rand (by omega)

/-- The replies of the calls, as frames. -/
theorem flatMap_frames (calls : List (Call W)) :
    calls.flatMap Call.frames = (calls.flatMap Call.replies).map EncryptedMessage.encode := by
  rw [List.map_flatMap]
  rfl

/-- What a session answers travels over any transport, as long as it fits. -/
theorem ordinary_frames {touched : Nat} {s : SessionState W} {ms : List EncryptedMessage} {frame : Bytes}
    (hframe : frame ∈ (servedCalls env cfg touched s ms).flatMap Call.frames) (hfits : frame.length ≤ 2 ^ 24 - 16) :
    Transport.Ordinary frame ∧ 0 < frame.length := by
  rw [flatMap_frames] at hframe
  obtain ⟨reply, hmem, rfl⟩ := List.mem_map.mp hframe
  obtain ⟨d, rand, rfl⟩ := servedCalls_sealed ms touched s reply hmem
  have hlow := (length_encode_sealed cfg.P cfg.authKey d cfg.mySide rand).2.1
  exact ⟨ordinary_sealed cfg.P cfg.authKey d cfg.mySide rand hfits, by omega⟩

/-- The session finds in a message what the client has put in. -/
theorem requestsOf_seal {q : ClientCall} (h : q.Ordinary) (srv : TcpHandshakeServer W) (key : ResolvedAuthKey) :
    requestsOf (sessionConfig srv key) (q.seal srv.P key.authKey) = q.asks := by
  have hfits := h.fits
  have hdecrypt : decryptMessage srv.P key.authKey (q.seal srv.P key.authKey) .server = .ok q.data :=
    decryptMessage_sealed srv.P key.authKey .client q.rand h.words (by omega)
  simp only [requestsOf, sessionConfig, hdecrypt]
  rfl

theorem requestsOf_take_seal {requests : List ClientCall} (h : ∀ q ∈ requests, q.Ordinary) (srv : TcpHandshakeServer W)
    (key : ResolvedAuthKey) (n : Nat) :
    ((requests.map (ClientCall.seal srv.P key.authKey)).take n).flatMap (requestsOf (sessionConfig srv key)) =
      (requests.take n).flatMap ClientCall.asks := by
  rw [← List.map_take, List.flatMap_map]
  refine List.flatMap_congr fun q hq => ?_
  exact requestsOf_seal (h q (List.mem_of_mem_take hq)) srv key

/-- A client opens a connection and sends its requests. -/
def sendRequests (P : Primitives) (authKey : AuthKeyBytes) (broken : Option String) (requests : List ClientCall) :
    EStateM Exn (Codec × Net.TcpSocket) Unit :=
  transmit (Net.TcpSocket.writeAll broken) (requests.map fun q => (q.tail, (q.seal P authKey).encode))

/-- Frames, with what the codec draws for the `n`-th of them. -/
def drawn (tails : Nat → Arr 4) (frames : List Bytes) : List (Arr 4 × Bytes) :=
  frames.zipIdx.map fun q => (tails q.2, q.1)

/-- The frames of a connection, one after another through its codec and its writer. -/
def writeFrames (streams : StreamPrimitives) (broken : Option String) (tails : Nat → Arr 4) (frames : List Bytes) :
    EStateM Exn (Codec × (Writer × Net.Outgoing)) Unit :=
  writeAll (fun q => Codec.write (Writer.write streams (Net.writeAll broken)) q.1 q.2) (drawn tails frames)

/-- The thread of a connection. The transport is detected; then frames are served as they are read, and their replies
written, until something throws. Reads take from what arrives and writes add to what is sent, so what a read gives does
not depend on when it is made, and a `Write` goes on where those before it stopped. Every read takes a byte, so there
are no more of them than bytes. The outgoing direction is left as the frames leave it that went out whole. -/
def serveSocket (streams : StreamPrimitives) (secret : Bytes) (srv : TcpHandshakeServer W) (env : Surroundings W)
    (ending : Net.Ending) (broken : Option String) (tails : Nat → Arr 4) (world : W) (t : Net.TcpSocket) :
    Except Exn (Connection W × Net.Outgoing) :=
  match detectTransport streams (Net.readExact ending) secret t.arrivals with
  | .error e _ => .error e
  | .ok detected arrivals =>
    let frames := outcomes (Codec.read (Reader.read streams (Net.readExact ending)))
      ((Net.incoming t.arrivals).length + 1) (detected.codec, (detected.read, arrivals))
    let start := (detected.codec, (detected.write, t.outgoing))
    let writes := fun sent frame => outcome (writeFrames streams broken tails (sent ++ [frame]) start)
    let conn := Steps.final (serveConnection srv { env with writes })
      (Connection.accept (frames.map fun frame _ => frame) world)
    .ok (conn, (Steps.final (writeFrames streams broken tails conn.written) start).2.2)

/-- A client reads so many replies. -/
def readReplies (streams : StreamPrimitives) (cfg : SessionConfig W) (ending : Net.Ending) (codec : Codec) (n : Nat) :
    EStateM Exn Net.TcpSocket (List (Except Exn EncryptedMessageData)) := do
  let frames ← readPayloads streams (Net.TcpSocket.readExact ending) { codec, read := .raw, write := .raw } n
  return frames.map fun frame => decodeFrom EncryptedMessage.decode frame >>= readBack cfg

/-- What a client makes of the encoded replies is what it makes of the replies. -/
theorem readBack_encode (replies : List EncryptedMessage) :
    (replies.map EncryptedMessage.encode).map (fun frame => decodeFrom EncryptedMessage.decode frame >>= readBack cfg) =
      replies.map (readBack cfg) := by
  rw [List.map_map]
  refine List.map_congr_left fun reply _ => ?_
  show (decodeFrom EncryptedMessage.decode reply.encode >>= _) = _
  rw [decodeFrom, EncryptedMessage.decode_encode]
  rfl

/-! ### What is written -/

theorem snd_drawn (tails : Nat → Arr 4) (frames : List Bytes) : (drawn tails frames).map Prod.snd = frames := by
  rw [drawn, List.map_map]
  exact List.zipIdx_map_fst 0 frames

/-- A plain writer to a socket writes as one writes to a byte string, as long as the socket does not break. -/
theorem refines_writer (streams : StreamPrimitives) (broken : Option String) (bs : Bytes) :
    Refines (broken ≠ none) (fun wo out => wo.1 = Writer.raw ∧ wo.2.sent = out)
      (Writer.write streams (Net.writeAll broken) bs) (ByteStream.appendBytes bs) := by
  rintro ⟨w, o⟩ _ ⟨rfl, rfl⟩
  rcases Net.writeAll_sends broken bs o with ⟨o', hok, hsent⟩ | ⟨errno, o', k, hbroken, herror, -⟩
  · rw [Writer.write, Steps.beside_of_ok hok]
    exact .ok ⟨rfl, hsent⟩
  · rw [Writer.write, Steps.beside_of_error herror]
    exact .early (by rw [hbroken]; exact Option.some_ne_none errno)

theorem refines_writeFrames (streams : StreamPrimitives) (broken : Option String) (tails : Nat → Arr 4)
    (frames : List Bytes) :
    Refines (broken ≠ none) (Refines.Beside Codec fun wo out => wo.1 = Writer.raw ∧ wo.2.sent = out)
      (writeFrames streams broken tails frames)
      (writeAll (fun q => Codec.write ByteStream.appendBytes q.1 q.2) (drawn tails frames)) :=
  refines_writeAll (fun q : Arr 4 × Bytes => Codec.refines_write (refines_writer streams broken) q.1 q.2)
    (drawn tails frames)

/-- Frames that go out one behind the other are written. -/
theorem writeFrames_of_goOut {streams : StreamPrimitives} {broken : Option String} {tails : Nat → Arr 4}
    {start : Codec × (Writer × Net.Outgoing)} {frames : List Bytes}
    (h : Talk.GoOut (fun sent frame => outcome (writeFrames streams broken tails (sent ++ [frame]) start)) [] frames) :
    ∃ last, writeFrames streams broken tails frames start = .ok () last := by
  rcases List.eq_nil_or_concat frames with rfl | ⟨others, frame, rfl⟩
  · exact ⟨start, rfl⟩
  · rw [List.concat_eq_append] at h ⊢
    have hlast := h.last
    rw [List.nil_append] at hlast
    cases hwrite : writeFrames streams broken tails (others ++ [frame]) start with
    | ok u last => exact ⟨last, rfl⟩
    | error e last =>
      rw [hwrite] at hlast
      cases hlast

/-- On a connection that does not break, frames that the codec takes are written. -/
theorem writeFrames_returns (streams : StreamPrimitives) (tails : Nat → Arr 4) {codec : Codec}
    (hcodec : codec ∈ freshCodecs) {frames : List Bytes} (hframes : ∀ frame ∈ frames, AcceptsWords frame)
    (o : Net.Outgoing) : outcome (writeFrames streams none tails frames (codec, (.raw, o))) = .ok () := by
  have hacc : ∀ q ∈ drawn tails frames, AcceptsWords q.2 := by
    intro q hq
    refine hframes q.2 ?_
    rw [← snd_drawn tails frames]
    exact List.mem_map_of_mem hq
  obtain ⟨last, hall⟩ := writes_return hcodec hacc o.sent
  have hend := refines_writeFrames streams none tails frames (s := (codec, (.raw, o))) (t := (codec, o.sent))
    ⟨rfl, rfl, rfl⟩
  rw [hall] at hend
  generalize writeFrames streams none tails frames (codec, (.raw, o)) = r at hend ⊢
  cases hend with
  | ok _ => rfl
  | early h => exact absurd rfl h

/-- On such a connection all replies go out, if they fit: none of them is one that could not be written. -/
theorem made_of_fits {streams : StreamPrimitives} {tails : Nat → Arr 4} {codec : Codec} (hcodec : codec ∈ freshCodecs)
    {o : Net.Outgoing} {touched : Nat} {s : SessionState W} {ms : List EncryptedMessage} {made : List (Call W)}
    {written : List Bytes} (hfirst : made <+: servedCalls env cfg touched s ms)
    (hstopped : made = servedCalls env cfg touched s ms ∧ written = (servedCalls env cfg touched s ms).flatMap Call.frames ∨
      ∃ frame rest e, made.flatMap Call.frames = written ++ frame :: rest ∧
        outcome (writeFrames streams none tails (written ++ [frame]) (codec, (.raw, o))) = .error e)
    (hfits : ∀ frame ∈ (servedCalls env cfg touched s ms).flatMap Call.frames, frame.length ≤ 2 ^ 24 - 16) :
    made = servedCalls env cfg touched s ms ∧ written = (servedCalls env cfg touched s ms).flatMap Call.frames := by
  rcases hstopped with hall | ⟨frame, rest, e, hsplit, hnot⟩
  · exact hall
  · obtain ⟨others, hcalls⟩ := hfirst
    have hframe : ∀ f ∈ written ++ [frame], AcceptsWords f := by
      intro f hf
      have hmem : f ∈ (servedCalls env cfg touched s ms).flatMap Call.frames := by
        rw [← hcalls, List.flatMap_append, hsplit]
        simp only [List.mem_append, List.mem_cons] at hf ⊢
        tauto
      obtain ⟨hwords, hpos⟩ := ordinary_frames hmem (hfits f hmem)
      exact hwords.acceptsWords hpos
    rw [writeFrames_returns streams tails hcodec hframe o] at hnot
    cases hnot

/-- What a client reads from frames that were written: the replies in them, decrypted. -/
theorem readReplies_of_written (streams : StreamPrimitives) (cfg : SessionConfig W) {broken : Option String}
    {tails : Nat → Arr 4} {codec c c' : Codec} (hcodec : codec ∈ freshCodecs) {sends : List (Arr 4 × Bytes)}
    {stream : Bytes} (hclient : clientRun sends (codec, []) = .ok () (c, stream)) {replies : List EncryptedMessage}
    (hordinary : ∀ reply ∈ replies, Transport.Ordinary reply.encode) (hcount : replies.length ≤ 2 ^ 31)
    {o o' : Net.Outgoing} (hquiet : o.sent = []) {w : Writer}
    (hall : writeFrames streams broken tails (replies.map EncryptedMessage.encode) (codec, (.raw, o)) =
      .ok () (c', (w, o'))) (ending : Net.Ending) {v : Net.TcpSocket} (hv : o'.sent <+: Net.incoming v.arrivals) :
    ∃ v', readReplies streams cfg ending c replies.length v = .ok (replies.map (readBack cfg)) v' := by
  have hanswers : ∀ q ∈ drawn tails (replies.map EncryptedMessage.encode), Transport.Ordinary q.2 := by
    intro q hq
    have hmem : q.2 ∈ replies.map EncryptedMessage.encode := by
      rw [← snd_drawn tails (replies.map EncryptedMessage.encode)]
      exact List.mem_map_of_mem hq
    obtain ⟨reply, hreply, heq⟩ := List.mem_map.mp hmem
    rw [← heq]
    exact hordinary reply hreply
  have hlen : (drawn tails (replies.map EncryptedMessage.encode)).length = replies.length := by
    rw [drawn, List.length_map, List.length_zipIdx, List.length_map]
  obtain ⟨⟨c'', out⟩, hplainly, -, -, rfl⟩ :=
    (refines_writeFrames streams broken tails (replies.map EncryptedMessage.encode)).of_ok (t := (codec, o.sent))
      ⟨rfl, rfl, rfl⟩ hall
  rw [hquiet] at hplainly
  obtain ⟨v', hframes⟩ := readPayloads_answers streams hcodec hclient hanswers (fun _ => hlen ▸ hcount) hplainly ending hv
  rw [hlen, snd_drawn] at hframes
  refine ⟨v', ?_⟩
  rw [readReplies, Steps.bind_of_ok hframes, ← readBack_encode]
  rfl

/-- What happens when a frame is written is nothing that a session sees. -/
theorem servedCalls_writes (writes : List Bytes → Bytes → Except Exn Unit) (ms : List EncryptedMessage) :
    ∀ (touched : Nat) (s : SessionState W),
    servedCalls { env with writes } cfg touched s ms = servedCalls env cfg touched s ms := by
  induction ms with
  | nil => exact fun _ _ => rfl
  | cons m ms ih =>
    intro touched s
    cases hresult : (handleEncrypted cfg env.replyDraws { s with world := env.elapse touched s.world } m).result with
    | error e => simp only [servedCalls, hresult]
    | ok replies => simp only [servedCalls, hresult, ih]

/-- The server finds the transport of the client, and its thread leaves what it does on these messages. What went out is
what the socket was given. -/
theorem serveSocket_leaves (env : Surroundings W) (streams : StreamPrimitives) (secret : Bytes)
    {registry : RpcHandlerRegistry W} {resolver : AuthKeyResolver W} {key : ResolvedAuthKey} {world : W}
    (hregistry : srv.rpcRegistry = some registry) (hresolver : srv.authKeyResolver = some resolver)
    (hkey : (resolver (authKeyId srv.P key.authKey) (env.elapse 0 world)).1 = some key)
    (hnamed : (authKeyId srv.P key.authKey).toList ≠ List.replicate 8 0) {codec c : Codec} (hcodec : codec ∈ freshCodecs)
    {requests : List ClientCall} (hne : requests ≠ []) (hrequests : ∀ q ∈ requests, q.Ordinary)
    (hcount : codec = .full {} → requests.length ≤ 2 ^ 31) {stream : Bytes} {t : Net.TcpSocket}
    (hclient : clientRun (requests.map fun q => (q.tail, (q.seal srv.P key.authKey).encode)) (codec, []) =
      .ok () (c, stream))
    (harrive : Net.incoming t.arrivals = stream) (ending : Net.Ending) (broken : Option String) (tails : Nat → Arr 4) :
    let messages := requests.map (ClientCall.seal srv.P key.authKey)
    let opened := SessionState.init 0 (resolver (authKeyId srv.P key.authKey) (env.elapse 0 world)).2
    let writes := fun sent frame =>
      outcome (writeFrames streams broken tails (sent ++ [frame]) (codec, (.raw, t.outgoing)))
    ∃ conn c' w o e made, serveSocket streams secret srv env ending broken tails world t = .ok (conn, o) ∧
      Leaves { env with writes } (Connection.accept (upcoming messages e) world) conn messages
        (servedCalls env (sessionConfig srv key) 1 opened messages) made conn.written ∧
      writeFrames streams broken tails conn.written (codec, (.raw, t.outgoing)) = .ok () (c', (w, o)) := by
  intro messages opened writes
  have hordinary : ∀ q ∈ requests.map fun q => (q.tail, (q.seal srv.P key.authKey).encode), Transport.Ordinary q.2 := by
    intro p hp
    obtain ⟨q, hq, rfl⟩ := List.mem_map.mp hp
    exact (hrequests q hq).encode srv.P key.authKey
  obtain ⟨⟨dcodec, dread, dwrite⟩, arrivals, e, hdetect, hplain, hd, hframes⟩ := detect_and_outcomes streams secret hcodec
    (by rw [ne_eq, List.map_eq_nil_iff]; exact hne) hordinary (by rw [List.length_map]; exact hcount) hclient ending harrive
  obtain rfl : dcodec = codec := hd
  obtain rfl : dwrite = .raw := hplain
  have hmoves : (outcomes (Codec.read (Reader.read streams (Net.readExact ending)))
      ((Net.incoming t.arrivals).length + 1) (dcodec, (dread, arrivals))).map (fun frame (_ : List Bytes) => frame) =
        upcoming messages e := by
    rw [harrive, hframes]
    simp only [messages, upcoming, List.map_append, List.map_map, List.map_cons, List.map_nil]
    rfl
  let conn := Steps.final (serveConnection srv { env with writes }) (Connection.accept (upcoming messages e) world)
  obtain ⟨made, out, hleaves⟩ : ∃ made out, Leaves { env with writes } (Connection.accept (upcoming messages e) world)
      conn messages (servedCalls env (sessionConfig srv key) 1 opened messages) made out := by
    have hnamed' : ∀ m ∈ messages, Named m := by
      intro m hm
      obtain ⟨q, -, rfl⟩ := List.mem_map.mp hm
      exact hnamed
    rw [← servedCalls_writes writes]
    cases requests with
    | nil => exact absurd rfl hne
    | cons q requests =>
      exact @serveConnection_resumed W srv { env with writes } registry resolver key hregistry hresolver _ _ hnamed' world
        hkey e
  obtain rfl : out = conn.written := hleaves.written.symm
  obtain ⟨⟨c', w, o⟩, hall⟩ := writeFrames_of_goOut hleaves.goOut
  refine ⟨conn, c', w, o, e, made, ?_, hleaves, hall⟩
  simp only [serveSocket, hdetect, hmoves]
  show Except.ok (conn, (Steps.final (writeFrames streams broken tails conn.written) _).2.2) = _
  rw [Steps.final, hall]

/-- **A request over TCP gets one reply.** A client that holds a key sends its requests through any plain transport. The
server finds the transport and handles the messages in order, each of them once, up to the first that throws, and no
further than a reply that does not go out; where the connection does not break and the replies fit, all of them go out.
From whatever arrives at the client behind the replies that did, it decrypts them: one for every request, in order, of
the messages before the one that threw. Neither side depends on how its bytes were cut up. -/
theorem requests_over_tcp (streams : StreamPrimitives) (secret : Bytes) {registry : RpcHandlerRegistry W}
    {resolver : AuthKeyResolver W} {key : ResolvedAuthKey} {world : W} (hregistry : srv.rpcRegistry = some registry)
    (hresolver : srv.authKeyResolver = some resolver) (hword : (sessionConfig srv key).WordHandlers)
    (hkey : (resolver (authKeyId srv.P key.authKey) (env.elapse 0 world)).1 = some key)
    (hnamed : (authKeyId srv.P key.authKey).toList ≠ List.replicate 8 0) {codec c : Codec} (hcodec : codec ∈ freshCodecs)
    {requests : List ClientCall} (hne : requests ≠ []) (hrequests : ∀ q ∈ requests, q.Ordinary)
    (hcount : codec = .full {} → requests.length ≤ 2 ^ 31) {broken : Option String} {s s' t : Net.TcpSocket}
    (hfresh : s.outgoing.sent = []) (hsent : sendRequests srv.P key.authKey broken requests (codec, s) = .ok () (c, s'))
    (harrive : Net.incoming t.arrivals = s'.outgoing.sent) (hquiet : t.outgoing.sent = []) (ending : Net.Ending)
    (broken' : Option String) (tails : Nat → Arr 4) :
    let messages := requests.map (ClientCall.seal srv.P key.authKey)
    let opened := SessionState.init 0 (resolver (authKeyId srv.P key.authKey) (env.elapse 0 world)).2
    let calls := servedCalls env (sessionConfig srv key) 1 opened messages
    let replied := (requests.take (answered calls)).flatMap ClientCall.asks
    ∃ conn o made, serveSocket streams secret srv env ending broken' tails world t = .ok (conn, o) ∧ made <+: calls ∧
      conn.handled.map (fun h => (h.frame, h.invoked)) =
        (messages.map EncryptedMessage.encode).zip (made.map Call.invoked) ∧
      (made = calls ∧ conn.written = calls.flatMap Call.frames ∧ conn.written.length = replied.length ∨
        ∃ frame rest e, made.flatMap Call.frames = conn.written ++ frame :: rest ∧
          outcome (writeFrames streams broken' tails (conn.written ++ [frame]) (codec, (.raw, t.outgoing))) = .error e) ∧
      (broken' = none → (∀ frame ∈ calls.flatMap Call.frames, frame.length ≤ 2 ^ 24 - 16) →
        made = calls ∧ conn.written = calls.flatMap Call.frames) ∧
      (conn.written.length < 2 ^ 30 → (∀ frame ∈ conn.written, frame.length ≤ 2 ^ 24 - 16) →
        ∀ v ending', o.sent <+: Net.incoming v.arrivals →
        ∃ decrypted v', readReplies streams (sessionConfig srv key) ending' c conn.written.length v =
            .ok (decrypted.map .ok) v' ∧
          List.Forall₂ (IsReply (sessionConfig srv key)) ((replied.zipIdx 1).take conn.written.length) decrypted) := by
  intro messages opened calls replied
  have hclient := clientRun_of_transmit hfresh hsent
  obtain ⟨conn, c', w, o, e, made, hserve, hleaves, hall⟩ := serveSocket_leaves env streams secret hregistry
    hresolver hkey hnamed hcodec hne hrequests hcount hclient harrive ending broken' tails
  -- the replies
  obtain ⟨hnumber, hread⟩ := servedCalls_replies env hword messages 1 opened
  rw [requestsOf_take_seal hrequests srv key] at hnumber hread
  have hout : conn.written = ((calls.flatMap Call.replies).take conn.written.length).map EncryptedMessage.encode := by
    rw [List.map_take, ← flatMap_frames]
    exact List.prefix_iff_eq_take.mp hleaves.out_prefix
  refine ⟨conn, o, made, hserve, hleaves.first, hleaves.handled, ?_, ?_, ?_⟩
  · rcases hleaves.stopped with ⟨hmade, hwhole⟩ | hnot
    · refine .inl ⟨hmade, hwhole, ?_⟩
      rw [hwhole, flatMap_frames, List.length_map]
      exact hnumber
    · exact .inr hnot
  · rintro rfl hfits
    exact made_of_fits hcodec hleaves.first hleaves.stopped hfits
  · intro hfew hsize v ending' hv
    -- the replies that went out are the first ones, and whole
    let replies := (calls.flatMap Call.replies).take conn.written.length
    have hlen : replies.length = conn.written.length := by
      rw [← List.length_map (f := EncryptedMessage.encode), ← hout]
    have hmem : ∀ reply ∈ replies, reply.encode ∈ conn.written := by
      intro reply hreply
      rw [hout]
      exact List.mem_map_of_mem hreply
    obtain ⟨decrypted, hback, hmatch⟩ := hread conn.written.length
      (by rwa [show opened.contentSeqCounter = 0 from rfl, Nat.zero_add, hlen])
      fun reply hreply => hsize _ (hmem reply hreply)
    have hordinary : ∀ reply ∈ replies, Transport.Ordinary reply.encode := by
      intro reply hreply
      have hwritten := hmem reply hreply
      exact (ordinary_frames (hleaves.out_prefix.subset hwritten) (hsize _ hwritten)).1
    rw [hout] at hall
    obtain ⟨v', hreplies⟩ := readReplies_of_written streams (sessionConfig srv key) hcodec hclient hordinary
      (by omega) hquiet hall ending' hv
    rw [hlen, hback] at hreplies
    exact ⟨decrypted, v', hreplies, hmatch⟩

/-! ## A call -/

/-- Whether a run returns. -/
def returns {ε S α : Type} : EStateM.Result ε S α → Bool
  | .ok _ _ => true
  | .error _ _ => false

theorem ok_of_returns {ε S : Type} {r : EStateM.Result ε S Unit} (h : returns r = true) : ∃ s, r = .ok () s := by
  cases r with
  | ok u s => exact ⟨s, rfl⟩
  | error e s => cases h

/-- A call under the key that the server knows. -/
def oneCall : ClientCall where
  data := { salt := 0, sessionId := 9, messageId := 4, seqNo := 1, messageData := [7, 0, 0, 0] }
  rand := { randByte := 0, pad := fun _ => 0 }
  tail := Arr.zero 4

/-- A socket whose bytes arrive one by one, and that takes what is sent. -/
def bytewise (bytes : Bytes) : Net.TcpSocket :=
  ⟨bytes.map fun b => .segment b [], ⟨List.replicate 4 (.bytes 1000), []⟩⟩

theorem incoming_bytewise (bytes : Bytes) : Net.incoming (bytewise bytes).arrivals = bytes := by
  show Net.incoming (bytes.map fun b => .segment b []) = bytes
  induction bytes with
  | nil => rfl
  | cons b bytes ih => exact congrArg (List.cons b) ih

/-- The key of the server, which is that of the client. -/
def knownKey : ResolvedAuthKey := { authKey := Arr.zero 256, serverSalt := 0 }

/-- The call that the session makes of it. -/
def callServed : List (Call Unit) :=
  servedCalls quietSurroundings (sessionConfig oneKeyServer knownKey) 1 (SessionState.init 0 ())
    ([oneCall].map (ClientCall.seal oneKeyServer.P knownKey.authKey))

/-- A call, its reply, and nothing else. -/
theorem requests_over_tcp_call : ∃ c s' conn o,
    sendRequests oneKeyServer.P knownKey.authKey none [oneCall] (.intermediate, bytewise []) = .ok () (c, s') ∧
    serveSocket blankStreams [] oneKeyServer quietSurroundings .closed none (fun _ => Arr.zero 4) ()
      (bytewise s'.outgoing.sent) = .ok (conn, o) ∧
    conn.handled.map (fun h => h.invoked.length) = [1] ∧
    ∃ decrypted v',
      readReplies blankStreams (sessionConfig oneKeyServer knownKey) (.failed "Connection reset by peer") c 1
        (bytewise o.sent) = .ok [.ok decrypted] v' ∧
      IsReply (sessionConfig oneKeyServer knownKey) ({ sessionId := 9, msgId := 4 }, 1) decrypted := by
  have hword : (sessionConfig oneKeyServer knownKey).WordHandlers := by
    intro id handler body ctx w result w' hfind hrun
    cases Option.some.inj hfind
    cases hrun
    exact ⟨1, rfl⟩
  have hordinary : ∀ q ∈ [oneCall], q.Ordinary := by
    intro q hq
    rcases List.mem_singleton.mp hq with rfl
    exact ⟨⟨1, rfl⟩, by decide⟩
  have hreturns : returns (sendRequests oneKeyServer.P knownKey.authKey none [oneCall]
      (.intermediate, bytewise [])) = true := by
    decide +kernel
  have hnamed : (authKeyId oneKeyServer.P knownKey.authKey).toList ≠ List.replicate 8 0 := by
    show List.replicate 8 (1 : UInt8) ≠ List.replicate 8 0
    decide
  obtain ⟨⟨c, s'⟩, hsent⟩ := ok_of_returns hreturns
  obtain ⟨conn, o, made, hserve, -, hhandled, -, hall, hreplies⟩ := @requests_over_tcp Unit oneKeyServer quietSurroundings
    blankStreams [] _ _ knownKey () rfl rfl hword rfl hnamed .intermediate c (List.mem_cons_of_mem _ List.mem_cons_self)
    [oneCall] (List.cons_ne_nil _ _) hordinary (fun h => by cases h) none (bytewise []) s' (bytewise s'.outgoing.sent) rfl
    hsent (incoming_bytewise s'.outgoing.sent) rfl .closed none (fun _ => Arr.zero 4)
  have hframes : (callServed.flatMap Call.frames).map List.length = [88] := by decide +kernel
  have hinvoked : ((([oneCall].map (ClientCall.seal oneKeyServer.P knownKey.authKey)).map EncryptedMessage.encode).zip
      (callServed.map Call.invoked)).map (fun p => p.2.length) = [1] := by
    decide +kernel
  have hanswered : answered callServed = 1 := by decide +kernel
  have hsmall : ∀ frame ∈ callServed.flatMap Call.frames, frame.length ≤ 2 ^ 24 - 16 := by
    intro frame hframe
    have hmem : frame.length ∈ (callServed.flatMap Call.frames).map List.length := List.mem_map_of_mem hframe
    rw [hframes, List.mem_singleton] at hmem
    omega
  -- the reply goes out
  obtain ⟨rfl, hwritten⟩ := hall rfl hsmall
  have hone : conn.written.length = 1 := by
    have hlen := congrArg List.length hframes
    rw [List.length_map] at hlen
    rw [hwritten]
    exact hlen
  obtain ⟨decrypted, v', hread, hmatch⟩ := hreplies (by omega) (by rw [hwritten]; exact hsmall) (bytewise o.sent)
    (.failed "Connection reset by peer") (by rw [incoming_bytewise])
  rw [hone] at hread hmatch
  have hhandled' := congrArg (List.map fun p => p.2.length) hhandled
  rw [List.map_map] at hhandled'
  -- every request is answered
  have hasks : (List.take (answered callServed) [oneCall]).flatMap ClientCall.asks = [{ sessionId := 9, msgId := 4 }] := by
    rw [hanswered]
    rfl
  change List.Forall₂ _ (List.take 1 (((List.take (answered callServed) [oneCall]).flatMap ClientCall.asks).zipIdx 1)) _
    at hmatch
  rw [hasks] at hmatch
  cases hmatch with
  | cons hone hrest =>
    cases hrest
    exact ⟨c, s', conn, o, hsent, hserve, hhandled'.trans hinvoked, _, v', hread, hone⟩

end ShuzaGram.Mtproto

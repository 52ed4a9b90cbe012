import ShuzaGram.Mtproto.Session

/-!
# What one dispatch does

The step lemmas for a session: what the response to one inner message can be (`dispatchOne_answer`),
and one round of the loop of `HandleEncrypted` (`dispatchAll_cons_reply` and its siblings). From these follows what a whole
call encrypts: `dispatchAll_result` says that its replies are its bodies, sealed one after another
with consecutive numbers.
-/

namespace ShuzaGram.Mtproto

open Infra Crypto Messages

/-- The constructor id behind the wrappers and the bytes behind that id, where the wrappers can be
read. -/
def unwrappedCall (body : Bytes) : Option (UInt32 × Bytes) :=
  match unwrapInvokeWrappers body with
  | .error _ _ => none
  | .ok _ b => some (UInt32.ofNat (ofLE (b.take 4)), b.drop 4)

def unwrappedId (body : Bytes) : Option UInt32 := (unwrappedCall body).map Prod.fst

/-- Unwrapping leaves a buffer that starts with the id. -/
theorem unwrappedCall_of_ok {body b : Bytes} (hu : unwrapInvokeWrappers body = .ok () b) :
    ∃ id, peekId b = .ok id b ∧ unwrappedCall body = some (id, b.drop 4) := by
  obtain ⟨id, hid⟩ := peekId_of_unwrap hu
  refine ⟨id, hid, ?_⟩
  unfold unwrappedCall
  rw [hu, (peekId_eq_ok hid).2.1]

/-- The context in which the handlers of a call run. -/
def SessionConfig.context {W : Type} (cfg : SessionConfig W) (sessionId : Int64) : RpcContext :=
  { authKeyId := authKeyId cfg.P cfg.authKey, sessionId }

/-- The handler that a message reaches, with its id and the arguments it gets. -/
def reached {W : Type} (cfg : SessionConfig W) (body : Bytes) : Option (RpcHandler W × UInt32 × Bytes) :=
  match unwrappedCall body with
  | none => none
  | some (id, args) =>
    if id = pingTypeId ∨ id = pingDelayDisconnectTypeId ∨ id = msgsAckTypeId then none
    else (cfg.find id).map fun handler => (handler, id, args)

/-- The results that handlers give are whole words. -/
def SessionConfig.WordHandlers {W : Type} (cfg : SessionConfig W) : Prop :=
  ∀ id handler body ctx w result w', cfg.find id = some handler →
    handler id body ctx w = (.ok result, w') → 4 ∣ result.length

section

variable {W : Type} {cfg : SessionConfig W}

/-- The bodies that answer the message `msgId`, by where they come from. -/
inductive Answer (cfg : SessionConfig W) (msgId : Int64) : Bytes → Prop
  | pong (pingId : Int64) : Answer cfg msgId (Pong.encode msgId pingId)
  | notFound (id : UInt32) : Answer cfg msgId (RpcResult.encode msgId (methodNotFound id))
  | internal (e : Exn) : Answer cfg msgId (RpcResult.encode msgId (internalError e))
  | result {id : UInt32} {handler : RpcHandler W} {body : Bytes} {ctx : RpcContext} {w w' : W}
      {result : Bytes} : cfg.find id = some handler → handler id body ctx w = (.ok result, w') →
      Answer cfg msgId (RpcResult.encode msgId result)

theorem Answer.pong_or_result {msgId : Int64} {response : Bytes} (h : Answer cfg msgId response) :
    (∃ pingId, response = Pong.encode msgId pingId) ∨
      ∃ result, response = RpcResult.encode msgId result := by
  cases h with
  | pong pingId => exact .inl ⟨pingId, rfl⟩
  | notFound id => exact .inr ⟨_, rfl⟩
  | internal e => exact .inr ⟨_, rfl⟩
  | result hfind hrun => exact .inr ⟨_, rfl⟩

theorem Answer.ne_nil {msgId : Int64} {response : Bytes} (h : Answer cfg msgId response) :
    response ≠ [] := by
  rcases h.pong_or_result with ⟨pingId, rfl⟩ | ⟨result, rfl⟩
  · exact List.ne_nil_of_length_pos (by simp)
  · exact List.ne_nil_of_length_pos (by rw [length_rpcResult_encode]; omega)

theorem Answer.four_dvd_length (hword : cfg.WordHandlers) {msgId : Int64} {response : Bytes}
    (h : Answer cfg msgId response) : 4 ∣ response.length := by
  cases h with
  | pong pingId => exact ⟨5, length_pong_encode msgId pingId⟩
  | notFound id =>
    have herr : 4 ∣ (methodNotFound id).length := four_dvd_length_rpcError _ _
    rw [length_rpcResult_encode]
    omega
  | internal e =>
    have herr : 4 ∣ (internalError e).length := four_dvd_length_rpcError _ _
    rw [length_rpcResult_encode]
    omega
  | result hfind hrun =>
    have hres := hword _ _ _ _ _ _ _ hfind hrun
    rw [length_rpcResult_encode]
    omega

theorem wrapResult_eq_ok {debug : Bool} {msgId : Int64} {id : UInt32} {result response : Bytes}
    (h : wrapResult debug msgId id result = .ok response) :
    response = RpcResult.encode msgId (if result = [] then methodNotFound id else result) := by
  unfold wrapResult at h
  split at h
  · next hnil =>
    cases h
    rw [if_pos hnil]
  · next hne =>
    rw [if_neg hne]
    split at h
    · split at h
      · cases h
        rfl
      · cases h
    · cases h
      rfl

theorem answerPing_eq_ok {msgId : Int64} {id : UInt32} {decode : Get Int64} {b response : Bytes}
    (h : answerPing msgId id decode b = .ok response) : Answer cfg msgId response := by
  unfold answerPing at h
  split at h
  · cases h
    exact .pong _
  · cases h

theorem callHandler_eq_ok {sessionId msgId : Int64} {id : UInt32} {handler : RpcHandler W}
    {b response : Bytes} {w : W} (hfind : cfg.find id = some handler)
    (h : (callHandler cfg sessionId msgId id handler b w).response = .ok response) :
    Answer cfg msgId response := by
  unfold callHandler at h
  split at h
  · cases h
  · next _ body _ =>
    simp only at h
    cases hrun : handler id body { authKeyId := authKeyId cfg.P cfg.authKey, sessionId } w with
    | mk outcome w' =>
      rw [hrun] at h
      cases outcome with
      | error e => cases h
      | ok result =>
        rw [wrapResult_eq_ok h]
        split
        · exact .notFound id
        · exact .result hfind hrun

/-- **A dispatch that does not throw answers its message, unless that is an acknowledgement.** -/
theorem dispatchOne_answer {sessionId msgId : Int64} {body response : Bytes} {w : W}
    (h : (dispatchOne cfg sessionId msgId body w).response = .ok response) :
    (unwrappedId body = some msgsAckTypeId ∧ response = []) ∨
      (unwrappedId body ≠ some msgsAckTypeId ∧ Answer cfg msgId response) := by
  unfold dispatchOne at h
  cases hu : unwrapInvokeWrappers body with
  | error e b =>
    have hcall : unwrappedId body = none := by unfold unwrappedId unwrappedCall; rw [hu]; rfl
    rw [hu] at h
    cases h
    exact .inr ⟨by simp [hcall], .internal e⟩
  | ok _ b =>
    rw [hu] at h
    obtain ⟨id, hid, hcall⟩ := unwrappedCall_of_ok hu
    simp only [hid] at h
    simp only [unwrappedId, hcall, Option.map_some]
    -- The constructors that the session answers itself, then the registry.
    unfold dispatchCall at h
    split at h
    · next hping =>
      exact .inr ⟨by rw [hping]; decide, answerPing_eq_ok h⟩
    split at h
    · next hping =>
      exact .inr ⟨by rw [hping]; decide, answerPing_eq_ok h⟩
    split at h
    · next hack =>
      cases h
      exact .inl ⟨by rw [hack], rfl⟩
    · next hack =>
      refine .inr ⟨fun hc => hack (Option.some.inj hc), ?_⟩
      split at h
      · next handler hfind => exact callHandler_eq_ok hfind h
      · have hwrap : wrapResult cfg.debugTransport msgId id [] = .ok response := h
        rw [wrapResult_eq_ok hwrap]
        exact .notFound id

/-- A message that reaches a handler is answered with what the handler returns. -/
theorem dispatchOne_reached {sessionId msgId : Int64} {body args : Bytes} {id : UInt32}
    {handler : RpcHandler W} (h : reached cfg body = some (handler, id, args)) (w : W) :
    dispatchOne cfg sessionId msgId body w =
      { response := do
          let result ← (handler id args (cfg.context sessionId) w).1
          wrapResult cfg.debugTransport msgId id result
        invoked := some
          { msgId, constructorId := id, body := args, ctx := cfg.context sessionId
            outcome := (handler id args (cfg.context sessionId) w).1 }
        world := (handler id args (cfg.context sessionId) w).2 } := by
  unfold dispatchOne
  cases hu : unwrapInvokeWrappers body with
  | error e b =>
    have hcall : unwrappedCall body = none := by unfold unwrappedCall; rw [hu]
    simp [reached, hcall] at h
  | ok _ b =>
    obtain ⟨id', hid, hcall⟩ := unwrappedCall_of_ok hu
    simp only [reached, hcall] at h
    split at h
    · cases h
    · next hcore =>
      obtain ⟨handler', hfind, heq⟩ := Option.map_eq_some_iff.mp h
      cases heq
      simp only [not_or] at hcore
      simp only [hid, dispatchCall, if_neg hcore.1, if_neg hcore.2.1, if_neg hcore.2.2, hfind,
        callHandler, consumeId_of_peekId hid]
      rfl

/-- A message that reaches no handler leaves the world alone. -/
theorem dispatchOne_not_reached {sessionId msgId : Int64} {body : Bytes}
    (h : reached cfg body = none) (w : W) :
    (dispatchOne cfg sessionId msgId body w).invoked = none ∧
      (dispatchOne cfg sessionId msgId body w).world = w := by
  unfold dispatchOne
  cases hu : unwrapInvokeWrappers body with
  | error e b => exact ⟨rfl, rfl⟩
  | ok _ b =>
    obtain ⟨id, hid, hcall⟩ := unwrappedCall_of_ok hu
    simp only [reached, hcall] at h
    simp only [hid, dispatchCall]
    split
    · exact ⟨rfl, rfl⟩
    split
    · exact ⟨rfl, rfl⟩
    split
    · exact ⟨rfl, rfl⟩
    · next h1 h2 h3 =>
      rw [if_neg (by simp [h1, h2, h3]), Option.map_eq_none_iff] at h
      simp only [h]
      exact ⟨trivial, trivial⟩

theorem dispatchOne_invoked {sessionId msgId : Int64} {body : Bytes} {w : W} {inv : Invocation}
    (h : (dispatchOne cfg sessionId msgId body w).invoked = some inv) :
    ∃ handler id args, reached cfg body = some (handler, id, args) ∧ inv.msgId = msgId ∧
      inv.outcome = (handler id args (cfg.context sessionId) w).1 := by
  cases hr : reached cfg body with
  | none =>
    rw [(dispatchOne_not_reached hr w).1] at h
    cases h
  | some x =>
    obtain ⟨handler, id, args⟩ := x
    rw [dispatchOne_reached hr w] at h
    cases h
    exact ⟨handler, id, args, rfl, rfl, rfl⟩

/-! ## The loop -/

/-- The replies for a list of bodies, numbered from `n` on. -/
def sealReplies (cfg : SessionConfig W) (draws : Nat → Draw) (sessionId : Int64) :
    Nat → List Bytes → List EncryptedMessage
  | _, [] => []
  | n, body :: bodies =>
    sealed cfg.P cfg.authKey (outgoing cfg sessionId n (draws n).nowNanos body) cfg.mySide (draws n).rand
      :: sealReplies cfg draws sessionId (n + 1) bodies

@[simp] theorem length_sealReplies (cfg : SessionConfig W) (draws : Nat → Draw) (sessionId : Int64) :
    ∀ (n : Nat) (bodies : List Bytes), (sealReplies cfg draws sessionId n bodies).length = bodies.length
  | _, [] => rfl
  | n, body :: bodies => by
    rw [sealReplies, List.length_cons, List.length_cons, length_sealReplies]

/-- The dispatch of one inner message in the state `s`. -/
def dispatchIn (cfg : SessionConfig W) (s : SessionState W) (m : InnerMessage) : Dispatched W :=
  dispatchOne cfg s.sessionId m.msgId m.body s.world

/-- The handler runs of one inner message, with their site. -/
def invokedAt (outer : Int64) (i : Nat) (d : Dispatched W) : List (Site × Invocation) :=
  d.invoked.toList.map fun inv => ({ outer, position := i }, inv)

/-- The state behind one inner message that was answered with `n` replies. -/
def SessionState.after (s : SessionState W) (d : Dispatched W) (n : Nat) : SessionState W :=
  { s with world := d.world, contentSeqCounter := s.contentSeqCounter + n }

@[simp] theorem after_sessionId (s : SessionState W) (d : Dispatched W) (n : Nat) :
    (s.after d n).sessionId = s.sessionId := rfl

@[simp] theorem after_lastSeenMsgId (s : SessionState W) (d : Dispatched W) (n : Nat) :
    (s.after d n).lastSeenMsgId = s.lastSeenMsgId := rfl

@[simp] theorem after_contentSeqCounter (s : SessionState W) (d : Dispatched W) (n : Nat) :
    (s.after d n).contentSeqCounter = s.contentSeqCounter + n := rfl

@[simp] theorem after_world (s : SessionState W) (d : Dispatched W) (n : Nat) :
    (s.after d n).world = d.world := rfl

/-- The next reply of the state `s`, sealed. -/
def sealNext (cfg : SessionConfig W) (draws : Nat → Draw) (s : SessionState W) (response : Bytes) :
    EncryptedMessage :=
  sealed cfg.P cfg.authKey
    (outgoing cfg s.sessionId s.contentSeqCounter (draws s.contentSeqCounter).nowNanos response)
    cfg.mySide (draws s.contentSeqCounter).rand

theorem prepend_result_eq_ok {invoked : List (Site × Invocation)}
    {reply : List (Bytes × EncryptedMessage)} {c : Call W} {replies : List EncryptedMessage} :
    (c.prepend invoked reply).result = .ok replies ↔
      ∃ rest, c.result = .ok rest ∧ replies = reply.map Prod.snd ++ rest := by
  unfold Call.prepend
  cases c.result with
  | error e => simp [Except.map]
  | ok rest => simp [Except.map, eq_comm]

section Loop

variable {draws : Nat → Draw} {outer : Int64} {i : Nat} {m : InnerMessage} {ms : List InnerMessage}
  {s : SessionState W}

/-- A message whose dispatch throws ends the loop. -/
theorem dispatchAll_cons_error {e : Exn} (h : (dispatchIn cfg s m).response = .error e) :
    dispatchAll cfg draws outer i (m :: ms) s =
      { result := .error e
        invoked := invokedAt outer i (dispatchIn cfg s m)
        bodies := []
        state := s.after (dispatchIn cfg s m) 0 } := by
  unfold dispatchIn at h
  simp only [dispatchAll, h, Call.throw, Call.prepend, List.append_nil, List.map_nil, invokedAt]
  rfl

/-- A message without a response only runs its handler. -/
theorem dispatchAll_cons_nil (h : (dispatchIn cfg s m).response = .ok []) :
    dispatchAll cfg draws outer i (m :: ms) s =
      (dispatchAll cfg draws outer (i + 1) ms (s.after (dispatchIn cfg s m) 0)).prepend
        (invokedAt outer i (dispatchIn cfg s m)) [] := by
  unfold dispatchIn at h
  simp only [dispatchAll, h, if_true]
  rfl

/-- A message with a response: encryption never throws, so the loop goes on with the next number. -/
theorem dispatchAll_cons_reply {response : Bytes} (h : (dispatchIn cfg s m).response = .ok response)
    (hne : response ≠ []) :
    dispatchAll cfg draws outer i (m :: ms) s =
      (dispatchAll cfg draws outer (i + 1) ms (s.after (dispatchIn cfg s m) 1)).prepend
        (invokedAt outer i (dispatchIn cfg s m)) [(response, sealNext cfg draws s response)] := by
  unfold dispatchIn at h
  simp only [dispatchAll, h, if_neg hne, encryptOutgoing, encryptMessage_eq_ok, nextSeqNo, if_true]
  rfl

end Loop

/-- **Induction over the loop of `HandleEncrypted`**: a message either ends the loop by throwing, or
passes without a response, or is answered. -/
theorem dispatchAll_induct {draws : Nat → Draw} {outer : Int64}
    {motive : Nat → List InnerMessage → SessionState W → Call W → Prop}
    (nil : ∀ i s, motive i [] s { result := .ok [], invoked := [], bodies := [], state := s })
    (error : ∀ i m ms s e, (dispatchIn cfg s m).response = .error e →
      motive i (m :: ms) s
        { result := .error e
          invoked := invokedAt outer i (dispatchIn cfg s m)
          bodies := []
          state := s.after (dispatchIn cfg s m) 0 })
    (silent : ∀ i m ms s c, (dispatchIn cfg s m).response = .ok [] →
      motive (i + 1) ms (s.after (dispatchIn cfg s m) 0) c →
      motive i (m :: ms) s (c.prepend (invokedAt outer i (dispatchIn cfg s m)) []))
    (reply : ∀ i m ms s c response, (dispatchIn cfg s m).response = .ok response → response ≠ [] →
      motive (i + 1) ms (s.after (dispatchIn cfg s m) 1) c →
      motive i (m :: ms) s (c.prepend (invokedAt outer i (dispatchIn cfg s m))
        [(response, sealNext cfg draws s response)])) :
    ∀ ms i s, motive i ms s (dispatchAll cfg draws outer i ms s) := by
  intro ms
  induction ms with
  | nil => exact fun i s => nil i s
  | cons m ms ih =>
    intro i s
    cases h : (dispatchIn cfg s m).response with
    | error e =>
      rw [dispatchAll_cons_error h]
      exact error i m ms s e h
    | ok response =>
      by_cases hne : response = []
      · subst hne
        rw [dispatchAll_cons_nil h]
        exact silent i m ms s _ h (ih _ _)
      · rw [dispatchAll_cons_reply h hne]
        exact reply i m ms s _ response h hne (ih _ _)

/-- The loop changes the counter and the world only; the counter counts the bodies. -/
theorem dispatchAll_state (cfg : SessionConfig W) (draws : Nat → Draw) (outer : Int64) (i : Nat)
    (ms : List InnerMessage) (s : SessionState W) :
    (dispatchAll cfg draws outer i ms s).state.sessionId = s.sessionId ∧
      (dispatchAll cfg draws outer i ms s).state.lastSeenMsgId = s.lastSeenMsgId ∧
      (dispatchAll cfg draws outer i ms s).state.contentSeqCounter =
        s.contentSeqCounter + (dispatchAll cfg draws outer i ms s).bodies.length := by
  refine dispatchAll_induct (motive := fun _ _ s c => c.state.sessionId = s.sessionId ∧
    c.state.lastSeenMsgId = s.lastSeenMsgId ∧
    c.state.contentSeqCounter = s.contentSeqCounter + c.bodies.length) ?_ ?_ ?_ ?_ ms i s
  · intro i s
    exact ⟨rfl, rfl, rfl⟩
  · intro i m ms s e _
    exact ⟨rfl, rfl, rfl⟩
  · intro i m ms s c _ ih
    exact ih
  · intro i m ms s c response _ _ ⟨h1, h2, h3⟩
    refine ⟨h1, h2, ?_⟩
    simp only [Call.prepend, List.map_cons, List.map_nil, List.singleton_append, List.length_cons]
    rw [h3, after_contentSeqCounter]
    omega

/-- **The replies of a call are its bodies, sealed one after another.** -/
theorem dispatchAll_result (draws : Nat → Draw) (outer : Int64) (i : Nat) (ms : List InnerMessage)
    (s : SessionState W) {replies : List EncryptedMessage}
    (h : (dispatchAll cfg draws outer i ms s).result = .ok replies) :
    replies = sealReplies cfg draws s.sessionId s.contentSeqCounter
      (dispatchAll cfg draws outer i ms s).bodies := by
  revert replies
  refine dispatchAll_induct (motive := fun _ _ s c => ∀ {replies}, c.result = .ok replies →
    replies = sealReplies cfg draws s.sessionId s.contentSeqCounter c.bodies) ?_ ?_ ?_ ?_ ms i s
  · intro i s replies h
    cases h
    rfl
  · intro i m ms s e _ replies h
    cases h
  · intro i m ms s c _ ih replies h
    obtain ⟨rest, hrest, rfl⟩ := prepend_result_eq_ok.mp h
    exact ih hrest
  · intro i m ms s c response _ _ ih replies h
    obtain ⟨rest, hrest, rfl⟩ := prepend_result_eq_ok.mp h
    rw [ih hrest]
    rfl

/-! ## One call -/

/-- The state in which the inner messages of an accepted message are dispatched. -/
def SessionState.accept (s : SessionState W) (data : EncryptedMessageData) : SessionState W :=
  { s with sessionId := data.sessionId, lastSeenMsgId := data.messageId }

/-- The four ways a call of `HandleEncrypted` can go. -/
inductive Handled (cfg : SessionConfig W) (draws : Nat → Draw) (s : SessionState W)
    (incoming : EncryptedMessage) : Call W → Prop
  | undecryptable {e : Exn} :
      decryptMessage cfg.P cfg.authKey incoming cfg.mySide = .error e →
      Handled cfg draws s incoming (Call.throw e s)
  | replayed {data : EncryptedMessageData} :
      decryptMessage cfg.P cfg.authKey incoming cfg.mySide = .ok data →
      data.messageId ≤ s.lastSeenMsgId →
      Handled cfg draws s incoming (Call.throw notIncreasing { s with sessionId := data.sessionId })
  | malformed {data : EncryptedMessageData} {e : Exn} :
      decryptMessage cfg.P cfg.authKey incoming cfg.mySide = .ok data →
      s.lastSeenMsgId < data.messageId → innerMessages data = .error e →
      Handled cfg draws s incoming (Call.throw e (s.accept data))
  | accepted {data : EncryptedMessageData} {inner : List InnerMessage} :
      decryptMessage cfg.P cfg.authKey incoming cfg.mySide = .ok data →
      s.lastSeenMsgId < data.messageId → innerMessages data = .ok inner →
      Handled cfg draws s incoming (dispatchAll cfg draws data.messageId 0 inner (s.accept data))

theorem handleEncrypted_accepted {draws : Nat → Draw} {s : SessionState W}
    {incoming : EncryptedMessage} {data : EncryptedMessageData} {inner : List InnerMessage}
    (hdec : decryptMessage cfg.P cfg.authKey incoming cfg.mySide = .ok data)
    (hlt : s.lastSeenMsgId < data.messageId) (hinner : innerMessages data = .ok inner) :
    handleEncrypted cfg draws s incoming =
      dispatchAll cfg draws data.messageId 0 inner (s.accept data) := by
  unfold handleEncrypted
  simp only [hdec, if_neg (Int64.not_le.mpr hlt), hinner]
  rfl

theorem handleEncrypted_handled (cfg : SessionConfig W) (draws : Nat → Draw) (s : SessionState W)
    (incoming : EncryptedMessage) :
    Handled cfg draws s incoming (handleEncrypted cfg draws s incoming) := by
  unfold handleEncrypted
  cases hdec : decryptMessage cfg.P cfg.authKey incoming cfg.mySide with
  | error e => exact .undecryptable hdec
  | ok data =>
    simp only
    split
    · next hle => exact .replayed hdec hle
    · next hlt =>
      have hlt : s.lastSeenMsgId < data.messageId := Int64.not_le.mp hlt
      cases hinner : innerMessages data with
      | error e => exact .malformed hdec hlt hinner
      | ok inner => exact .accepted hdec hlt hinner

/-! ## A sample session -/

/-- The demo method of `tests/mtproto_session_test.cpp`, which answers with the shape of a pong; its
world counts the calls. -/
def sampleHandler : RpcHandler Nat := fun _ body _ w =>
  match int32 body with
  | .ok echoedField _ => (.ok (Pong.encode 0 echoedField.toInt64), w + 1)
  | .error e _ => (.error e, w)

def sampleMethodId : UInt32 := 0x12345678

def sampleConfig (P : Primitives) : SessionConfig Nat :=
  { P := P
    authKey := Arr.zero 256
    serverSalt := 222
    mySide := .server
    registry := some fun id => if id = sampleMethodId then some sampleHandler else none
    debugTransport := false }

/-- Constant hashes and the identity as cipher, where a run has to be computed. -/
def samplePrimitives : Primitives :=
  { sha1 := fun _ => Arr.zero 20
    sha256 := fun _ => Arr.zero 32
    aes := fun _ => Equiv.refl _ }

def sampleRandom : CipherRandom := { randByte := 0, pad := fun _ => 0 }

def sampleDraws : Nat → Draw := fun _ => { nowNanos := 1000000000, rand := sampleRandom }

/-- A call of the sample method. -/
def sampleCall (v : Int32) : Bytes := putId sampleMethodId ++ putInt32 v

/-- What a client of the sample session encrypts. -/
def sampleData (messageId : Int64) (body : Bytes) : EncryptedMessageData :=
  { salt := 222, sessionId := 111, messageId, seqNo := 1, messageData := body }

def sampleMessage (P : Primitives) (messageId : Int64) (body : Bytes) : EncryptedMessage :=
  sealed P (Arr.zero 256) (sampleData messageId body) .client sampleRandom

/-- The sample session accepts a message of its client that is newer than the mark. -/
theorem handleEncrypted_sampleMessage (P : Primitives) (s : SessionState Nat) (messageId : Int64)
    (body : Bytes) (inner : List InnerMessage) (hword : 4 ∣ body.length)
    (hlen : body.length < 2 ^ 31 - 2 ^ 11) (hlt : s.lastSeenMsgId < messageId)
    (hinner : innerMessages (sampleData messageId body) = .ok inner) :
    handleEncrypted (sampleConfig P) sampleDraws s (sampleMessage P messageId body) =
      dispatchAll (sampleConfig P) sampleDraws messageId 0 inner
        (s.accept (sampleData messageId body)) := by
  have hdec : decryptMessage P (Arr.zero 256) (sampleMessage P messageId body) .server =
      .ok (sampleData messageId body) :=
    decryptMessage_sealed P (Arr.zero 256) .client sampleRandom hword hlen
  exact handleEncrypted_accepted hdec hlt hinner

/-- The demo method is answered in every state, whatever the primitives. -/
theorem dispatchIn_sampleCall (P : Primitives) (s : SessionState Nat) (msgId : Int64) (v : Int32) :
    dispatchIn (sampleConfig P) s { msgId, body := sampleCall v } =
      { response := .ok (RpcResult.encode msgId (Pong.encode 0 v.toInt64))
        invoked := some
          { msgId, constructorId := sampleMethodId, body := putInt32 v
            ctx := { authKeyId := authKeyId P (Arr.zero 256), sessionId := s.sessionId }
            outcome := .ok (Pong.encode 0 v.toInt64) }
        world := s.world + 1 } := by
  have hunwrap : unwrapInvokeWrappers (sampleCall v) = .ok () (sampleCall v) :=
    unwrapInvokeWrappers_plain (by decide) _
  have hpeek : peekId (sampleCall v) = .ok sampleMethodId (sampleCall v) := peekId_put _ _
  have hcons : consumeId sampleMethodId (sampleCall v) = .ok () (putInt32 v) := consumeId_put _ _
  have hint : int32 (putInt32 v) = .ok v [] := by
    simpa using int32_put v []
  have hne : Pong.encode 0 v.toInt64 ≠ [] := List.ne_nil_of_length_pos (by simp)
  unfold dispatchIn dispatchOne
  rw [hunwrap]
  simp only [hpeek]
  unfold dispatchCall callHandler
  rw [if_neg (by decide), if_neg (by decide), if_neg (by decide), hcons]
  simp only [SessionConfig.find, sampleConfig, Option.bind_some, if_true, sampleHandler]
  rw [hint]
  show Dispatched.mk (wrapResult false msgId sampleMethodId (Pong.encode 0 v.toInt64)) _ _ = _
  unfold wrapResult
  rw [if_neg hne]
  rfl

end

end ShuzaGram.Mtproto

import ShuzaGram.Properties.SessionReplay

/-!
# Lost answers in a container

`HandleEncrypted` collects the replies to a container in a local vector. When a later inner message
makes `DispatchOne` throw, the vector is dropped: the handlers in front of it have run, but their
results never reach the client.

`handleEncrypted_delivers_iff` says exactly when a result is delivered: when every later inner message
is harmless, which is a condition on its bytes and on what its handler does.
-/

namespace ShuzaGram.Mtproto

open Infra Crypto Messages

variable {W : Type} {cfg : SessionConfig W}

/-! ## Harmless messages -/

/-- A result that the debug log can read, where there is one. -/
def Loggable (cfg : SessionConfig W) (result : Bytes) : Prop :=
  result = [] ∨ cfg.debugTransport = false ∨ ∃ b, debugPeek result = .ok () b

/-- A message that cannot make the call throw: a ping is complete, and a handler that is reached
returns something loggable. Wrappers that cannot be read are answered, and do not count. -/
structure Harmless (cfg : SessionConfig W) (sessionId : Int64) (w : W) (body : Bytes) : Prop where
  ping : ∀ args, unwrappedCall body = some (pingTypeId, args) → 8 ≤ args.length
  pingDelay : ∀ args, unwrappedCall body = some (pingDelayDisconnectTypeId, args) → 12 ≤ args.length
  handler : ∀ handler id args, reached cfg body = some (handler, id, args) →
    ∃ result, (handler id args (cfg.context sessionId) w).1 = .ok result ∧ Loggable cfg result

/-- The world that a message leaves: only a handler changes it. -/
def worldAfter (cfg : SessionConfig W) (sessionId : Int64) (w : W) (body : Bytes) : W :=
  match reached cfg body with
  | none => w
  | some (handler, id, args) => (handler id args (cfg.context sessionId) w).2

/-- The world that a list of messages leaves. -/
def worldAfterAll (cfg : SessionConfig W) (sessionId : Int64) (w : W) (ms : List InnerMessage) : W :=
  ms.foldl (fun w m => worldAfter cfg sessionId w m.body) w

/-- Every message is harmless in the world that those before it leave. -/
def AllHarmless (cfg : SessionConfig W) (sessionId : Int64) : W → List InnerMessage → Prop
  | _, [] => True
  | w, m :: ms =>
    Harmless cfg sessionId w m.body ∧ AllHarmless cfg sessionId (worldAfter cfg sessionId w m.body) ms

theorem allHarmless_append {sessionId : Int64} : ∀ {w : W} {ms ms' : List InnerMessage},
    AllHarmless cfg sessionId w (ms ++ ms') ↔
      AllHarmless cfg sessionId w ms ∧
        AllHarmless cfg sessionId (worldAfterAll cfg sessionId w ms) ms'
  | _, [], _ => by simp [AllHarmless, worldAfterAll]
  | w, m :: ms, ms' => by
    rw [List.cons_append, AllHarmless, AllHarmless, allHarmless_append, and_assoc]
    rfl

/-! ## Which messages make a dispatch throw -/

theorem ping_ok_iff {b : Bytes} : (∃ v b', Ping.decodeBare b = .ok v b') ↔ 8 ≤ b.length := by
  constructor
  · rintro ⟨v, b', h⟩
    have := takes_long b v b' h
    omega
  · intro h
    obtain ⟨v, hv⟩ := long_of_le h
    exact ⟨v, _, hv⟩

theorem pingDelayDisconnect_ok_iff {b : Bytes} :
    (∃ v b', PingDelayDisconnect.decodeBare b = .ok v b') ↔ 12 ≤ b.length := by
  constructor
  · rintro ⟨v, b', h⟩
    have := (takes_long.bind fun _ => takes_int32.bind fun _ => takes_pure _) b v b' h
    omega
  · intro h
    obtain ⟨v, hv⟩ := long_of_le (show 8 ≤ b.length by omega)
    obtain ⟨d, hd⟩ := int32_of_le (show 4 ≤ (b.drop 8).length by rw [List.length_drop]; omega)
    refine ⟨v, (b.drop 8).drop 4, ?_⟩
    rw [PingDelayDisconnect.decodeBare, Get.bind_of_ok hv, Get.bind_of_ok hd]
    rfl

theorem answerPing_ok_iff {msgId : Int64} {id : UInt32} {decode : Get Int64} {b : Bytes}
    (h : peekId b = .ok id b) :
    (∃ response, answerPing msgId id decode b = .ok response) ↔
      ∃ v b', decode (b.drop 4) = .ok v b' := by
  unfold answerPing
  rw [Get.bind_of_ok (consumeId_of_peekId h)]
  cases decode (b.drop 4) with
  | ok v b' => exact ⟨fun _ => ⟨v, b', rfl⟩, fun _ => ⟨_, rfl⟩⟩
  | error e b' => exact ⟨fun ⟨_, hc⟩ => (by cases hc), fun ⟨_, _, hc⟩ => (by cases hc)⟩

theorem wrapResult_ok_iff {msgId : Int64} {id : UInt32} {result : Bytes} :
    (∃ response, wrapResult cfg.debugTransport msgId id result = .ok response) ↔
      Loggable cfg result := by
  unfold wrapResult Loggable
  by_cases hnil : result = []
  · simp [hnil]
  · cases cfg.debugTransport with
    | false => simp [hnil]
    | true =>
      cases debugPeek result with
      | ok u b => simp [hnil]
      | error e b => simp [hnil]

/-- A message that reaches a handler: the dispatch throws unless the handler returns something
loggable. -/
theorem dispatchOne_reached_ok_iff {sessionId msgId : Int64} {body args : Bytes} {id : UInt32}
    {handler : RpcHandler W} (h : reached cfg body = some (handler, id, args)) (w : W) :
    (∃ response, (dispatchOne cfg sessionId msgId body w).response = .ok response) ↔
      ∃ result, (handler id args (cfg.context sessionId) w).1 = .ok result ∧ Loggable cfg result := by
  rw [dispatchOne_reached h w]
  cases (handler id args (cfg.context sessionId) w).1 with
  | error e => exact ⟨fun ⟨_, hc⟩ => (by cases hc), fun ⟨_, hc, _⟩ => (by cases hc)⟩
  | ok result =>
    constructor
    · rintro ⟨response, hr⟩
      exact ⟨result, rfl, wrapResult_ok_iff.mp ⟨response, hr⟩⟩
    · rintro ⟨_, heq, hlog⟩
      cases heq
      exact wrapResult_ok_iff.mpr hlog

/-- A message that reaches no handler: the dispatch throws on an incomplete ping only. -/
theorem dispatchOne_not_reached_ok_iff {sessionId msgId : Int64} {body : Bytes}
    (h : reached cfg body = none) (w : W) :
    (∃ response, (dispatchOne cfg sessionId msgId body w).response = .ok response) ↔
      (∀ args, unwrappedCall body = some (pingTypeId, args) → 8 ≤ args.length) ∧
        ∀ args, unwrappedCall body = some (pingDelayDisconnectTypeId, args) → 12 ≤ args.length := by
  unfold dispatchOne
  cases hu : unwrapInvokeWrappers body with
  | error e b =>
    have hcall : unwrappedCall body = none := by unfold unwrappedCall; rw [hu]
    simp [hcall]
  | ok _ b =>
    obtain ⟨id, hid, hcall⟩ := unwrappedCall_of_ok hu
    simp only [reached, hcall] at h
    simp only [hid, dispatchCall, hcall, Option.some.injEq, Prod.mk.injEq]
    split
    · next hping =>
      have hne : id ≠ pingDelayDisconnectTypeId := by rw [hping]; decide
      show (∃ response, answerPing msgId id Ping.decodeBare b = .ok response) ↔ _
      rw [answerPing_ok_iff hid, ping_ok_iff]
      exact ⟨fun hlen => ⟨fun args hargs => hargs.2 ▸ hlen, fun args hargs => absurd hargs.1 hne⟩,
        fun hall => hall.1 _ ⟨hping, rfl⟩⟩
    · next hping =>
      split
      · next hdelay =>
        show (∃ response, answerPing msgId id PingDelayDisconnect.decodeBare b = .ok response) ↔ _
        rw [answerPing_ok_iff hid, pingDelayDisconnect_ok_iff]
        exact ⟨fun hlen => ⟨fun args hargs => absurd hargs.1 hping, fun args hargs => hargs.2 ▸ hlen⟩,
          fun hall => hall.2 _ ⟨hdelay, rfl⟩⟩
      · next hdelay =>
        -- nothing else can throw: an acknowledgement is dropped, an unknown method is answered
        refine ⟨fun _ => ⟨fun args hargs => absurd hargs.1 hping,
          fun args hargs => absurd hargs.1 hdelay⟩, fun _ => ?_⟩
        split
        · exact ⟨_, rfl⟩
        · next hack =>
          rw [if_neg (by simp [hping, hdelay, hack]), Option.map_eq_none_iff] at h
          rw [h]
          exact wrapResult_ok_iff.mpr (show Loggable cfg [] from .inl rfl)

/-- **A dispatch throws exactly on a message that is not harmless.** -/
theorem dispatchOne_ok_iff (cfg : SessionConfig W) (sessionId msgId : Int64) (body : Bytes) (w : W) :
    (∃ response, (dispatchOne cfg sessionId msgId body w).response = .ok response) ↔
      Harmless cfg sessionId w body := by
  cases hr : reached cfg body with
  | none =>
    rw [dispatchOne_not_reached_ok_iff hr w]
    refine ⟨fun ⟨h1, h2⟩ => ⟨h1, h2, fun handler id args h => ?_⟩, fun h => ⟨h.ping, h.pingDelay⟩⟩
    rw [hr] at h
    cases h
  | some x =>
    obtain ⟨handler, id, args⟩ := x
    rw [dispatchOne_reached_ok_iff hr w]
    constructor
    · intro hres
      have hcore : ∀ args', unwrappedCall body ≠ some (pingTypeId, args') ∧
          unwrappedCall body ≠ some (pingDelayDisconnectTypeId, args') := by
        intro args'
        constructor
        · intro hc
          simp [reached, hc] at hr
        · intro hc
          simp [reached, hc] at hr
      refine ⟨fun args' h => absurd h (hcore args').1, fun args' h => absurd h (hcore args').2, ?_⟩
      intro handler' id' args' h
      rw [hr] at h
      cases h
      exact hres
    · intro h
      exact h.handler handler id args hr

theorem dispatchOne_world (cfg : SessionConfig W) (sessionId msgId : Int64) (body : Bytes) (w : W) :
    (dispatchOne cfg sessionId msgId body w).world = worldAfter cfg sessionId w body := by
  unfold worldAfter
  cases hr : reached cfg body with
  | none => exact (dispatchOne_not_reached hr w).2
  | some x => rw [dispatchOne_reached hr w]

/-! ## The loop -/

/-- A message that was answered puts no condition on the messages behind it but the world it leaves. -/
theorem prepend_ok_iff {cfg : SessionConfig W} {m : InnerMessage} {ms : List InnerMessage} {s : SessionState W}
    {response : Bytes} (hm : (dispatchIn cfg s m).response = .ok response) {n : Nat} {c : Call W}
    (ih : (∃ replies, c.result = .ok replies) ↔
      AllHarmless cfg (s.after (dispatchIn cfg s m) n).sessionId (s.after (dispatchIn cfg s m) n).world ms)
    {invoked : List (Site × Invocation)} {reply : List (Bytes × EncryptedMessage)} :
    (∃ replies, (c.prepend invoked reply).result = .ok replies) ↔ AllHarmless cfg s.sessionId s.world (m :: ms) := by
  have hharmless := (dispatchOne_ok_iff cfg s.sessionId m.msgId m.body s.world).mp ⟨_, hm⟩
  rw [after_sessionId, after_world, dispatchIn, dispatchOne_world] at ih
  rw [AllHarmless, ← ih]
  simp only [prepend_result_eq_ok]
  exact ⟨fun ⟨_, rest, hrest, _⟩ => ⟨hharmless, rest, hrest⟩, fun ⟨_, rest, hrest⟩ => ⟨_, rest, hrest, rfl⟩⟩

theorem dispatchAll_ok_iff (cfg : SessionConfig W) (draws : Nat → Draw) (outer : Int64) (i : Nat)
    (ms : List InnerMessage) (s : SessionState W) :
    (∃ replies, (dispatchAll cfg draws outer i ms s).result = .ok replies) ↔
      AllHarmless cfg s.sessionId s.world ms := by
  refine dispatchAll_induct (motive := fun _ ms s c => (∃ replies, c.result = .ok replies) ↔
    AllHarmless cfg s.sessionId s.world ms) ?_ ?_ ?_ ?_ ms i s
  · intro i s
    exact ⟨fun _ => trivial, fun _ => ⟨[], rfl⟩⟩
  · intro i m ms s e he
    refine ⟨fun ⟨_, hc⟩ => (by cases hc), fun hall => ?_⟩
    obtain ⟨response, hr⟩ := (dispatchOne_ok_iff cfg s.sessionId m.msgId m.body s.world).mpr hall.1
    rw [dispatchIn, hr] at he
    cases he
  · intro i m ms s c hm ih
    exact prepend_ok_iff hm ih
  · intro i m ms s c response hm _ ih
    exact prepend_ok_iff hm ih

/-- The handler run at a site tells about the messages in front: they were harmless, and the run saw
the world they left. -/
def RunAt (cfg : SessionConfig W) (i : Nat) (ms : List InnerMessage) (s : SessionState W)
    (x : Site × Invocation) : Prop :=
  ∀ before m after, ms = before ++ m :: after → x.1.position = i + before.length →
    AllHarmless cfg s.sessionId s.world before ∧
      ∃ handler id args, reached cfg m.body = some (handler, id, args) ∧
        x.2.outcome = (handler id args (cfg.context s.sessionId)
          (worldAfterAll cfg s.sessionId s.world before)).1

theorem runAt_head {outer : Int64} {i : Nat} {m : InnerMessage} {ms : List InnerMessage}
    {s : SessionState W} {x : Site × Invocation} (h : x ∈ invokedAt outer i (dispatchIn cfg s m)) :
    i ≤ x.1.position ∧ RunAt cfg i (m :: ms) s x := by
  obtain ⟨hsite, -⟩ := mem_invokedAt h
  have hposition : x.1.position = i := by rw [hsite]
  refine ⟨Nat.le_of_eq hposition.symm, ?_⟩
  intro before m' after heq hpos
  have hnil : before = [] := List.eq_nil_of_length_eq_zero (by omega)
  subst hnil
  cases heq
  obtain ⟨inv, hinv, rfl⟩ := List.mem_map.mp h
  obtain ⟨handler, id, args, hr, -, hout⟩ := dispatchOne_invoked (Option.mem_toList.mp hinv)
  exact ⟨trivial, handler, id, args, hr, hout⟩

theorem runAt_tail {i n : Nat} {m : InnerMessage} {ms : List InnerMessage} {s : SessionState W}
    {response : Bytes} {x : Site × Invocation} (hm : (dispatchIn cfg s m).response = .ok response)
    (hle : i + 1 ≤ x.1.position) (h : RunAt cfg (i + 1) ms (s.after (dispatchIn cfg s m) n) x) :
    RunAt cfg i (m :: ms) s x := by
  intro before m' after heq hpos
  cases before with
  | nil =>
    rw [List.length_nil] at hpos
    omega
  | cons b before =>
    cases heq
    rw [List.length_cons] at hpos
    have hharmless := (dispatchOne_ok_iff cfg s.sessionId m.msgId m.body s.world).mp ⟨_, hm⟩
    obtain ⟨hall, hrun⟩ := h before m' after rfl (by omega)
    rw [after_sessionId, after_world, dispatchIn, dispatchOne_world] at hall hrun
    exact ⟨⟨hharmless, hall⟩, hrun⟩

theorem dispatchAll_runAt (draws : Nat → Draw) (outer : Int64) (i : Nat) (ms : List InnerMessage)
    (s : SessionState W) :
    ∀ x ∈ (dispatchAll cfg draws outer i ms s).invoked, i ≤ x.1.position ∧ RunAt cfg i ms s x := by
  refine dispatchAll_induct (motive := fun i ms s c => ∀ x ∈ c.invoked,
    i ≤ x.1.position ∧ RunAt cfg i ms s x) ?_ ?_ ?_ ?_ ms i s
  · intro i s x hx
    cases hx
  · intro i m ms s e _ x hx
    exact runAt_head hx
  · intro i m ms s c hm ih x hx
    rcases List.mem_append.mp hx with hx | hx
    · exact runAt_head hx
    · obtain ⟨hle, hrun⟩ := ih x hx
      exact ⟨by omega, runAt_tail hm hle hrun⟩
  · intro i m ms s c response hm _ ih x hx
    rcases List.mem_append.mp hx with hx | hx
    · exact runAt_head hx
    · obtain ⟨hle, hrun⟩ := ih x hx
      exact ⟨by omega, runAt_tail hm hle hrun⟩

/-- A handler's result is the body of a reply, where the message was dispatched without throwing. -/
theorem dispatchOne_result {sessionId msgId : Int64} {body response result : Bytes} {w : W}
    {inv : Invocation} (hinv : (dispatchOne cfg sessionId msgId body w).invoked = some inv)
    (hres : (dispatchOne cfg sessionId msgId body w).response = .ok response)
    (hout : inv.outcome = .ok result) (hne : result ≠ []) :
    response = RpcResult.encode inv.msgId result := by
  obtain ⟨handler, id, args, hr, hid, hrun⟩ := dispatchOne_invoked hinv
  rw [dispatchOne_reached hr w] at hres
  rw [hout] at hrun
  simp only [← hrun] at hres
  have hwrap : wrapResult cfg.debugTransport msgId id result = .ok response := hres
  rw [wrapResult_eq_ok hwrap, if_neg hne, hid]

theorem dispatchAll_results (draws : Nat → Draw) (outer : Int64) (i : Nat) (ms : List InnerMessage)
    (s : SessionState W) {replies : List EncryptedMessage}
    (h : (dispatchAll cfg draws outer i ms s).result = .ok replies) :
    ∀ x ∈ (dispatchAll cfg draws outer i ms s).invoked, ∀ result, x.2.outcome = .ok result →
      result ≠ [] → RpcResult.encode x.2.msgId result ∈ (dispatchAll cfg draws outer i ms s).bodies := by
  revert replies
  refine dispatchAll_induct (motive := fun _ _ _ c => ∀ {replies}, c.result = .ok replies →
    ∀ x ∈ c.invoked, ∀ result, x.2.outcome = .ok result → result ≠ [] →
      RpcResult.encode x.2.msgId result ∈ c.bodies) ?_ ?_ ?_ ?_ ms i s
  · intro i s replies _ x hx
    cases hx
  · intro i m ms s e _ replies h
    cases h
  -- A silent message has no result: its reply would have a length.
  · intro i m ms s c hm ih replies h x hx result hout hne
    obtain ⟨rest, hrest, -⟩ := prepend_result_eq_ok.mp h
    rcases List.mem_append.mp hx with hx | hx
    · obtain ⟨inv, hinv, rfl⟩ := List.mem_map.mp hx
      have hempty := dispatchOne_result (Option.mem_toList.mp hinv) hm hout hne
      have hlength := congrArg List.length hempty
      rw [length_rpcResult_encode, List.length_nil] at hlength
      omega
    · exact ih hrest x hx result hout hne
  · intro i m ms s c response hm _ ih replies h x hx result hout hne
    obtain ⟨rest, hrest, -⟩ := prepend_result_eq_ok.mp h
    rcases List.mem_append.mp hx with hx | hx
    · obtain ⟨inv, hinv, rfl⟩ := List.mem_map.mp hx
      rw [← dispatchOne_result (Option.mem_toList.mp hinv) hm hout hne]
      exact List.mem_cons_self
    · exact List.mem_cons_of_mem _ (ih hrest x hx result hout hne)

theorem mem_sealReplies (draws : Nat → Draw) (sessionId : Int64) {body : Bytes} :
    ∀ (n : Nat) (bodies : List Bytes), body ∈ bodies →
      ∃ reply ∈ sealReplies cfg draws sessionId n bodies, ∃ data rand,
        reply = sealed cfg.P cfg.authKey data cfg.mySide rand ∧ data.messageData = body
  | _, [], h => by cases h
  | n, b :: bodies, h => by
    rcases List.mem_cons.mp h with rfl | h
    · exact ⟨_, List.mem_cons_self, _, _, rfl, rfl⟩
    · obtain ⟨reply, hreply, hdata⟩ := mem_sealReplies draws sessionId (n + 1) bodies h
      exact ⟨reply, List.mem_cons_of_mem _ hreply, hdata⟩

/-! ## When a result is delivered -/

/-- The client gets a result: the call returns, and one of its replies carries the result. -/
def Delivers (cfg : SessionConfig W) (call : Call W) (msgId : Int64) (result : Bytes) : Prop :=
  ∃ replies, call.result = .ok replies ∧ ∃ reply ∈ replies, ∃ data rand,
    reply = sealed cfg.P cfg.authKey data cfg.mySide rand ∧
      data.messageData = putId 0xf35c6d01 ++ putLong msgId ++ result

/-- **A result is delivered exactly when no later message is harmful.** The handler of the inner
message `m` ran and returned `result`; the client gets it if and only if the debug log can read it and
every message behind `m` is harmless in the world in which it is dispatched. -/
theorem handleEncrypted_delivers_iff (cfg : SessionConfig W) (draws : Nat → Draw) (s : SessionState W)
    (incoming : EncryptedMessage) (data : EncryptedMessageData) (before after : List InnerMessage)
    (m : InnerMessage) (inv : Invocation) (result : Bytes)
    (hdec : decryptMessage cfg.P cfg.authKey incoming cfg.mySide = .ok data)
    (hlt : s.lastSeenMsgId < data.messageId)
    (hinner : innerMessages data = .ok (before ++ m :: after))
    (hran : ({ outer := data.messageId, position := before.length }, inv) ∈
      (handleEncrypted cfg draws s incoming).invoked)
    (hresult : inv.outcome = .ok result) (hne : result ≠ []) :
    Delivers cfg (handleEncrypted cfg draws s incoming) inv.msgId result ↔
      Loggable cfg result ∧
        AllHarmless cfg data.sessionId
          (worldAfterAll cfg data.sessionId s.world (before ++ [m])) after := by
  rw [handleEncrypted_accepted hdec hlt hinner] at hran ⊢
  obtain ⟨-, hrun⟩ := dispatchAll_runAt draws data.messageId 0 _ (s.accept data) _ hran
  obtain ⟨hbefore, handler, id, args, hreached, hout⟩ := hrun before m after rfl (by simp)
  have hok := dispatchAll_ok_iff cfg draws data.messageId 0 (before ++ m :: after) (s.accept data)
  -- the call returns exactly when its own message and all later ones are harmless
  have hcond : (∃ replies, (dispatchAll cfg draws data.messageId 0 (before ++ m :: after)
      (s.accept data)).result = .ok replies) ↔
      Loggable cfg result ∧ AllHarmless cfg data.sessionId
        (worldAfterAll cfg data.sessionId s.world (before ++ [m])) after := by
    have hm : Harmless cfg data.sessionId (worldAfterAll cfg data.sessionId s.world before) m.body ↔
        Loggable cfg result := by
      rw [← dispatchOne_ok_iff cfg data.sessionId m.msgId, dispatchOne_reached_ok_iff hreached]
      rw [hresult] at hout
      constructor
      · rintro ⟨result', hres', hlog⟩
        have heq : Except.ok result = Except.ok result' := hout.trans hres'
        cases heq
        exact hlog
      · intro hlog
        exact ⟨result, hout.symm, hlog⟩
    have hworld : worldAfterAll cfg data.sessionId s.world (before ++ [m]) =
        worldAfter cfg data.sessionId (worldAfterAll cfg data.sessionId s.world before) m.body := by
      simp [worldAfterAll]
    rw [hok, allHarmless_append, AllHarmless, hworld, ← hm]
    exact ⟨fun h => h.2, fun h => ⟨hbefore, h⟩⟩
  rw [← hcond]
  constructor
  · rintro ⟨replies, hreplies, -⟩
    exact ⟨replies, hreplies⟩
  · rintro ⟨replies, hreplies⟩
    have hbody := dispatchAll_results draws data.messageId 0 _ (s.accept data) hreplies _ hran result
      hresult hne
    refine ⟨replies, hreplies, ?_⟩
    rw [dispatchAll_result draws data.messageId 0 _ (s.accept data) hreplies]
    exact mem_sealReplies draws _ _ _ hbody

/-- A container with a call and a ping behind it; the ping is complete. -/
def sampleNeighbours : Bytes :=
  MsgContainer.encode
    [{ msgId := 5, seqno := 1, body := sampleCall 3 },
      { msgId := 6, seqno := 2, body := putId pingTypeId ++ putLong 9 }]

theorem sampleNeighbours_delivered :
    Delivers (sampleConfig samplePrimitives)
        (handleEncrypted (sampleConfig samplePrimitives) sampleDraws (SessionState.init 0 0)
          (sampleMessage samplePrimitives 100 sampleNeighbours)) 5 (Pong.encode 0 3) ↔
      Loggable (sampleConfig samplePrimitives) (Pong.encode 0 3) ∧
        AllHarmless (sampleConfig samplePrimitives) 111 1
          [{ msgId := 6, body := putId pingTypeId ++ putLong 9 }] :=
  handleEncrypted_delivers_iff (sampleConfig samplePrimitives) sampleDraws (SessionState.init 0 0)
    (sampleMessage samplePrimitives 100 sampleNeighbours) (sampleData 100 sampleNeighbours) []
    [{ msgId := 6, body := putId pingTypeId ++ putLong 9 }] { msgId := 5, body := sampleCall 3 }
    { msgId := 5, constructorId := sampleMethodId, body := putInt32 3
      ctx := { authKeyId := Arr.zero 8, sessionId := 111 }, outcome := .ok (Pong.encode 0 3) }
    (Pong.encode 0 3) (by decide +kernel) (by decide +kernel) (by decide +kernel) (by decide +kernel)
    rfl (by decide)

/-- The same container with a ping that lacks its id. -/
def sampleTruncated : Bytes :=
  MsgContainer.encode
    [{ msgId := 5, seqno := 1, body := sampleCall 3 },
      { msgId := 6, seqno := 2, body := putId pingTypeId }]

/-- The truncated ping swallows the answer to the call in front of it, under all primitives. -/
theorem sampleTruncated_swallows :
    ¬ ∃ P : Primitives, ∀ x ∈ (handleEncrypted (sampleConfig P) sampleDraws (SessionState.init 0 0)
        (sampleMessage P 100 sampleTruncated)).invoked,
      ∀ result, x.2.outcome = .ok result → result ≠ [] →
        Delivers (sampleConfig P) (handleEncrypted (sampleConfig P) sampleDraws (SessionState.init 0 0)
          (sampleMessage P 100 sampleTruncated)) x.2.msgId result := by
  rintro ⟨P, hclaim⟩
  rw [handleEncrypted_sampleMessage P (SessionState.init 0 0) 100 sampleTruncated
    [{ msgId := 5, body := sampleCall 3 }, { msgId := 6, body := putId pingTypeId }]
    (by decide) (by decide) (by decide) rfl] at hclaim
  have hresp : ∀ s : SessionState Nat,
      (dispatchIn (sampleConfig P) s { msgId := 5, body := sampleCall 3 }).response =
        .ok (RpcResult.encode 5 (Pong.encode 0 3)) := fun s => by rw [dispatchIn_sampleCall]; rfl
  -- the handler of the first message has run and returned
  obtain ⟨replies, hok, -⟩ := hclaim
    ({ outer := 100, position := 0 },
      { msgId := 5, constructorId := sampleMethodId, body := putInt32 3
        ctx := { authKeyId := authKeyId P (Arr.zero 256), sessionId := 111 }
        outcome := .ok (Pong.encode 0 3) })
    (by
      rw [dispatchAll_cons_reply (hresp _) (by decide)]
      simp only [Call.prepend, dispatchIn_sampleCall, invokedAt, Option.toList_some, List.map_cons,
        List.map_nil, List.singleton_append]
      exact List.mem_cons_self)
    (Pong.encode 0 3) rfl (by decide)
  -- but the call throws at the second one
  obtain ⟨-, hping, -⟩ := (dispatchAll_ok_iff _ _ _ _ _ _).mp ⟨replies, hok⟩
  have hshort : unwrappedCall (putId pingTypeId) = some (pingTypeId, []) := rfl
  exact absurd (hping.ping [] hshort) (by decide)

end ShuzaGram.Mtproto

import ShuzaGram.Properties.AuthKeyLifetime
import ShuzaGram.Properties.FrameIdentity

/-!
# Temporary keys that expire in use

A temporary key is checked once: its handshake gives it an expiry in the future, and the resolver refuses
it after that. The session that then serves the connection never looks at the expiry again. So no handler
runs under an expired key exactly as long as no temporary key expires between the moment the connection
accepted it and a call that the connection serves under it.

* `Accepted` — a key of the connection, with its expiry and the clock at which it was accepted
* `Accepted.live` — a key is not accepted after its expiry
* `calls` — the handlers that a frame invoked, with the clock at which each of them ran
-/

namespace ShuzaGram.Server

open Infra Store Mtproto Mtproto.Messages Mtproto.Crypto

/-! ## When a handler runs -/

section Replay

variable {W : Type}

/-- What the handler of an invocation makes of the world. -/
def replay (registry : Option (RpcHandlerRegistry W)) (w : W) (inv : Invocation) : W :=
  match registry.bind fun registry => registry inv.constructorId with
  | some handler => (handler inv.constructorId inv.body inv.ctx w).2
  | none => w

/-- The invocations of a frame that found the world `w`, each with the world that it found itself. -/
def worldsOf (registry : Option (RpcHandlerRegistry W)) : W → List (Site × Invocation) → List (Invocation × W)
  | _, [] => []
  | w, x :: rest => (x.2, w) :: worldsOf registry (replay registry w x.2) rest

theorem find_of_reached {cfg : SessionConfig W} {body args : Bytes} {id : UInt32} {handler : RpcHandler W}
    (h : reached cfg body = some (handler, id, args)) : cfg.find id = some handler := by
  unfold reached at h
  split at h
  · cases h
  · split at h
    · cases h
    · obtain ⟨handler', hfind, heq⟩ := Option.map_eq_some_iff.mp h
      cases heq
      exact hfind

/-- A message changes the world by its handler only. -/
theorem world_dispatchIn (cfg : SessionConfig W) (outer : Int64) (i : Nat) (s : SessionState W) (m : InnerMessage) :
    (dispatchIn cfg s m).world =
      ((invokedAt outer i (dispatchIn cfg s m)).map Prod.snd).foldl (replay cfg.registry) s.world := by
  unfold invokedAt dispatchIn
  cases hr : reached cfg m.body with
  | none =>
    obtain ⟨hinvoked, hworld⟩ : _ ∧ (dispatchOne cfg s.sessionId m.msgId m.body s.world).world = s.world :=
      dispatchOne_not_reached hr s.world
    rw [hinvoked, hworld]
    rfl
  | some x =>
    obtain ⟨handler, id, args⟩ := x
    have hfind : (cfg.registry.bind fun registry => registry id) = some handler := find_of_reached hr
    rw [dispatchOne_reached hr]
    simp only [Option.toList_some, List.map_cons, List.map_nil, List.foldl_cons, List.foldl_nil, replay, hfind]

/-- **The world after the messages of a frame is the one that its handlers make, one after another.** -/
theorem world_dispatchAll (cfg : SessionConfig W) (draws : Nat → Draw) (outer : Int64) (ms : List InnerMessage)
    (i : Nat) (s : SessionState W) :
    (dispatchAll cfg draws outer i ms s).state.world =
      ((dispatchAll cfg draws outer i ms s).invoked.map Prod.snd).foldl (replay cfg.registry) s.world := by
  refine dispatchAll_induct (motive := fun _ _ s c =>
    c.state.world = (c.invoked.map Prod.snd).foldl (replay cfg.registry) s.world) ?_ ?_ ?_ ?_ ms i s
  · intro i s
    rfl
  · intro i m ms s e _
    exact world_dispatchIn cfg outer i s m
  · intro i m ms s c _ ih
    rw [Call.prepend, List.map_append, List.foldl_append, ← world_dispatchIn]
    exact ih
  · intro i m ms s c response _ _ ih
    rw [Call.prepend, List.map_append, List.foldl_append, ← world_dispatchIn]
    exact ih

theorem world_handleEncrypted (cfg : SessionConfig W) (draws : Nat → Draw) (s : SessionState W)
    (incoming : EncryptedMessage) :
    (handleEncrypted cfg draws s incoming).state.world =
      ((handleEncrypted cfg draws s incoming).invoked.map Prod.snd).foldl (replay cfg.registry) s.world := by
  have hhandled := handleEncrypted_handled cfg draws s incoming
  generalize handleEncrypted cfg draws s incoming = call at hhandled ⊢
  cases hhandled with
  | undecryptable _ => rfl
  | replayed _ _ => rfl
  | malformed _ _ _ => rfl
  | @accepted data inner _ _ _ => exact world_dispatchAll cfg draws data.messageId inner 0 (s.accept data)

/-- The invocations of the frame are those of a call that found the world of the frame, and that left the one which
their handlers make of it, one after another. -/
def Replayed (registry : Option (RpcHandlerRegistry W)) (h : HandledFrame W) : Prop :=
  ∃ (cfg : SessionConfig W) (draws : Nat → Draw) (s : SessionState W) (incoming : EncryptedMessage),
    s.world = h.world ∧ (handleEncrypted cfg draws s incoming).invoked = h.invoked ∧
      (handleEncrypted cfg draws s incoming).state.world = (h.invoked.map Prod.snd).foldl (replay registry) h.world

theorem replayed_handleEncrypted (cfg : SessionConfig W) (draws : Nat → Draw) (s : SessionState W)
    (incoming : EncryptedMessage) (frame : Bytes) :
    Replayed cfg.registry
      { frame, authKey := cfg.authKey, world := s.world, invoked := (handleEncrypted cfg draws s incoming).invoked } :=
  ⟨cfg, draws, s, incoming, rfl, rfl, world_handleEncrypted cfg draws s incoming⟩

end Replay

/-! ## Keys that a connection accepts -/

/-- The handlers that a frame invoked, with the clock at which each of them ran. -/
def calls (srv : TcpHandshakeServer Stores) (h : HandledFrame Stores) : List (Invocation × Int) :=
  (worldsOf srv.rpcRegistry h.world h.invoked).map fun x => (x.1, x.2.moment.now)

/-- A key that the connection negotiated or resumed, with the expiry that its handshake gave it and the
clock at which the connection accepted it: that of the handshake, or that of the lookup. -/
inductive Accepted (env : Surroundings Stores) (c : Connection Stores) (authKey : AuthKeyBytes) : Int → Int → Prop where
  | negotiated {i : Nat} {r : ServerExchangeResult} (hr : c.completed[i]? = some r) (hkey : r.authKey = authKey) :
      Accepted env c authKey r.expiresAt.toInt (seconds (env.exchangeDraws i).handshakeTime).toInt
  | resumed {l : Lookup Stores} {k : ResolvedAuthKey} {row : AuthKeyRow} (hl : l ∈ c.lookups) (hk : l.resolved = some k)
      (hkey : k.authKey = authKey) (hrow : l.world.authKeys.find l.authKeyId = some row) :
      Accepted env c authKey row.expiresAt l.world.moment.now

/-- The results and the lookups of a connection are what the exchange and the resolver gave, and its invocations are
those of its session. -/
structure Accounted (srv : TcpHandshakeServer Stores) (env : Surroundings Stores) (c : Connection Stores) : Prop where
  completed : ∀ i r, c.completed[i]? = some r →
    ∃ inner, AssignedExpiry (env.exchangeDraws i).handshakeTime inner r.expiresAt.toInt
  lookups : ∀ l ∈ c.lookups, l.resolved = resolveAuthKey l.authKeyId l.world
  handled : ∀ h ∈ c.handled, Replayed srv.rpcRegistry h

/-- **A temporary key is accepted before its expiry only.** -/
theorem Accepted.live {srv : TcpHandshakeServer Stores} {env : Surroundings Stores} {c : Connection Stores}
    {authKey : AuthKeyBytes} {expiresAt clock : Int}
    (haccount : Accounted srv env c) (h : Accepted env c authKey expiresAt clock) (hpositive : 0 < expiresAt) :
    clock < expiresAt := by
  cases h with
  | negotiated hr hkey =>
    obtain ⟨inner, hassigned⟩ := haccount.completed _ _ hr
    unfold AssignedExpiry at hassigned
    split at hassigned <;> omega
  | @resumed l k row hl hk hkey hrow =>
    rw [haccount.lookups l hl, resolveAuthKey_eq_some] at hk
    obtain ⟨row', hrow', -, hexpiry, -⟩ := hk
    cases hrow.symm.trans hrow'
    omega

/-! ## A connection keeps its accounts -/

section Connection

variable {srv : TcpHandshakeServer Stores} {env : Surroundings Stores}

theorem accounted_onWire {α : Type} (x : Exchange α) :
    Steps.Ensures (Accounted srv env) (onWire x) (fun _ => Accounted srv env) (fun _ => Accounted srv env) :=
  ensures_onWire fun _ _ h => ⟨h.completed, h.lookups, h.handled⟩

theorem accounted_handleFrame (key : ResolvedAuthKey) (s : SessionState Stores) (frame : Bytes) :
    Steps.Ensures (Accounted srv env) (handleFrame env (sessionConfig srv key) s frame) (fun _ => Accounted srv env)
      (fun _ => Accounted srv env) := by
  refine (accounted_onWire _).bind fun encrypted => ?_
  have hhandle : Steps.Ensures (Accounted srv env) (handleEncryptedFrame env (sessionConfig srv key) s frame encrypted)
      (fun _ => Accounted srv env) (fun _ => Accounted srv env) := by
    refine ⟨fun c call c' hc h => ?_, fun c e c' _ h => ?_⟩
    · cases h
      refine ⟨hc.completed, hc.lookups, fun h hh => ?_⟩
      rcases List.mem_append.mp hh with hh | hh
      · exact hc.handled h hh
      · rw [List.mem_singleton.mp hh]
        exact replayed_handleEncrypted (sessionConfig srv key) _ { s with world := env.elapse c.touched c.world } _ _
    · cases h
  refine hhandle.bind fun call => (accounted_onWire _).bind fun replies => (accounted_onWire _).bind fun _ => ?_
  exact Steps.ensures_pure fun _ hc => hc

theorem accounted_serveSession (key : ResolvedAuthKey) (frame : Bytes) :
    Steps.Ensures (Accounted srv env) (serveSession srv env key frame) (fun _ => Accounted srv env)
      (fun _ => Accounted srv env) := by
  have hround : ∀ s, Steps.Ensures (Accounted srv env) (sessionRound env (sessionConfig srv key) s)
      (fun _ => Accounted srv env) (fun _ => Accounted srv env) := fun s =>
    (accounted_onWire _).bind fun frame => (accounted_handleFrame key s frame).bind fun _ => Steps.ensures_pure fun _ hc => hc
  have hserve : ∀ s, Steps.Ensures (Accounted srv env) (serveFrames env (sessionConfig srv key) s frame)
      (fun _ => Accounted srv env) (fun _ => Accounted srv env) := fun s =>
    (accounted_handleFrame key s frame).bind fun s' => Steps.Ensures.iterate (advances_sessionRound _) hround s'
  exact ⟨fun _ _ _ hc h => (hserve _).ok hc h, fun _ _ _ hc h => (hserve _).error hc h⟩

/-- The resolver of the connection, if it has one, is the one over the stores. -/
theorem accounted_resolveFrame (hresolver : ∀ resolver, srv.authKeyResolver = some resolver → resolver = authKeyResolver)
    (sessionKey : Option ResolvedAuthKey) (id : Arr 8) (frame : Bytes) :
    Steps.Ensures (Accounted srv env) (resolveFrame srv env sessionKey id frame) (fun _ => Accounted srv env)
      (fun _ => Accounted srv env) := by
  unfold resolveFrame
  split
  · exact Steps.ensures_pure fun _ hc => hc
  · split
    · next registry resolver _ hsome =>
      have hlook : Steps.Ensures (Accounted srv env) (lookUp env resolver id) (fun _ => Accounted srv env)
          (fun _ => Accounted srv env) := by
        rw [hresolver resolver hsome]
        refine ⟨fun c r c' hc h => ?_, fun c e c' _ h => ?_⟩
        · cases h
          refine ⟨hc.completed, fun l hl => ?_, hc.handled⟩
          rcases List.mem_append.mp hl with hl | hl
          · exact hc.lookups l hl
          · rw [List.mem_singleton.mp hl]
        · cases h
      refine hlook.bind fun resolved => ?_
      split
      · exact Steps.ensures_pure fun _ hc => hc
      · exact (accounted_onWire _).bind fun _ => Steps.ensures_throw fun _ hc => hc
    · exact Steps.ensures_throw fun _ hc => hc

/-- The accounts hold, and `n` exchanges have been completed. -/
def Exchanging (srv : TcpHandshakeServer Stores) (env : Surroundings Stores) (n : Nat) (c : Connection Stores) : Prop :=
  Accounted srv env c ∧ c.completed.length = n

/-- An exchange that returns has given its key an expiry. -/
theorem accounted_exchange (n : Nat) :
    Steps.Ensures (Exchanging srv env n) (onWire (serverExchange srv.P srv.key (env.exchangeDraws n)))
      (fun result c => Exchanging srv env n c ∧
        ∃ inner, AssignedExpiry (env.exchangeDraws n).handshakeTime inner result.expiresAt.toInt)
      (fun _ => Accounted srv env) := by
  refine ⟨fun c result c' hc h => ?_, fun c e c' hc h => (accounted_onWire _).error hc.1 h⟩
  obtain ⟨wire, hrun, rfl⟩ := onWire_eq_ok.mp h
  obtain ⟨t, share, hcompletes, rfl⟩ := serverExchange_eq_ok.mp hrun
  exact ⟨⟨⟨hc.1.completed, hc.1.lookups, hc.1.handled⟩, hc.2⟩, t.inner, expiresAt_authKeyDataOf hcompletes.computes⟩

/-- The key is reported as completed with the expiry that it was given. -/
theorem accounted_report (n : Nat) (result : ServerExchangeResult) :
    Steps.Ensures
      (fun c => Exchanging srv env n c ∧
        ∃ inner, AssignedExpiry (env.exchangeDraws n).handshakeTime inner result.expiresAt.toInt)
      (report srv env result) (fun _ => Accounted srv env) (fun _ => Accounted srv env) := by
  refine ⟨fun c _ c' hc h => ?_, fun c e c' _ h => ?_⟩
  · cases h
    obtain ⟨⟨haccount, hlength⟩, hassigned⟩ := hc
    refine ⟨fun i r hr => ?_, haccount.lookups, haccount.handled⟩
    rw [List.getElem?_append] at hr
    split at hr
    · exact haccount.completed i r hr
    · next hi =>
      rw [List.getElem?_singleton] at hr
      split at hr
      · next hlast =>
        cases hr
        have hin : i = n := by omega
        rw [hin]
        exact hassigned
      · cases hr
  · cases h

theorem accounted_nextExchange (hresolver : ∀ resolver, srv.authKeyResolver = some resolver → resolver = authKeyResolver)
    (n : Nat) (sessionKey : Option ResolvedAuthKey) :
    Steps.Ensures (Exchanging srv env n) (nextExchange srv env n sessionKey) (fun _ => Accounted srv env)
      (fun _ => Accounted srv env) := by
  refine (accounted_exchange n).attempt.bind fun r => ?_
  cases r with
  | ok result =>
    refine (accounted_report n result).bind fun _ => Steps.Ensures.ite ?_ ?_
    · exact Steps.ensures_pure fun _ hc => hc
    · exact Steps.ensures_pure fun _ hc => hc
  | error e =>
    show Steps.Ensures (Accounted srv env) _ _ _
    split
    · next heq => cases heq
    · exact (accounted_resolveFrame hresolver sessionKey _ _).bind fun _ => Steps.ensures_pure fun _ hc => hc
    · exact Steps.ensures_throw fun _ hc => hc

/-- **Every connection keeps its accounts.** -/
theorem accounted_serveConnection
    (hresolver : ∀ resolver, srv.authKeyResolver = some resolver → resolver = authKeyResolver) :
    Steps.Ensures (Accounted srv env) (serveConnection srv env) (fun _ => Accounted srv env)
      (fun _ => Accounted srv env) := by
  have hround : ∀ sessionKey, Steps.Ensures (Accounted srv env) (exchangeRound srv env sessionKey)
      (fun _ => Accounted srv env) (fun _ => Accounted srv env) := fun sessionKey =>
    ⟨fun _ _ _ hc h => (accounted_nextExchange hresolver _ sessionKey).ok ⟨hc, rfl⟩ h,
      fun _ _ _ hc h => (accounted_nextExchange hresolver _ sessionKey).error ⟨hc, rfl⟩ h⟩
  refine (Steps.Ensures.iterate advances_exchangeRound hround none).bind fun start => ?_
  split
  · exact Steps.ensures_pure fun _ hc => hc
  · exact Steps.Ensures.ite (Steps.ensures_pure fun _ hc => hc) (accounted_serveSession _ _)

/-! ## Nothing is served under an expired key -/

theorem exists_mem_of_mem_calls {h : HandledFrame Stores} {x : Invocation × Int} (hx : x ∈ calls srv h) :
    ∃ y ∈ h.invoked, y.2 = x.1 := by
  have hworlds : ∀ (l : List (Site × Invocation)) (w : Stores), ∀ y ∈ worldsOf srv.rpcRegistry w l,
      ∃ z ∈ l, z.2 = y.1 := by
    intro l
    induction l with
    | nil => exact fun w y hy => absurd hy List.not_mem_nil
    | cons z l ih =>
      intro w y hy
      rcases List.mem_cons.mp hy with rfl | hy
      · exact ⟨z, List.mem_cons_self, rfl⟩
      · obtain ⟨z', hz', heq⟩ := ih _ y hy
        exact ⟨z', List.mem_cons_of_mem _ hz', heq⟩
  obtain ⟨y, hy, rfl⟩ := List.mem_map.mp hx
  exact hworlds _ _ y hy

/-- A connection that serves a call under a key has accepted that key. -/
theorem exists_accepted {c : Connection Stores} (haccount : Accounted srv env c) {authKey : AuthKeyBytes} {id : Bytes}
    (h : c.Vouches authKey id) : ∃ expiresAt clock, Accepted env c authKey expiresAt clock := by
  rcases h with ⟨r, hr, hkey⟩ | ⟨l, hl, -, k, hk, hkey⟩
  · rw [List.getLast?_eq_getElem?] at hr
    exact ⟨_, _, .negotiated hr hkey⟩
  · have hfound := hk
    rw [haccount.lookups l hl, resolveAuthKey_eq_some] at hfound
    obtain ⟨row, hrow, -⟩ := hfound
    exact ⟨_, _, .resumed hl hk hkey hrow⟩

variable (srv env)

/-- No handler ran under a temporary key at or after its expiry. -/
def NothingExpired (c : Connection Stores) : Prop :=
  ∀ h ∈ c.handled, ∀ x ∈ calls srv h, ∀ expiresAt clock, Accepted env c h.authKey expiresAt clock →
    ¬(0 < expiresAt ∧ expiresAt ≤ x.2)

/-- A temporary key expires between the moment the connection accepted it and `now`. -/
def ExpiresInUse (c : Connection Stores) (authKey : AuthKeyBytes) (now : Int) : Prop :=
  ∃ expiresAt clock, Accepted env c authKey expiresAt clock ∧ 0 < expiresAt ∧ clock < expiresAt ∧ expiresAt ≤ now

/-- **Nothing is served under an expired key, exactly as long as no key expires between the moment the
connection accepted it and a call.** On every connection, whatever frames are delivered, whatever the
handlers and the other threads do to the stores, and whatever the clock says. The handlers of a frame run
one after another, each in the world that those before it have made. -/
theorem serveConnection_nothingExpired_iff
    (hresolver : ∀ resolver, srv.authKeyResolver = some resolver → resolver = authKeyResolver) (d : Delivery)
    (s : Stores) :
    let c := Steps.final (serveConnection srv env) (Connection.open d s)
    (∀ h ∈ c.handled, Replayed srv.rpcRegistry h) ∧
      (∀ h ∈ c.handled, ∀ x ∈ calls srv h, ∃ expiresAt clock, Accepted env c h.authKey expiresAt clock) ∧
      (NothingExpired srv env c ↔ ∀ h ∈ c.handled, ∀ x ∈ calls srv h, ¬ ExpiresInUse env c h.authKey x.2) := by
  intro c
  have hopen : Accounted srv env (Connection.open d s) := by
    refine ⟨fun i r h => ?_, fun l hl => absurd hl List.not_mem_nil, fun h hh => absurd hh List.not_mem_nil⟩
    rw [show (Connection.open d s).completed = [] from rfl, List.getElem?_nil] at h
    cases h
  have haccount : Accounted srv env c := (accounted_serveConnection hresolver).final hopen
  have hidentified : AllIdentified srv.P c := (ensures_serveConnection srv env).final ⟨plainWire_open d s, rfl, nofun⟩
  refine ⟨haccount.handled, fun h hh x hx => ?_, ?_⟩
  · obtain ⟨y, hy, -⟩ := exists_mem_of_mem_calls hx
    exact exists_accepted haccount (hidentified h hh y hy).2.2.2
  · constructor
    · rintro hnothing h hh x hx ⟨expiresAt, clock, haccepted, hpositive, -, hpassed⟩
      exact hnothing h hh x hx expiresAt clock haccepted ⟨hpositive, hpassed⟩
    · rintro hlasts h hh x hx expiresAt clock haccepted ⟨hpositive, hpassed⟩
      exact hlasts h hh x hx ⟨expiresAt, clock, haccepted, hpositive, haccepted.live haccount hpositive, hpassed⟩

end Connection

/-! ### A key that expires between two frames -/

/-- A server that answers every call, with the stores behind it. -/
def resumingServer : TcpHandshakeServer Stores where
  P := onesPrimitives
  key := { n := [1], e := [1], d := [1] }
  rpcRegistry := some fun _ => some fun _ _ _ s => (.ok [1, 2, 3, 4], s)
  authKeyResolver := some authKeyResolver
  onSuccess := saveOnSuccess onesPrimitives
  debugTransport := false

/-- A temporary key that expires at 10. -/
def temporaryKeyStores : Stores :=
  { Stores.empty { now := 0, newUserId := 0 } with
    authKeys := Table.empty.upsert (authKeyId onesPrimitives (Arr.zero 256))
      { body := (Arr.zero 256).toList, serverSalt := 0, expiresAt := 10 } }

/-- What the clock says when the connection touches the stores. -/
def clockSurroundings (clock : Nat → Int) : Surroundings Stores :=
  { (quietSurroundings : Surroundings Stores) with
    elapse := fun n s => atMoment { now := clock n, newUserId := 0 } s }

/-- A later call on the same connection. -/
def laterFrame : Bytes :=
  (sealed onesPrimitives (Arr.zero 256)
    { salt := 0, sessionId := 9, messageId := 8, seqNo := 3, messageData := [7, 0, 0, 0] } .client
    { randByte := 0, pad := fun _ => 0 }).encode

/-- The key is looked up at 5, the first frame is handled at 6, the second one when `clock` says. -/
def resumedRun (clock : Int) : Connection Stores :=
  Steps.final (serveConnection resumingServer (clockSurroundings fun n => if n < 2 then 5 + n else clock))
    (Connection.open { frames := [resumedFrame, laterFrame], ending := "closed" } temporaryKeyStores)

/-- **A handler is invoked at 20 for a frame under a key that expired at 10.** -/
theorem resumedRun_servesExpired :
    ¬ NothingExpired resumingServer (clockSurroundings fun n => if n < 2 then 5 + n else 20) (resumedRun 20) := by
  intro hnothing
  have hlookups : ((resumedRun 20).lookups.any fun l =>
      decide (l.resolved.map ResolvedAuthKey.authKey = some (Arr.zero 256) ∧
        (l.world.authKeys.find l.authKeyId).map AuthKeyRow.expiresAt = some 10)) = true := by
    decide +kernel
  have hcalls : ((resumedRun 20).handled.any fun h =>
      decide (h.authKey = Arr.zero 256) && (calls resumingServer h).any fun x => decide (x.2 = 20)) = true := by
    decide +kernel
  obtain ⟨l, hl, hfound⟩ := List.any_eq_true.mp hlookups
  obtain ⟨hresolved, hexpiry⟩ := of_decide_eq_true hfound
  obtain ⟨k, hk, hkey⟩ := Option.map_eq_some_iff.mp hresolved
  obtain ⟨row, hrow, hten⟩ := Option.map_eq_some_iff.mp hexpiry
  obtain ⟨h, hh, hcall⟩ := List.any_eq_true.mp hcalls
  rw [Bool.and_eq_true, decide_eq_true_eq] at hcall
  obtain ⟨x, hx, htwenty⟩ := List.any_eq_true.mp hcall.2
  refine hnothing h hh x hx row.expiresAt l.world.moment.now (.resumed hl hk ?_ hrow) ⟨by omega, ?_⟩
  · rw [hkey, hcall.1]
  · rw [of_decide_eq_true htwenty, hten]
    decide

/-- The second frame comes at 9: nothing is served under an expired key. -/
theorem resumedRun_nothingExpired :
    NothingExpired resumingServer (clockSurroundings fun n => if n < 2 then 5 + n else 9) (resumedRun 9) := by
  have hresolver : ∀ resolver, resumingServer.authKeyResolver = some resolver → resolver = authKeyResolver := by
    intro resolver h
    cases h
    rfl
  have hcompleted : (resumedRun 9).completed.isEmpty = true := by decide +kernel
  have hlookups : ((resumedRun 9).lookups.all fun l =>
      decide ((l.world.authKeys.find l.authKeyId).map AuthKeyRow.expiresAt = some 10)) = true := by
    decide +kernel
  have hcalls : ((resumedRun 9).handled.all fun h => (calls resumingServer h).all fun x => decide (x.2 < 10)) = true := by
    decide +kernel
  refine (serveConnection_nothingExpired_iff resumingServer _ hresolver _ temporaryKeyStores).2.2.mpr ?_
  rintro h hh x hx ⟨expiresAt, clock, haccepted, -, -, hpassed⟩
  have hbefore := of_decide_eq_true (List.all_eq_true.mp (List.all_eq_true.mp hcalls h hh) x hx)
  cases haccepted with
  | negotiated hr hkey =>
    have hnil : (resumedRun 9).completed = [] := List.isEmpty_iff.mp hcompleted
    change (resumedRun 9).completed[_]? = _ at hr
    rw [hnil] at hr
    cases hr
  | @resumed l k row hl hk hkey hrow =>
    have hten := of_decide_eq_true (List.all_eq_true.mp hlookups l hl)
    rw [hrow, Option.map_some, Option.some.injEq] at hten
    omega

end ShuzaGram.Server

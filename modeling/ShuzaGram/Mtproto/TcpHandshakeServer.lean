import ShuzaGram.Mtproto.ServerExchange
import ShuzaGram.Mtproto.Session

/-!
# A connection

`mtproto/tcp_handshake_server.cpp`: what the thread of one connection does with the frames that the
transport codec delivers. It runs key exchanges until a frame is not part of one, finds the key of that
frame, and serves encrypted frames under that key until something throws.

The handlers, the resolver and the success callback read and change a world `W`. A `Connection` also
keeps what can be observed of its thread: the exchanges that were completed, the keys that were looked
up and the frames that a session handled.
-/

namespace ShuzaGram.Mtproto

open Infra Crypto Messages

structure ResolvedAuthKey where
  authKey : AuthKeyBytes
  serverSalt : Int64
deriving DecidableEq

/-- `TcpHandshakeServer::AuthKeyResolver`. -/
abbrev AuthKeyResolver (W : Type) := Arr 8 → W → Option ResolvedAuthKey × W

/-- The members of `TcpHandshakeServer`, the callback of `Run`, and the debug switch of the process. -/
structure TcpHandshakeServer (W : Type) where
  P : Primitives
  key : RsaPrivateKey
  rpcRegistry : Option (RpcHandlerRegistry W)
  authKeyResolver : Option (AuthKeyResolver W)
  onSuccess : ServerExchangeResult → W → W
  debugTransport : Bool

/-- What happens around a connection: what its exchanges and its replies take from the random source and
from the clock, what the rest of the process does to the world before the connection touches it for
the `n`-th time, and what the codec's `Write` of a frame gives behind those that went out. The frames of
an exchange go out. -/
structure Surroundings (W : Type) where
  exchangeDraws : Nat → Draws
  replyDraws : Nat → Draw
  elapse : Nat → W → W
  writes : List Bytes → Bytes → Except Exn Unit := fun _ _ => .ok ()

/-- Nothing happens around a connection. -/
def quietSurroundings {W : Type} : Surroundings W where
  exchangeDraws := fun _ =>
    { serverNonce := Arr.zero 16, secrets := [], answerPad := fun _ => 0, writeTime := fun _ => 0, handshakeTime := 0
      answerTime := 0 }
  replyDraws := fun _ => { nowNanos := 0, rand := { randByte := 0, pad := fun _ => 0 } }
  elapse := fun _ w => w

/-- A call of the resolver, with the world it found. -/
structure Lookup (W : Type) where
  authKeyId : Arr 8
  world : W
  resolved : Option ResolvedAuthKey

/-- A frame that a session handled: the key of the session, the world it found, and the handlers that
were invoked. -/
structure HandledFrame (W : Type) where
  frame : Bytes
  authKey : AuthKeyBytes
  world : W
  invoked : List (Site × Invocation)

structure Connection (W : Type) where
  wire : Wire Exn Bytes
  world : W
  /-- How often the connection has touched the world. -/
  touched : Nat
  completed : List ServerExchangeResult
  lookups : List (Lookup W)
  handled : List (HandledFrame W)

abbrev Serving (W : Type) := EStateM Exn (Connection W)

/-- The frames that the codec delivers, and what it throws after the last one. -/
structure Delivery where
  frames : List Bytes
  ending : String

def Delivery.wire (d : Delivery) : Wire Exn Bytes :=
  { incoming := d.frames.map (fun frame _ => .ok frame) ++ [fun _ => .error (.runtimeError d.ending)]
    sent := [] }

def Connection.open {W : Type} (d : Delivery) (world : W) : Connection W :=
  { wire := d.wire, world, touched := 0, completed := [], lookups := [], handled := [] }

/-- The frames that were written. -/
def Connection.written {W : Type} (c : Connection W) : List Bytes := c.wire.sent

def Connection.left {W : Type} (c : Connection W) : Nat := c.wire.left

section

variable {W : Type}

/-- Reading and writing frames. -/
def onWire {α : Type} (x : Exchange α) : Serving W α := fun c =>
  match x c.wire with
  | .ok a wire => .ok a { c with wire }
  | .error e wire => .error e { c with wire }

def isPlaintextMsgsAck (frame : Bytes) : Bool :=
  if frame.length < 8 then false
  else if frame.take 8 ≠ List.replicate 8 0 then false
  else
    match decodeFrom UnencryptedMessage.decode frame with
    | .error _ => false
    | .ok msg =>
      match decodeFrom peekId msg.messageData with
      | .error _ => false
      | .ok id => id == msgsAckTypeId

/-- A round of the inner loop: a plaintext acknowledgement goes on. -/
def frameRound (_ : Unit) : Exchange (Unit ⊕ Bytes) := do
  let frame ← Talk.receive connectionClosed
  if isPlaintextMsgsAck frame then return .inl () else return .inr frame

def readFrame : Exchange Bytes := Talk.iterate connectionClosed frameRound ()

variable (srv : TcpHandshakeServer W) (env : Surroundings W)

/-- The success callback. -/
def report (result : ServerExchangeResult) : Serving W Unit := fun c =>
  .ok () { c with
    world := srv.onSuccess result (env.elapse c.touched c.world)
    touched := c.touched + 1
    completed := c.completed ++ [result] }

def lookUp (resolver : AuthKeyResolver W) (id : Arr 8) : Serving W (Option ResolvedAuthKey) := fun c =>
  let world := env.elapse c.touched c.world
  let (resolved, world') := resolver id world
  .ok resolved { c with
    world := world'
    touched := c.touched + 1
    lookups := c.lookups ++ [{ authKeyId := id, world, resolved }] }

/-- `MtprotoSession::HandleEncrypted` on the frame of the connection. -/
def handleEncryptedFrame (cfg : SessionConfig W) (s : SessionState W) (frame : Bytes) (encrypted : EncryptedMessage) :
    Serving W (Call W) := fun c =>
  let world := env.elapse c.touched c.world
  let call := handleEncrypted cfg env.replyDraws { s with world } encrypted
  .ok call { c with
    world := call.state.world
    touched := c.touched + 1
    handled := c.handled ++ [{ frame, authKey := cfg.authKey, world, invoked := call.invoked }] }

/-- `handle_frame`: the replies are written only when the whole frame was handled, and the first that does not go
out ends the connection. -/
def handleFrame (cfg : SessionConfig W) (s : SessionState W) (frame : Bytes) : Serving W (SessionState W) := do
  let encrypted ← onWire (Talk.lift (decodeFrom EncryptedMessage.decode frame))
  let call ← handleEncryptedFrame env cfg s frame encrypted
  let replies ← onWire (Talk.lift call.result)
  onWire (Talk.trySendAll env.writes (replies.map EncryptedMessage.encode))
  return call.state

/-- The session that serves the connection. -/
def sessionConfig (key : ResolvedAuthKey) : SessionConfig W :=
  { P := srv.P
    authKey := key.authKey
    serverSalt := key.serverSalt
    mySide := .server
    registry := srv.rpcRegistry
    debugTransport := srv.debugTransport }

/-- A round of the loop over encrypted frames. It never leaves the loop but by an exception. -/
def sessionRound (cfg : SessionConfig W) (s : SessionState W) : Serving W (SessionState W ⊕ Unit) := do
  let frame ← onWire readFrame
  let s ← handleFrame env cfg s frame
  return .inl s

/-- A session in the state `s`, from a frame on. -/
def serveFrames (cfg : SessionConfig W) (s : SessionState W) (frame : Bytes) : Serving W Unit := do
  let s ← handleFrame env cfg s frame
  Steps.iterate Connection.left connectionClosed (sessionRound env cfg) s

/-- Serving from the frame that ended the exchanges. -/
def serveSession (key : ResolvedAuthKey) (pendingFirstFrame : Bytes) : Serving W Unit := fun c =>
  serveFrames env (sessionConfig srv key) (SessionState.init 0 c.world) pendingFirstFrame c

/-- The frame that ended the exchanges: its key is the one of the last exchange, or it is looked up. -/
def resolveFrame (sessionKey : Option ResolvedAuthKey) (id : Arr 8) (frame : Bytes) : Serving W ResolvedAuthKey := do
  match sessionKey.filter fun key => id = authKeyId srv.P key.authKey with
  | some key => return key
  | none =>
    match srv.rpcRegistry, srv.authKeyResolver with
    | some _, some resolver =>
      match ← lookUp env resolver id with
      | some resolved => return resolved
      | none =>
        onWire (Talk.trySend env.writes (putInt32 (Int32.ofInt (-codeAuthKeyNotFound))))
        throw (.unexpectedEncryptedFrame id frame)
    | _, _ => throw (.unexpectedEncryptedFrame id frame)

/-- One more exchange after `n` of them. It goes on with the key of the exchange; it ends without a
session, or with the key and the first frame of one. -/
def nextExchange (n : Nat) (sessionKey : Option ResolvedAuthKey) :
    Serving W (Option ResolvedAuthKey ⊕ Option (ResolvedAuthKey × Bytes)) := do
  match ← Steps.attempt (onWire (serverExchange srv.P srv.key (env.exchangeDraws n))) with
  | .ok result =>
    report srv env result
    if srv.rpcRegistry.isNone then return .inr none
    return .inl (some { authKey := result.authKey, serverSalt := result.serverSalt })
  | .error (.unexpectedEncryptedFrame id frame) =>
    let key ← resolveFrame srv env sessionKey id frame
    return .inr (some (key, frame))
  | .error e => throw e

/-- A round of the loop over exchanges. -/
def exchangeRound (sessionKey : Option ResolvedAuthKey) :
    Serving W (Option ResolvedAuthKey ⊕ Option (ResolvedAuthKey × Bytes)) := fun c =>
  nextExchange srv env c.completed.length sessionKey c

/-- The thread of a connection, from the first frame on. -/
def serveConnection : Serving W Unit := do
  match ← Steps.iterate Connection.left connectionClosed (exchangeRound srv env) none with
  | none => return
  | some (key, pendingFirstFrame) =>
    if srv.rpcRegistry.isNone then return
    serveSession srv env key pendingFirstFrame

end

/-! ## The loops end -/

section

variable {W : Type} {srv : TcpHandshakeServer W} {env : Surroundings W}

theorem onWire_eq_ok {α : Type} {x : Exchange α} {c c' : Connection W} {a : α} :
    onWire x c = .ok a c' ↔ ∃ wire, x c.wire = .ok a wire ∧ c' = { c with wire } := by
  unfold onWire
  cases x c.wire with
  | ok b wire =>
    constructor
    · intro h
      cases h
      exact ⟨wire, rfl, rfl⟩
    · rintro ⟨_, h, rfl⟩
      cases h
      rfl
  | error e wire => exact ⟨nofun, nofun⟩

theorem keeps_onWire {α : Type} {x : Exchange α} (hx : Talk.Keeps x) :
    Steps.Keeps Connection.left (onWire x : Serving W α) := by
  intro c a c' h
  obtain ⟨wire, hwire, rfl⟩ := onWire_eq_ok.mp h
  exact hx hwire

theorem consumes_onWire {α : Type} {x : Exchange α} (hx : Talk.Consumes x) :
    Steps.Consumes Connection.left (onWire x : Serving W α) := by
  intro c a c' h
  obtain ⟨wire, hwire, rfl⟩ := onWire_eq_ok.mp h
  exact hx hwire

theorem consumes_frameRound (u : Unit) : Talk.Consumes (frameRound u) :=
  (Talk.consumes_receive connectionClosed).bind fun _ => (Steps.keeps_pure _).ite (Steps.keeps_pure _)

theorem consumes_readFrame : Talk.Consumes readFrame := Steps.consumes_iterate consumes_frameRound ()

theorem keeps_handleFrame (cfg : SessionConfig W) (s : SessionState W) (frame : Bytes) :
    Steps.Keeps Connection.left (handleFrame env cfg s frame) := by
  have hhandle : ∀ encrypted, Steps.Keeps Connection.left (handleEncryptedFrame env cfg s frame encrypted) := by
    intro encrypted c call c' h
    cases h
    exact Nat.le_refl _
  refine (keeps_onWire (Talk.keeps_lift _)).bind fun encrypted => (hhandle encrypted).bind fun call => ?_
  refine (keeps_onWire (Talk.keeps_lift _)).bind fun replies => (keeps_onWire (Talk.keeps_trySendAll _ _)).bind fun _ => ?_
  exact Steps.keeps_pure _

theorem advances_sessionRound (cfg : SessionConfig W) : Steps.Advances Connection.left (sessionRound env cfg) := by
  refine Steps.advances_of_consumes fun s => ?_
  refine (consumes_onWire consumes_readFrame).bind fun frame => (keeps_handleFrame cfg s frame).bind fun _ => ?_
  exact Steps.keeps_pure _

/-- The loop over exchanges goes on only after an exchange that was completed. -/
theorem advances_exchangeRound : Steps.Advances Connection.left (exchangeRound srv env) := by
  intro sessionKey c sessionKey' c' h
  obtain ⟨r, c₁, hrun, h⟩ := Steps.bind_eq_ok.mp h
  unfold Steps.attempt at hrun
  cases hx : onWire (serverExchange srv.P srv.key (env.exchangeDraws c.completed.length)) c with
  | error e c₂ =>
    rw [hx] at hrun
    cases hrun
    cases e with
    | unexpectedEncryptedFrame id frame =>
      obtain ⟨key, c₃, -, h⟩ := Steps.bind_eq_ok.mp h
      cases h
    | _ => cases h
  | ok result c₂ =>
    rw [hx] at hrun
    cases hrun
    have hlt := consumes_onWire (consumes_serverExchange srv.P srv.key _) hx
    obtain ⟨_, c₃, hreport, h⟩ := Steps.bind_eq_ok.mp h
    cases hreport
    split at h
    · cases h
    · cases h
      exact hlt

end

end ShuzaGram.Mtproto

import ShuzaGram.Mtproto.Crypto.MessageCipher
import ShuzaGram.Mtproto.Messages.Invoke
import ShuzaGram.Mtproto.Messages.System
import ShuzaGram.Mtproto.UnencryptedMessage

/-!
# The session

`mtproto/session.cpp` and `mtproto/rpc_dispatch.hpp`: decrypting an incoming message, unpacking a
container, dispatching every inner message and encrypting the replies.

The handlers of the registry read and change a world `W` of their own (the stores, the clock and the
random source they use), which the session passes from one to the next. What a session reads of the
clock and of the random source for its `j`-th reply is `draws j`.

A call keeps what can be observed of it besides its result: the handlers it invoked, and the bodies
it encrypted. Both are kept also when the call throws.
-/

namespace ShuzaGram.Mtproto

open Infra Crypto Messages

/-! ## The registry -/

structure RpcContext where
  authKeyId : Arr 8
  sessionId : Int64
deriving DecidableEq

/-- A handler gets its constructor id, the bytes behind that id and the context of the call. -/
abbrev RpcHandler (W : Type) := UInt32 → Bytes → RpcContext → W → Except Exn Bytes × W

/-- `RpcHandlerRegistry::Find`. -/
abbrev RpcHandlerRegistry (W : Type) := UInt32 → Option (RpcHandler W)

/-! ## The session object -/

/-- The members of `MtprotoSession` that never change, and the debug switch of the process. -/
structure SessionConfig (W : Type) where
  P : Primitives
  authKey : AuthKeyBytes
  serverSalt : Int64
  mySide : Side
  registry : Option (RpcHandlerRegistry W)
  debugTransport : Bool

/-- The members that change, and the world of the handlers. -/
structure SessionState (W : Type) where
  sessionId : Int64
  lastSeenMsgId : Int64
  contentSeqCounter : Nat
  world : W

/-- The constructor: `session_id` is only a first value. -/
def SessionState.init {W : Type} (sessionId : Int64) (world : W) : SessionState W :=
  { sessionId, lastSeenMsgId := 0, contentSeqCounter := 0, world }

structure InnerMessage where
  msgId : Int64
  body : Bytes
deriving DecidableEq

/-- One run of a handler: its arguments and how it ended. -/
structure Invocation where
  msgId : Int64
  constructorId : UInt32
  body : Bytes
  ctx : RpcContext
  outcome : Except Exn Bytes
deriving DecidableEq

/-- What the clock and the random source give to one reply. -/
structure Draw where
  nowNanos : Int64
  rand : CipherRandom

section

variable {W : Type}

def SessionConfig.find (cfg : SessionConfig W) (id : UInt32) : Option (RpcHandler W) :=
  cfg.registry.bind fun registry => registry id

/-- The result of `DispatchOne`, the handler it ran and the world it leaves. -/
structure Dispatched (W : Type) where
  response : Except Exn Bytes
  invoked : Option Invocation
  world : W

/-- The lower-case hexadecimal digit of a value below 16. -/
def hexDigit (n : Nat) : UInt8 :=
  if n < 10 then UInt8.ofNat (48 + n) else UInt8.ofNat (87 + n)

/-- `"0x%08x"`. -/
def hexId (id : UInt32) : Bytes :=
  ascii "0x" ++ (List.range 8).map fun i => hexDigit (id.toNat / 16 ^ (7 - i) % 16)

/-- The error object for a call without a result. -/
def methodNotFound (id : UInt32) : Bytes :=
  RpcError.encode 400 (ascii "METHOD_NOT_FOUND " ++ hexId id)

/-- The answer to a call whose wrappers cannot be read. -/
def internalError (e : Exn) : Bytes := RpcError.encode 500 (ascii "INTERNAL " ++ e.what)

/-- What the debug log reads from a result; a result too short for it throws. -/
def debugPeek : Get Unit := do
  let resultId ← peekId
  if resultId = rpcErrorTypeId then do
    consumeId resultId
    let _ ← int32
    let _ ← getBytes

/-- The end of `DispatchOne`: the debug log, the default for an empty result, the envelope. -/
def wrapResult (debugTransport : Bool) (msgId : Int64) (id : UInt32) (result : Bytes) :
    Except Exn Bytes :=
  if result = [] then .ok (RpcResult.encode msgId (methodNotFound id))
  else if debugTransport then
    match debugPeek result with
    | .ok _ _ => .ok (RpcResult.encode msgId result)
    | .error e _ => .error e
  else .ok (RpcResult.encode msgId result)

/-- The two pings: the id has been peeked, the fields are read and echoed. -/
def answerPing (msgId : Int64) (id : UInt32) (decode : Get Int64) (b : Bytes) : Except Exn Bytes :=
  match (do consumeId id; decode) b with
  | .ok pingId _ => .ok (Pong.encode msgId pingId)
  | .error e _ => .error e

/-- The registered handler, run on the bytes behind the constructor id. -/
def callHandler (cfg : SessionConfig W) (sessionId msgId : Int64) (id : UInt32)
    (handler : RpcHandler W) (b : Bytes) (w : W) : Dispatched W :=
  match consumeId id b with
  | .error e _ => { response := .error e, invoked := none, world := w }
  | .ok _ body =>
    let ctx : RpcContext := { authKeyId := authKeyId cfg.P cfg.authKey, sessionId }
    let (outcome, w') := handler id body ctx w
    { response := do
        let result ← outcome
        wrapResult cfg.debugTransport msgId id result
      invoked := some { msgId, constructorId := id, body, ctx, outcome }
      world := w' }

/-- `DispatchOne` behind the wrappers. An empty response stands for no reply. -/
def dispatchCall (cfg : SessionConfig W) (sessionId msgId : Int64) (id : UInt32) (b : Bytes) (w : W) :
    Dispatched W :=
  if id = pingTypeId then
    { response := answerPing msgId id Ping.decodeBare b, invoked := none, world := w }
  else if id = pingDelayDisconnectTypeId then
    { response := answerPing msgId id PingDelayDisconnect.decodeBare b, invoked := none, world := w }
  else if id = msgsAckTypeId then
    { response := .ok [], invoked := none, world := w }
  else
    match cfg.find id with
    | some handler => callHandler cfg sessionId msgId id handler b w
    | none =>
      { response := wrapResult cfg.debugTransport msgId id [], invoked := none, world := w }

def dispatchOne (cfg : SessionConfig W) (sessionId msgId : Int64) (body : Bytes) (w : W) :
    Dispatched W :=
  match unwrapInvokeWrappers body with
  | .error e _ =>
    { response := .ok (RpcResult.encode msgId (internalError e)), invoked := none, world := w }
  | .ok _ b =>
    match peekId b with
    | .error e _ => { response := .error e, invoked := none, world := w }
    | .ok id _ => dispatchCall cfg sessionId msgId id b w

/-- `NextSeqNo`: the number and the counter afterwards. -/
def nextSeqNo (contentSeqCounter : Nat) (contentRelated : Bool) : Nat × Nat :=
  if contentRelated then (2 * contentSeqCounter + 1, contentSeqCounter + 1)
  else (2 * contentSeqCounter, contentSeqCounter)

/-- The message that `EncryptOutgoing` encrypts. -/
def outgoing (cfg : SessionConfig W) (sessionId : Int64) (contentSeqCounter : Nat) (nowNanos : Int64)
    (body : Bytes) : EncryptedMessageData :=
  { salt := cfg.serverSalt
    sessionId := sessionId
    messageId := MessageId.new nowNanos .serverResponse
    seqNo := Int32.ofNat (nextSeqNo contentSeqCounter true).1
    messageData := body }

/-- `EncryptOutgoing`, with the number of the reply as the index of its draw. -/
def encryptOutgoing (cfg : SessionConfig W) (draws : Nat → Draw) (s : SessionState W) (body : Bytes) :
    Except Exn EncryptedMessage × SessionState W :=
  let draw := draws s.contentSeqCounter
  let data := outgoing cfg s.sessionId s.contentSeqCounter draw.nowNanos body
  (encryptMessage cfg.P cfg.authKey data cfg.mySide draw.rand,
    { s with contentSeqCounter := (nextSeqNo s.contentSeqCounter true).2 })

/-- Where an inner message stands: the id of the message that carried it, and its place there. -/
structure Site where
  outer : Int64
  position : Nat
deriving DecidableEq

/-- What a call leaves behind: its result, the handlers it invoked, the bodies it encrypted and the
state. -/
structure Call (W : Type) where
  result : Except Exn (List EncryptedMessage)
  invoked : List (Site × Invocation)
  bodies : List Bytes
  state : SessionState W

/-- A call whose loop goes on with `c` after the given handler runs and replies. -/
def Call.prepend (invoked : List (Site × Invocation)) (reply : List (Bytes × EncryptedMessage))
    (c : Call W) : Call W :=
  { c with
    result := c.result.map fun replies => reply.map Prod.snd ++ replies
    invoked := invoked ++ c.invoked
    bodies := reply.map Prod.fst ++ c.bodies }

def Call.throw (e : Exn) (s : SessionState W) : Call W :=
  { result := .error e, invoked := [], bodies := [], state := s }

/-- The loop of `HandleEncrypted` over the inner messages, from position `i` on. -/
def dispatchAll (cfg : SessionConfig W) (draws : Nat → Draw) (outer : Int64) :
    Nat → List InnerMessage → SessionState W → Call W
  | _, [], s => { result := .ok [], invoked := [], bodies := [], state := s }
  | i, m :: ms, s =>
    let d := dispatchOne cfg s.sessionId m.msgId m.body s.world
    let s := { s with world := d.world }
    let invoked := d.invoked.toList.map fun inv => ({ outer, position := i }, inv)
    match d.response with
    | .error e => (Call.throw e s).prepend invoked []
    | .ok response =>
      if response = [] then (dispatchAll cfg draws outer (i + 1) ms s).prepend invoked []
      else
        match encryptOutgoing cfg draws s response with
        | (.error e, s) => (Call.throw e s).prepend invoked []
        | (.ok reply, s) =>
          (dispatchAll cfg draws outer (i + 1) ms s).prepend invoked [(response, reply)]

/-- The inner messages: the elements of a container, or the message itself. -/
def innerMessages (data : EncryptedMessageData) : Except Exn (List InnerMessage) :=
  match peekId data.messageData with
  | .error e _ => .error e
  | .ok id b =>
    if id = msgContainerTypeId then
      match (do consumeId id; MsgContainer.decodeBare) b with
      | .error e _ => .error e
      | .ok container _ => .ok (container.map fun m => { msgId := m.msgId, body := m.body })
    else .ok [{ msgId := data.messageId, body := data.messageData }]

def notIncreasing : Exn :=
  .runtimeError "msg_id is not strictly increasing (possible replay)"

/-- `HandleEncrypted`. The session id is taken over before the replay check. -/
def handleEncrypted (cfg : SessionConfig W) (draws : Nat → Draw) (s : SessionState W)
    (incoming : EncryptedMessage) : Call W :=
  match decryptMessage cfg.P cfg.authKey incoming cfg.mySide with
  | .error e => Call.throw e s
  | .ok data =>
    let s := { s with sessionId := data.sessionId }
    if data.messageId ≤ s.lastSeenMsgId then Call.throw notIncreasing s
    else
      let s := { s with lastSeenMsgId := data.messageId }
      match innerMessages data with
      | .error e => Call.throw e s
      | .ok inner => dispatchAll cfg draws data.messageId 0 inner s

/-- A run: one call after another on the same session, whether they throw or not. -/
def runCalls (cfg : SessionConfig W) (draws : Nat → Draw) :
    SessionState W → List EncryptedMessage → List (Call W)
  | _, [] => []
  | s, m :: ms =>
    let c := handleEncrypted cfg draws s m
    c :: runCalls cfg draws c.state ms

end

end ShuzaGram.Mtproto

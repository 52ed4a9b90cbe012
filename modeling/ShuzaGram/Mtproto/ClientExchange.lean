import ShuzaGram.Mtproto.ServerExchange

/-!
# An honest client

The client of `tests/mtproto_handshake_test.cpp`, with what it leaves open as fields: how often it starts
over, what it acknowledges, which variant of `p_q_inner_data` it sends and everything it draws. What
it sends is a list of moves; a move that needs an answer of the server reads it from the frames sent
to it so far. A client that is honest but for its share sends `shareMove` at the end.
-/

namespace ShuzaGram.Mtproto

open Infra Crypto Messages

/-- A message id of the type that clients use. -/
abbrev ClientMessageId := { id : Int64 // MessageId.type id = .fromClient }

/-- `WrapUnencrypted`. -/
def clientFrame (id : ClientMessageId) (payload : Bytes) : Bytes :=
  UnencryptedMessage.encode { messageId := id.val, messageData := payload }

abbrev ClientMove := List Bytes → Except Exn Bytes

/-- A plaintext acknowledgement that fits a frame. -/
structure ClientAck where
  id : ClientMessageId
  msgIds : List Int64
  short : msgIds.length < 2 ^ 24

def ClientAck.frame (ack : ClientAck) : Bytes := clientFrame ack.id (MsgsAck.encode ack.msgIds)

def ackMoves (acks : List ClientAck) : List ClientMove := acks.map fun ack _ => .ok ack.frame

/-- A `req_pq` or `req_pq_multi`, behind acknowledgements. -/
structure ClientRequest where
  acks : List ClientAck
  id : ClientMessageId
  multi : Bool
  nonce : Arr 16

def ClientRequest.reqPq (r : ClientRequest) : ReqPq :=
  { typeId := if r.multi then reqPqMultiRequestTypeId else reqPqRequestTypeId, nonce := r.nonce }

def ClientRequest.moves (r : ClientRequest) : List ClientMove :=
  ackMoves r.acks ++ [fun _ => .ok (clientFrame r.id r.reqPq.encode)]

structure Client where
  first : ClientRequest
  retries : List ClientRequest
  -- req_DH_params
  dhAcks : List ClientAck
  dhId : ClientMessageId
  p : Bytes
  q : Bytes
  kind : PqInnerDataKind
  dc : Int32
  expiresIn : Int32
  newNonce : Arr 32
  rsaPadding : Nat → UInt8
  rsaTempKeys : List (Arr 32)
  -- set_client_DH_params
  setAcks : List ClientAck
  setId : ClientMessageId
  retryId : Int64
  secretB : Bytes
  setPadding : Nat → UInt8

structure ClientResult where
  authKey : Arr 256
  serverSalt : Int64
  dhGenOk : DhGenOk
deriving DecidableEq

/-- `UnwrapUnencrypted`, then a decoder, on the frame that came `back` frames before the last one. -/
def readAnswer {α : Type} (x : Get α) (sent : List Bytes) (back : Nat) : Except Exn α :=
  match sent.reverse[back]? with
  | none => throw connectionClosed
  | some frame => do
    let msg ← decodeFrom UnencryptedMessage.decode frame
    decodeFrom x msg.messageData

namespace Client

variable (P : Primitives) (serverKey : RsaPublicKey) (c : Client)

/-- `p_q_inner_data`; a field that the variant lacks stays zero. -/
def pqInnerData (res : ResPq) : PqInnerData :=
  { kind := c.kind
    pq := res.pq
    p := c.p
    q := c.q
    nonce := res.nonce
    serverNonce := res.serverNonce
    newNonce := c.newNonce
    dc := if c.kind = .plain then 0 else c.dc
    expiresIn := if c.kind = .tempDc then c.expiresIn else 0 }

def dhParamsMove : ClientMove := fun sent => do
  let res ← readAnswer ResPq.decode sent 0
  let encryptedData ← rsaPad P (c.pqInnerData res).encode serverKey c.rsaPadding c.rsaTempKeys
  match res.serverPublicKeyFingerprints with
  | [] => throw (.runtimeError "vector::_M_range_check")
  | publicKeyFingerprint :: _ =>
    return clientFrame c.dhId (ReqDhParams.encode
      { nonce := res.nonce, serverNonce := res.serverNonce, p := c.p, q := c.q, publicKeyFingerprint, encryptedData })

/-- `server_DH_inner_data`, decrypted under the temporary keys. -/
def serverInner (res : ResPq) (ok : ServerDhParamsOk) : Except Exn ServerDhInnerData := do
  let (tempKey, tempIv) := tempAesKeys P c.newNonce res.serverNonce
  let decrypted ← decryptExchangeAnswer P ok.encryptedAnswer tempKey tempIv
  decodeFrom ServerDhInnerData.decode decrypted

/-- `client_DH_inner_data` with the share `g_b`. -/
def clientInner (res : ResPq) (inner : ServerDhInnerData) : Except Exn ClientDhInnerData := do
  let gB ← modPowBytes [inner.g.toUInt32.toUInt8] c.secretB inner.dhPrime
  return { nonce := res.nonce, serverNonce := res.serverNonce, retryId := c.retryId, gB }

/-- `set_client_DH_params` around the `client_DH_inner_data` that `makeInner` chooses. -/
def innerMove (makeInner : ResPq → ServerDhInnerData → Except Exn ClientDhInnerData) : ClientMove := fun sent => do
  let res ← readAnswer ResPq.decode sent 1
  let ok ← readAnswer ServerDhParamsOk.decode sent 0
  let inner ← c.serverInner P res ok
  let clientInner ← makeInner res inner
  let (tempKey, tempIv) := tempAesKeys P c.newNonce res.serverNonce
  let encryptedData ← encryptExchangeAnswer P clientInner.encode tempKey tempIv c.setPadding
  return clientFrame c.setId
    (SetClientDhParams.encode { nonce := res.nonce, serverNonce := res.serverNonce, encryptedData })

def setClientMove : ClientMove := c.innerMove P c.clientInner

/-- `client_DH_inner_data` of a client that sends `gB` as its share. -/
def shareInner (gB : Bytes) (res : ResPq) (_ : ServerDhInnerData) : Except Exn ClientDhInnerData :=
  return { nonce := res.nonce, serverNonce := res.serverNonce, retryId := c.retryId, gB }

def shareMove (gB : Bytes) : ClientMove := c.innerMove P (c.shareInner gB)

def requests : List ClientRequest := c.first :: c.retries

def nonces : List (Arr 16) := c.requests.map ClientRequest.nonce

/-- The nonce that counts: that of the last request. -/
def nonce : Arr 16 := c.retries.foldl (fun _ r => r.nonce) c.first.nonce

/-- Everything the client sends, with `last` at the end. -/
def movesWith (last : ClientMove) : List ClientMove :=
  c.requests.flatMap ClientRequest.moves
    ++ (ackMoves c.dhAcks ++ [c.dhParamsMove P serverKey])
    ++ (ackMoves c.setAcks ++ [last])

/-- Everything an honest client sends. -/
def moves : List ClientMove := c.movesWith P serverKey (c.setClientMove P)

/-- What the client holds when `dh_gen_ok` has arrived. -/
def result (sent : List Bytes) : Except Exn ClientResult := do
  let res ← readAnswer ResPq.decode sent 2
  let ok ← readAnswer ServerDhParamsOk.decode sent 1
  let dhGenOk ← readAnswer DhGenOk.decode sent 0
  let inner ← c.serverInner P res ok
  let authKeyBytes ← modPowFixed inner.gA c.secretB inner.dhPrime 256
  return { authKey := Arr.ofList 256 authKeyBytes, serverSalt := serverSalt c.newNonce res.serverNonce, dhGenOk }

end Client

end ShuzaGram.Mtproto

import ShuzaGram.Infra.Channel
import ShuzaGram.Mtproto.Crypto.Dh
import ShuzaGram.Mtproto.Crypto.Rsa
import ShuzaGram.Mtproto.Messages.Handshake
import ShuzaGram.Mtproto.Messages.System
import ShuzaGram.Mtproto.UnencryptedMessage

/-!
# The server side of the key exchange

`mtproto/server_exchange.cpp`. `ServerExchange::Run` talks to its client through a `Wire` of frames.
What it takes from the random source and from the clock is `Draws`.

The loops of the source read a frame in every round. They are `Talk.iterate`, whose unfolding is the
loop of the source.
-/

namespace ShuzaGram.Mtproto

open Infra Crypto Messages

abbrev Exchange := Talk Exn Bytes

/-- `net::ConnectionClosedError`, which the read callback throws when there are no more frames. -/
def connectionClosed : Exn := .runtimeError "connection closed by peer"

/-- What one exchange takes from the random source and from the clock. -/
structure Draws where
  serverNonce : Arr 16
  /-- The values of `a` that `GenerateGa` draws, one after another. -/
  secrets : List (Arr 256)
  answerPad : Nat → UInt8
  /-- The clock, in nanoseconds, when the exchange writes after `n` frames were written. -/
  writeTime : Nat → Int64
  handshakeTime : Int64
  answerTime : Int64

/-- `duration_cast<seconds>` of a clock reading. -/
def seconds (nanos : Int64) : Int64 := nanos / 1000000000

/-! ## Frames -/

/-- Decode from a buffer of its own. -/
def decodeFrom {α : Type} (x : Get α) (b : Bytes) : Except Exn α :=
  match x b with
  | .ok a _ => .ok a
  | .error e _ => .error e

/-- The checks of `ReadHandshakeMessage` on a frame. -/
def decodeHandshakeFrame (frame : Bytes) : Except Exn UnencryptedMessage := do
  if frame.length ≥ 8 ∧ frame.take 8 ≠ List.replicate 8 0 then
    throw (.unexpectedEncryptedFrame (Arr.ofList 8 (frame.take 8)) frame)
  let msg ← decodeFrom UnencryptedMessage.decode frame
  if MessageId.type msg.messageId ≠ .fromClient then
    throw (.runtimeError "handshake message has an unexpected message_id type")
  return msg

def readHandshakeMessage : Exchange UnencryptedMessage := do
  let frame ← Talk.receive connectionClosed
  Talk.lift (decodeHandshakeFrame frame)

/-- A round of the loop of `ReadNextRealHandshakeMessage`: an acknowledgement goes on. -/
def nextRealRound (_ : Unit) : Exchange (Unit ⊕ UnencryptedMessage) := do
  let msg ← readHandshakeMessage
  let id ← Talk.lift (decodeFrom peekId msg.messageData)
  if id = msgsAckTypeId then return .inl () else return .inr msg

def readNextRealHandshakeMessage : Exchange UnencryptedMessage := Talk.iterate connectionClosed nextRealRound ()

/-- The frame that `WriteHandshakeMessage` writes. -/
def handshakeFrame (draws : Draws) (n : Nat) (payload : Bytes) : Bytes :=
  UnencryptedMessage.encode
    { messageId := MessageId.new (draws.writeTime n) .serverResponse, messageData := payload }

/-- `WriteHandshakeMessage`; every message of the exchange is a server response. -/
def writeHandshakeMessage (draws : Draws) (payload : Bytes) : Exchange Unit := fun w =>
  Talk.send (handshakeFrame draws w.sent.length payload) w

/-! ## The Diffie–Hellman share -/

def rsaKeyBits : Nat := 2048

def dhGenerator : Int32 := 3

/-- `FixedPq`. -/
def fixedPq : Bytes := [0x17, 0xED, 0x48, 0x94, 0x1A, 0x08, 0xF9, 0x81]

def dhPrimeValue : Nat :=
  0xC71CAEB9C6B1C9048E6C522F70F13F73980D40238E3E21C14934D037563D930F48198A0AA7C14058229493D22530F4DBFA336F6E0AC925139543AED44CCE7C3720FD51F69458705AC68CD4FE6B6B13ABDC9746512969328454F18FAF8C595F642477FE96BB2A941D5BCD1D4AC8CC49880708FA9B378E3C4F3A9060BEE67CF9A4A4A695811051907E162753B56B0F6B410DBA74D8A84B2A14B3144E0EF1284754FD17ED950D5965B4B9DD46582DB1178D169C6BC465B0D6FF9CA3928FEF5B9AE4E418FC15E83EBEA0F87FA9FF5EED70050DED2849F47BF959D956850CE929851F0D8115F635B105EE2E4E15D04B2454BF6F4FADF034B10403119CD8E3B92FCC5B

/-- `FixedDhPrime`. -/
def fixedDhPrime : Bytes := toBE 256 dhPrimeValue

theorem bytesToBignum_fixedDhPrime : bytesToBignum fixedDhPrime = dhPrimeValue :=
  ofBE_toBE_of_lt (by decide)

theorem dhPrimeValue_pos : 0 < dhPrimeValue := by decide

theorem modPowBytes_fixedDhPrime (base exponent : Bytes) :
    modPowBytes base exponent fixedDhPrime =
      .ok (bignumToMinimalBytes (bytesToBignum base ^ bytesToBignum exponent % dhPrimeValue)) := by
  rw [modPowBytes, bytesToBignum_fixedDhPrime, bnMod_eq_ok dhPrimeValue_pos, modPow_eq]

/-- A residue takes at most 256 bytes. -/
theorem length_residue_le (n : Nat) : (bignumToMinimalBytes (n % dhPrimeValue)).length ≤ 256 := by
  have hlt : n % dhPrimeValue < 256 ^ 256 :=
    Nat.lt_trans (Nat.mod_lt _ dhPrimeValue_pos) (by decide)
  rw [bignumToMinimalBytes, length_toBE]
  exact numBytes_le_of_lt hlt

/-- The range check of `GenerateGa`, over signed numbers as `BN_sub` computes them. -/
def gaInRange (dhPrime gA : Nat) : Bool :=
  1 < gA && (gA : Int) < (dhPrime : Int) - 1 && 2 ^ (rsaKeyBits - 64) < gA
    && (gA : Int) < (dhPrime : Int) - 2 ^ (rsaKeyBits - 64)

/-- The loop of `GenerateGa`, over the secrets that it draws. -/
def generateGaLoop (gBytes dhPrime : Bytes) : List (Arr 256) → Except Exn (Arr 256 × Bytes)
  | [] => throw .randomExhausted
  | a :: rest => do
    let gA ← modPowBytes gBytes a.toList dhPrime
    if gaInRange (bytesToBignum dhPrime) (bytesToBignum gA) then return (a, gA)
    else generateGaLoop gBytes dhPrime rest

/-- `GenerateGa`: the secret and its share. -/
def generateGa (g : Int32) (dhPrime : Bytes) (secrets : List (Arr 256)) : Except Exn (Arr 256 × Bytes) := do
  checkGP g.toInt dhPrime
  generateGaLoop [g.toUInt32.toUInt8] dhPrime secrets

/-! ## The exchange -/

def codeAuthKeyNotFound : Int := 404

structure ServerExchangeResult where
  authKey : Arr 256
  serverSalt : Int64
  expiresAt : Int32
deriving DecidableEq

/-- A `try` block whose exceptions are reported under a prefix. -/
def reportAs {α : Type} (what : String) (x : Except Exn α) : Except Exn α :=
  x.mapError fun e => .serverExchange codeAuthKeyNotFound (ascii what ++ e.what)

/-- Step 3: `req_DH_params.encrypted_data`, opened and decoded. -/
def openPqInnerData (P : Primitives) (key : RsaPrivateKey) (encryptedData : Bytes) : Except Exn PqInnerData :=
  reportAs "decode req_DH_params: " do
    let dataWithPadding ← rsaUnpad P encryptedData key
    decodeFrom PqInnerData.decode dataWithPadding

/-- The expiry of the key: 0 for a permanent one. -/
def authKeyExpiresAt (handshakeTime : Int64) (inner : PqInnerData) : Except Exn Int :=
  if inner.kind = .tempDc then
    if inner.expiresIn ≤ 0 then
      throw (.serverExchange codeAuthKeyNotFound (ascii "p_q_inner_data temporary key expires_in must be positive"))
    else
      let expiresAt := (seconds handshakeTime).toInt + inner.expiresIn.toInt
      if expiresAt ≤ 0 ∨ expiresAt > 2147483647 then
        throw (.serverExchange codeAuthKeyNotFound (ascii "temporary auth key expiry is out of int32 range"))
      else return expiresAt
  else return 0

/-- `set_client_DH_params.encrypted_data`, opened and decoded. -/
def openClientDhInnerData (P : Primitives) (encryptedData tempKey tempIv : Bytes) : Except Exn ClientDhInnerData :=
  reportAs "decrypt Set_client_DH_params: " do
    let decrypted ← decryptExchangeAnswer P encryptedData tempKey tempIv
    decodeFrom ClientDhInnerData.decode decrypted

section Run

variable (P : Primitives) (key : RsaPrivateKey) (draws : Draws)

def resPq (nonce : Arr 16) : ResPq :=
  { nonce
    serverNonce := draws.serverNonce
    pq := fixedPq
    serverPublicKeyFingerprints := [key.publicKey.fingerprint P] }

/-- A round of the loop that ends with `req_DH_params`: a repeated `req_pq` goes on with its nonce. -/
def resPqRound (nonce : Arr 16) : Exchange (Arr 16 ⊕ (Arr 16 × ReqDhParams)) := do
  writeHandshakeMessage draws (resPq P key draws nonce).encode
  let next ← readNextRealHandshakeMessage
  let id ← Talk.lift (decodeFrom peekId next.messageData)
  if id = reqPqRequestTypeId ∨ id = reqPqMultiRequestTypeId then
    let req ← Talk.lift (decodeFrom ReqPq.decode next.messageData)
    return .inl req.nonce
  else
    let dhParams ← Talk.lift (decodeFrom ReqDhParams.decode next.messageData)
    return .inr (nonce, dhParams)

def serverDhInnerData (nonce : Arr 16) (gA : Bytes) : ServerDhInnerData :=
  { nonce
    serverNonce := draws.serverNonce
    g := dhGenerator
    dhPrime := fixedDhPrime
    gA
    serverTime := (seconds draws.answerTime).toInt32 }

/-- Steps 4 and 5: the share of the server, sent under the temporary key. -/
def sendServerDhParams (nonce : Arr 16) (tempKey tempIv gA : Bytes) : Exchange Unit := do
  let encryptedAnswer ←
    Talk.lift (encryptExchangeAnswer P (serverDhInnerData draws nonce gA).encode tempKey tempIv draws.answerPad)
  writeHandshakeMessage draws
    (ServerDhParamsOk.encode { nonce, serverNonce := draws.serverNonce, encryptedAnswer })

/-- Steps 6 to 8: the share of the client, the key, and `dh_gen_ok`. -/
def finishExchange (nonce : Arr 16) (newNonce : Arr 32) (expiresAt : Int) (a : Arr 256)
    (tempKey tempIv : Bytes) : Exchange ServerExchangeResult := do
  let msg ← readNextRealHandshakeMessage
  let clientParams ← Talk.lift (decodeFrom SetClientDhParams.decode msg.messageData)
  let clientInner ← Talk.lift (openClientDhInnerData P clientParams.encryptedData tempKey tempIv)
  let authKeyBytes ← Talk.lift (modPowFixed clientInner.gB a.toList fixedDhPrime 256)
  let authKey := Arr.ofList 256 authKeyBytes
  writeHandshakeMessage draws
    (DhGenOk.encode
      { nonce, serverNonce := draws.serverNonce, newNonceHash1 := nonceHash1 P newNonce authKey })
  return { authKey, serverSalt := serverSalt newNonce draws.serverNonce, expiresAt := Int32.ofInt expiresAt }

/-- What follows `req_DH_params`. -/
def completeExchange (nonce : Arr 16) (dhParams : ReqDhParams) : Exchange ServerExchangeResult := do
  let inner ← Talk.lift (openPqInnerData P key dhParams.encryptedData)
  let expiresAt ← Talk.lift (authKeyExpiresAt draws.handshakeTime inner)
  let (a, gA) ← Talk.lift (generateGa dhGenerator fixedDhPrime draws.secrets)
  let (tempKey, tempIv) := tempAesKeys P inner.newNonce draws.serverNonce
  sendServerDhParams P draws nonce tempKey tempIv gA
  finishExchange P draws nonce inner.newNonce expiresAt a tempKey tempIv

/-- `ServerExchange::Run`. -/
def serverExchange : Exchange ServerExchangeResult := do
  let first ← readNextRealHandshakeMessage
  let req ← Talk.lift (decodeFrom ReqPq.decode first.messageData)
  let (nonce, dhParams) ← Talk.iterate connectionClosed (resPqRound P key draws) req.nonce
  completeExchange P key draws nonce dhParams

end Run

/-! ## The loops end -/

theorem consumes_readHandshakeMessage : Talk.Consumes readHandshakeMessage :=
  (Talk.consumes_receive connectionClosed).bind fun _ => Talk.keeps_lift _

theorem consumes_nextRealRound (s : Unit) : Talk.Consumes (nextRealRound s) :=
  consumes_readHandshakeMessage.bind fun _ =>
    (Talk.keeps_lift _).bind fun _ => (Steps.keeps_pure _).ite (Steps.keeps_pure _)

theorem advances_nextRealRound : Steps.Advances Wire.left nextRealRound :=
  Steps.advances_of_consumes consumes_nextRealRound

theorem consumes_readNextReal : Talk.Consumes readNextRealHandshakeMessage :=
  Steps.consumes_iterate consumes_nextRealRound ()

theorem keeps_writeHandshakeMessage (draws : Draws) (payload : Bytes) :
    Talk.Keeps (writeHandshakeMessage draws payload) := fun _ _ _ h => Talk.keeps_send _ h

theorem consumes_resPqRound (P : Primitives) (key : RsaPrivateKey) (draws : Draws) (nonce : Arr 16) :
    Talk.Consumes (resPqRound P key draws nonce) := by
  refine (keeps_writeHandshakeMessage draws _).bind_consumes fun _ => consumes_readNextReal.bind fun next => ?_
  refine (Talk.keeps_lift _).bind fun id => Steps.Keeps.ite ?_ ?_
  · exact (Talk.keeps_lift _).bind fun _ => Steps.keeps_pure _
  · exact (Talk.keeps_lift _).bind fun _ => Steps.keeps_pure _

theorem advances_resPqRound (P : Primitives) (key : RsaPrivateKey) (draws : Draws) :
    Steps.Advances Wire.left (resPqRound P key draws) :=
  Steps.advances_of_consumes (consumes_resPqRound P key draws)

theorem keeps_sendServerDhParams (P : Primitives) (draws : Draws) (nonce : Arr 16) (tempKey tempIv gA : Bytes) :
    Talk.Keeps (sendServerDhParams P draws nonce tempKey tempIv gA) :=
  (Talk.keeps_lift _).bind fun _ => keeps_writeHandshakeMessage draws _

theorem keeps_finishExchange (P : Primitives) (draws : Draws) (nonce : Arr 16) (newNonce : Arr 32) (expiresAt : Int)
    (a : Arr 256) (tempKey tempIv : Bytes) :
    Talk.Keeps (finishExchange P draws nonce newNonce expiresAt a tempKey tempIv) := by
  refine consumes_readNextReal.keeps.bind fun msg => (Talk.keeps_lift _).bind fun clientParams => ?_
  refine (Talk.keeps_lift _).bind fun clientInner => (Talk.keeps_lift _).bind fun authKeyBytes => ?_
  exact (keeps_writeHandshakeMessage draws _).bind fun _ => Steps.keeps_pure _

theorem keeps_completeExchange (P : Primitives) (key : RsaPrivateKey) (draws : Draws) (nonce : Arr 16)
    (dhParams : ReqDhParams) : Talk.Keeps (completeExchange P key draws nonce dhParams) := by
  refine (Talk.keeps_lift _).bind fun inner => (Talk.keeps_lift _).bind fun expiresAt => ?_
  refine (Talk.keeps_lift _).bind fun share => ?_
  exact (keeps_sendServerDhParams P draws nonce _ _ _).bind fun _ => keeps_finishExchange P draws nonce _ _ _ _ _

/-- An exchange that returns has received something. -/
theorem consumes_serverExchange (P : Primitives) (key : RsaPrivateKey) (draws : Draws) :
    Talk.Consumes (serverExchange P key draws) := by
  refine consumes_readNextReal.bind fun first => (Talk.keeps_lift _).bind fun req => ?_
  refine (Steps.consumes_iterate (consumes_resPqRound P key draws) req.nonce).keeps.bind fun r => ?_
  exact keeps_completeExchange P key draws r.1 r.2

end ShuzaGram.Mtproto

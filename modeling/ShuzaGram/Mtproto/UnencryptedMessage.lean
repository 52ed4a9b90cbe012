import ShuzaGram.Mtproto.TlBuffer

/-!
# Message ids and plaintext frames

`mtproto/unencrypted_message.hpp`: the message id scheme, and the frame with a zero auth key id that
carries the messages of a key exchange.
-/

namespace ShuzaGram.Mtproto

open Infra

inductive MessageType where
  | unknown
  | fromClient
  | serverResponse
  | fromServer
deriving DecidableEq

namespace MessageId

def messageIdModulo : Int64 := 4

/-- `MessageId::Compute`, in 64-bit arithmetic. -/
def compute (nowNanos : Int64) (yield : Int64) : Int64 :=
  let nano : Int64 := 1000000000
  let intPart := nowNanos / nano
  let fracPart := nowNanos % nano
  let fracPart := fracPart &&& (-messageIdModulo)
  let fracPart := fracPart + yield
  (intPart <<< 32) ||| (fracPart &&& 0xFFFFFFFF)

/-- `MessageId::Type`. -/
def type (raw : Int64) : MessageType :=
  let low := (raw % messageIdModulo + messageIdModulo) % messageIdModulo
  if low = 0 then .fromClient
  else if low = 1 then .serverResponse
  else if low = 3 then .fromServer
  else .unknown

def yieldOf : MessageType → Int64
  | .fromClient => 0
  | .fromServer => 3
  | .serverResponse => 1
  | .unknown => 0

/-- `MessageId::New(now, type).Raw()`, from the nanoseconds of the clock. -/
def new (nowNanos : Int64) (t : MessageType) : Int64 :=
  let id := compute nowNanos (yieldOf t)
  if type id = .fromClient ∧ id.toUInt64.toUInt32 = 0 then id + messageIdModulo else id

end MessageId

/-- The plaintext frame. -/
structure UnencryptedMessage where
  messageId : Int64
  messageData : Bytes
deriving DecidableEq

namespace UnencryptedMessage

def encode (m : UnencryptedMessage) : Bytes :=
  putLong 0 ++ putLong m.messageId ++ putInt32 (Int32.ofNat m.messageData.length) ++ m.messageData

def decode : Get UnencryptedMessage := do
  let authKeyId ← long
  if authKeyId ≠ 0 then
    throw (.runtimeError "unexpected non-zero auth_key_id in plaintext message")
  let messageId ← long
  let dataLen ← int32
  if dataLen < 0 then throw (.runtimeError "negative plaintext message length")
  let messageData ← consumeN dataLen.toInt.toNat
  return { messageId, messageData }

/-- **A plaintext frame reads back**, whatever follows it. -/
theorem decode_encode {m : UnencryptedMessage} (h : m.messageData.length < 2 ^ 31) (rest : Bytes) :
    decode (m.encode ++ rest) = .ok m rest := by
  have hn : (Int32.ofNat m.messageData.length).toInt = m.messageData.length :=
    Int32.toInt_ofNat_of_lt h
  have hneg : ¬ Int32.ofNat m.messageData.length < 0 := by
    rw [Int32.lt_iff_toInt_lt, hn]
    simp
  unfold decode encode
  simp only [List.append_assoc, long_bind_put]
  rw [if_neg (fun h => h rfl)]
  simp only [long_bind_put, int32_bind_put]
  rw [if_neg hneg, hn]
  exact Get.bind_of_ok (consumeN_append (Int.toNat_natCast _).symm)

end UnencryptedMessage

end ShuzaGram.Mtproto

import ShuzaGram.Mtproto.TlBuffer

/-!
# System messages

`mtproto/messages/system.hpp`: containers, ping and pong, acknowledgements, and the
`rpc_result` / `rpc_error` envelope.
-/

namespace ShuzaGram.Mtproto.Messages

open Infra

/-! ## Containers -/

/-- An element of a `msg_container`, which stands in it without a type id. -/
structure ContainerMessage where
  msgId : Int64
  seqno : Int32
  body : Bytes
deriving DecidableEq

namespace ContainerMessage

def encodeBare (m : ContainerMessage) : Bytes :=
  putLong m.msgId ++ putInt32 m.seqno ++ putInt32 (Int32.ofNat m.body.length) ++ m.body

/-- A negative length becomes an enormous `size_t`, which `resize` refuses. -/
def decodeBare : Get ContainerMessage := do
  let msgId ← long
  let seqno ← int32
  let len ← int32
  if len < 0 then throw .lengthError
  let body ← consumeN len.toInt.toNat
  return { msgId, seqno, body }

end ContainerMessage

def msgContainerTypeId : UInt32 := 0x73f1f8dc

def MsgContainer.encode (messages : List ContainerMessage) : Bytes :=
  putId msgContainerTypeId ++ putInt32 (Int32.ofNat messages.length)
    ++ messages.flatMap ContainerMessage.encodeBare

def MsgContainer.decodeBare : Get (List ContainerMessage) := do
  let count ← int32
  if count < 0 then throw .lengthError
  getTimes ContainerMessage.decodeBare count.toInt.toNat

/-! ## Ping and pong -/

def pingTypeId : UInt32 := 0x7abe77ec

def pingDelayDisconnectTypeId : UInt32 := 0xf3427b8c

/-- `Ping::DecodeBare`: the ping id. -/
def Ping.decodeBare : Get Int64 := long

/-- `PingDelayDisconnect::DecodeBare`: the delay is read and ignored. -/
def PingDelayDisconnect.decodeBare : Get Int64 := do
  let pingId ← long
  let _ ← int32
  return pingId

def pongTypeId : UInt32 := 0x347773c5

def Pong.encode (msgId pingId : Int64) : Bytes :=
  putId pongTypeId ++ putLong msgId ++ putLong pingId

/-! ## Acknowledgements and results -/

def msgsAckTypeId : UInt32 := 0x62d6b459

def MsgsAck.encode (msgIds : List Int64) : Bytes :=
  putId msgsAckTypeId ++ putVectorHeader msgIds.length ++ msgIds.flatMap putLong

def rpcErrorTypeId : UInt32 := 0x2144ca19

def RpcError.encode (errorCode : Int32) (errorMessage : Bytes) : Bytes :=
  putId rpcErrorTypeId ++ putInt32 errorCode ++ putBytes errorMessage

def rpcResultTypeId : UInt32 := 0xf35c6d01

/-- `result` is an encoded object and stands as it is. -/
def RpcResult.encode (reqMsgId : Int64) (result : Bytes) : Bytes :=
  putId rpcResultTypeId ++ putLong reqMsgId ++ result

/-! ## Lengths -/

@[simp] theorem length_pong_encode (msgId pingId : Int64) :
    (Pong.encode msgId pingId).length = 20 := by
  simp [Pong.encode]

@[simp] theorem length_rpcResult_encode (reqMsgId : Int64) (result : Bytes) :
    (RpcResult.encode reqMsgId result).length = 12 + result.length := by
  simp [RpcResult.encode]
  omega

theorem four_dvd_length_rpcError (errorCode : Int32) (errorMessage : Bytes) :
    4 ∣ (RpcError.encode errorCode errorMessage).length := by
  have h := four_dvd_length_putBytes errorMessage
  simp only [RpcError.encode, List.length_append, length_putId, length_putInt32]
  omega

/-! ## Reading a container back -/

theorem ContainerMessage.decodeBare_put {m : ContainerMessage} (h : m.body.length < 2 ^ 31)
    (rest : Bytes) : decodeBare (m.encodeBare ++ rest) = .ok m rest := by
  have hn : (Int32.ofNat m.body.length).toInt = m.body.length := Int32.toInt_ofNat_of_lt h
  have hneg : ¬ Int32.ofNat m.body.length < 0 := by
    rw [Int32.lt_iff_toInt_lt, hn]
    simp
  unfold decodeBare encodeBare
  simp only [List.append_assoc, long_bind_put, int32_bind_put]
  rw [if_neg hneg, hn]
  exact Get.bind_of_ok (consumeN_append (Int.toNat_natCast _).symm)

theorem getTimes_container : ∀ (ms : List ContainerMessage) (rest : Bytes),
    (∀ m ∈ ms, m.body.length < 2 ^ 31) →
    getTimes ContainerMessage.decodeBare ms.length (ms.flatMap ContainerMessage.encodeBare ++ rest) =
      .ok ms rest
  | [], _, _ => rfl
  | m :: ms, rest, h => by
    have hm := ContainerMessage.decodeBare_put (h m List.mem_cons_self)
      (ms.flatMap ContainerMessage.encodeBare ++ rest)
    have ih := getTimes_container ms rest fun x hx => h x (List.mem_cons_of_mem m hx)
    rw [List.flatMap_cons, List.append_assoc, List.length_cons, getTimes, Get.bind_of_ok hm,
      Get.bind_of_ok ih]
    rfl

/-- **A container reads back**: the count and every element, whatever follows. -/
theorem MsgContainer.decodeBare_encode {ms : List ContainerMessage} (hn : ms.length < 2 ^ 31)
    (h : ∀ m ∈ ms, m.body.length < 2 ^ 31) (rest : Bytes) :
    (do consumeId msgContainerTypeId; decodeBare) (MsgContainer.encode ms ++ rest) = .ok ms rest := by
  have hcount : (Int32.ofNat ms.length).toInt = ms.length := Int32.toInt_ofNat_of_lt hn
  have hneg : ¬ Int32.ofNat ms.length < 0 := by
    rw [Int32.lt_iff_toInt_lt, hcount]
    simp
  unfold MsgContainer.encode decodeBare
  simp only [List.append_assoc, consumeId_bind_put, int32_bind_put]
  rw [if_neg hneg, hcount]
  exact getTimes_container ms rest h

end ShuzaGram.Mtproto.Messages

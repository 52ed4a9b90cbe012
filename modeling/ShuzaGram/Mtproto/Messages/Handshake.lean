import ShuzaGram.Mtproto.TlBuffer

/-!
# Messages of the key exchange

`mtproto/messages/handshake.hpp`. The server writes `ResPq`, `ServerDhInnerData`, `ServerDhParamsOk` and
`DhGenOk` and reads the other five. The opposite direction of each is what the client of
`tests/mtproto_handshake_test.cpp` does with it.
-/

namespace ShuzaGram.Mtproto.Messages

open Infra

def reqPqRequestTypeId : UInt32 := 0x60469778
def reqPqMultiRequestTypeId : UInt32 := 0xbe7e8ef1
def resPqTypeId : UInt32 := 0x05162463
def reqDhParamsTypeId : UInt32 := 0xd712e4be
def serverDhInnerDataTypeId : UInt32 := 0xb5890dba
def serverDhParamsOkTypeId : UInt32 := 0xd0e8075c
def setClientDhParamsTypeId : UInt32 := 0xf5045f1f
def clientDhInnerDataTypeId : UInt32 := 0x6643b654
def dhGenOkTypeId : UInt32 := 0x3bcbf734

/-! ## The first round -/

/-- Either of `req_pq` and `req_pq_multi`. -/
structure ReqPq where
  typeId : UInt32
  nonce : Arr 16
deriving DecidableEq

def ReqPq.decode : Get ReqPq := do
  let typeId ← peekId
  if typeId ≠ reqPqRequestTypeId ∧ typeId ≠ reqPqMultiRequestTypeId then throw (.unexpectedId typeId)
  consumeId typeId
  let nonce ← getArr 16
  return { typeId, nonce }

def ReqPq.encode (m : ReqPq) : Bytes := putId m.typeId ++ putArr m.nonce

structure ResPq where
  nonce : Arr 16
  serverNonce : Arr 16
  pq : Bytes
  serverPublicKeyFingerprints : List Int64
deriving DecidableEq

def ResPq.encode (m : ResPq) : Bytes :=
  putId resPqTypeId ++ putArr m.nonce ++ putArr m.serverNonce ++ putBytes m.pq
    ++ putVectorHeader m.serverPublicKeyFingerprints.length ++ m.serverPublicKeyFingerprints.flatMap putLong

def ResPq.decode : Get ResPq := do
  consumeId resPqTypeId
  let nonce ← getArr 16
  let serverNonce ← getArr 16
  let pq ← getBytes
  let count ← vectorHeader
  let serverPublicKeyFingerprints ← getTimes long count.toInt.toNat
  return { nonce, serverNonce, pq, serverPublicKeyFingerprints }

/-! ## The client's half of the secret -/

structure ReqDhParams where
  nonce : Arr 16
  serverNonce : Arr 16
  p : Bytes
  q : Bytes
  publicKeyFingerprint : Int64
  encryptedData : Bytes
deriving DecidableEq

def ReqDhParams.decode : Get ReqDhParams := do
  consumeId reqDhParamsTypeId
  let nonce ← getArr 16
  let serverNonce ← getArr 16
  let p ← getBytes
  let q ← getBytes
  let publicKeyFingerprint ← long
  let encryptedData ← getBytes
  return { nonce, serverNonce, p, q, publicKeyFingerprint, encryptedData }

def ReqDhParams.encode (m : ReqDhParams) : Bytes :=
  putId reqDhParamsTypeId ++ putArr m.nonce ++ putArr m.serverNonce ++ putBytes m.p ++ putBytes m.q
    ++ putLong m.publicKeyFingerprint ++ putBytes m.encryptedData

inductive PqInnerDataKind where
  | plain
  | dc
  | tempDc
deriving DecidableEq

def PqInnerDataKind.typeId : PqInnerDataKind → UInt32
  | plain => 0x83c95aec
  | dc => 0xa9f55f95
  | tempDc => 0x56fddf88

/-- The three `p_q_inner_data` variants in one record. -/
structure PqInnerData where
  kind : PqInnerDataKind
  pq : Bytes
  p : Bytes
  q : Bytes
  nonce : Arr 16
  serverNonce : Arr 16
  newNonce : Arr 32
  dc : Int32 := 0
  expiresIn : Int32 := 0
deriving DecidableEq

/-- The `switch` over the type id. -/
def PqInnerDataKind.ofTypeId (id : UInt32) : Get PqInnerDataKind :=
  if id = plain.typeId then pure plain
  else if id = PqInnerDataKind.dc.typeId then pure .dc
  else if id = tempDc.typeId then pure tempDc
  else throw (.unexpectedId id)

def PqInnerData.decode : Get PqInnerData := do
  let id ← peekId
  let kind ← PqInnerDataKind.ofTypeId id
  consumeId id
  let pq ← getBytes
  let p ← getBytes
  let q ← getBytes
  let nonce ← getArr 16
  let serverNonce ← getArr 16
  let newNonce ← getArr 32
  let dc ← if kind ≠ .plain then int32 else pure 0
  let expiresIn ← if kind = .tempDc then int32 else pure 0
  return { kind, pq, p, q, nonce, serverNonce, newNonce, dc, expiresIn }

def PqInnerData.encode (m : PqInnerData) : Bytes :=
  putId m.kind.typeId ++ putBytes m.pq ++ putBytes m.p ++ putBytes m.q ++ putArr m.nonce ++ putArr m.serverNonce
    ++ putArr m.newNonce ++ (if m.kind ≠ .plain then putInt32 m.dc else [])
    ++ (if m.kind = .tempDc then putInt32 m.expiresIn else [])

/-! ## The server's share -/

structure ServerDhInnerData where
  nonce : Arr 16
  serverNonce : Arr 16
  g : Int32
  dhPrime : Bytes
  gA : Bytes
  serverTime : Int32
deriving DecidableEq

def ServerDhInnerData.encode (m : ServerDhInnerData) : Bytes :=
  putId serverDhInnerDataTypeId ++ putArr m.nonce ++ putArr m.serverNonce ++ putInt32 m.g ++ putBytes m.dhPrime
    ++ putBytes m.gA ++ putInt32 m.serverTime

def ServerDhInnerData.decode : Get ServerDhInnerData := do
  consumeId serverDhInnerDataTypeId
  let nonce ← getArr 16
  let serverNonce ← getArr 16
  let g ← int32
  let dhPrime ← getBytes
  let gA ← getBytes
  let serverTime ← int32
  return { nonce, serverNonce, g, dhPrime, gA, serverTime }

structure ServerDhParamsOk where
  nonce : Arr 16
  serverNonce : Arr 16
  encryptedAnswer : Bytes
deriving DecidableEq

def ServerDhParamsOk.encode (m : ServerDhParamsOk) : Bytes :=
  putId serverDhParamsOkTypeId ++ putArr m.nonce ++ putArr m.serverNonce ++ putBytes m.encryptedAnswer

def ServerDhParamsOk.decode : Get ServerDhParamsOk := do
  consumeId serverDhParamsOkTypeId
  let nonce ← getArr 16
  let serverNonce ← getArr 16
  let encryptedAnswer ← getBytes
  return { nonce, serverNonce, encryptedAnswer }

/-! ## The client's share -/

structure SetClientDhParams where
  nonce : Arr 16
  serverNonce : Arr 16
  encryptedData : Bytes
deriving DecidableEq

def SetClientDhParams.decode : Get SetClientDhParams := do
  consumeId setClientDhParamsTypeId
  let nonce ← getArr 16
  let serverNonce ← getArr 16
  let encryptedData ← getBytes
  return { nonce, serverNonce, encryptedData }

def SetClientDhParams.encode (m : SetClientDhParams) : Bytes :=
  putId setClientDhParamsTypeId ++ putArr m.nonce ++ putArr m.serverNonce ++ putBytes m.encryptedData

structure ClientDhInnerData where
  nonce : Arr 16
  serverNonce : Arr 16
  retryId : Int64
  gB : Bytes
deriving DecidableEq

def ClientDhInnerData.decode : Get ClientDhInnerData := do
  consumeId clientDhInnerDataTypeId
  let nonce ← getArr 16
  let serverNonce ← getArr 16
  let retryId ← long
  let gB ← getBytes
  return { nonce, serverNonce, retryId, gB }

def ClientDhInnerData.encode (m : ClientDhInnerData) : Bytes :=
  putId clientDhInnerDataTypeId ++ putArr m.nonce ++ putArr m.serverNonce ++ putLong m.retryId ++ putBytes m.gB

structure DhGenOk where
  nonce : Arr 16
  serverNonce : Arr 16
  newNonceHash1 : Arr 16
deriving DecidableEq

def DhGenOk.encode (m : DhGenOk) : Bytes :=
  putId dhGenOkTypeId ++ putArr m.nonce ++ putArr m.serverNonce ++ putArr m.newNonceHash1

def DhGenOk.decode : Get DhGenOk := do
  consumeId dhGenOkTypeId
  let nonce ← getArr 16
  let serverNonce ← getArr 16
  let newNonceHash1 ← getArr 16
  return { nonce, serverNonce, newNonceHash1 }

/-! ## Reading back

Every message reads back from the front of a buffer, whatever follows it. -/

theorem peekId_putId (id : UInt32) (rest : Bytes) : peekId (putId id ++ rest) = .ok id (putId id ++ rest) :=
  peekId_put id rest

section RoundTrip

variable (rest : Bytes)

theorem ReqPq.decode_encode {m : ReqPq} (h : m.typeId = reqPqRequestTypeId ∨ m.typeId = reqPqMultiRequestTypeId) :
    decode (m.encode ++ rest) = .ok m rest := by
  have hid : ¬(m.typeId ≠ reqPqRequestTypeId ∧ m.typeId ≠ reqPqMultiRequestTypeId) :=
    fun hne => h.elim hne.1 hne.2
  unfold decode encode
  rw [List.append_assoc, Get.bind_of_ok (peekId_putId _ _), if_neg hid]
  simp only [consumeId_bind_put, getArr_bind_put]
  rfl

theorem getTimes_long_put : ∀ (ids : List Int64) (rest : Bytes),
    getTimes long ids.length (ids.flatMap putLong ++ rest) = .ok ids rest
  | [], _ => rfl
  | id :: ids, rest => by
    rw [List.flatMap_cons, List.append_assoc, List.length_cons, getTimes, long_bind_put,
      Get.bind_of_ok (getTimes_long_put ids rest)]
    rfl

theorem ResPq.decode_encode {m : ResPq} (hpq : m.pq.length < 2 ^ 24)
    (hcount : m.serverPublicKeyFingerprints.length < 2 ^ 31) : decode (m.encode ++ rest) = .ok m rest := by
  have hn := vectorCount_of_lt hcount
  unfold decode encode
  simp only [List.append_assoc, consumeId_bind_put, getArr_bind_put]
  rw [getBytes_bind_put _ _ hpq, Get.bind_of_ok (vectorHeader_put _ _), hn, Get.bind_of_ok (getTimes_long_put _ _)]
  rfl

theorem ReqDhParams.decode_encode {m : ReqDhParams} (hp : m.p.length < 2 ^ 24) (hq : m.q.length < 2 ^ 24)
    (hdata : m.encryptedData.length < 2 ^ 24) : decode (m.encode ++ rest) = .ok m rest := by
  unfold decode encode
  simp only [List.append_assoc, consumeId_bind_put, getArr_bind_put]
  rw [getBytes_bind_put _ _ hp, getBytes_bind_put _ _ hq, long_bind_put, getBytes_bind_put _ _ hdata]
  rfl

theorem PqInnerDataKind.ofTypeId_typeId (kind : PqInnerDataKind) : ofTypeId kind.typeId rest = .ok kind rest := by
  cases kind <;> rfl

/-- **The three variants read back**, when a field that the variant lacks is zero. -/
theorem PqInnerData.decode_encode {m : PqInnerData} (hdc : m.kind = .plain → m.dc = 0)
    (hexpires : m.kind ≠ .tempDc → m.expiresIn = 0) (hpq : m.pq.length < 2 ^ 24) (hp : m.p.length < 2 ^ 24)
    (hq : m.q.length < 2 ^ 24) : decode (m.encode ++ rest) = .ok m rest := by
  obtain ⟨kind, pq, p, q, nonce, serverNonce, newNonce, dc, expiresIn⟩ := m
  unfold decode encode
  simp only [List.append_assoc]
  rw [Get.bind_of_ok (peekId_putId _ _), Get.bind_of_ok (PqInnerDataKind.ofTypeId_typeId _ kind)]
  simp only [consumeId_bind_put]
  rw [getBytes_bind_put _ _ hpq, getBytes_bind_put _ _ hp, getBytes_bind_put _ _ hq]
  simp only [getArr_bind_put]
  cases kind with
  | plain =>
    cases hdc rfl
    cases hexpires nofun
    rfl
  | dc =>
    cases hexpires nofun
    simp only [ne_eq, reduceCtorEq, not_false_eq_true, if_true, if_false, int32_bind_put, List.nil_append]
    rfl
  | tempDc =>
    simp only [ne_eq, reduceCtorEq, not_false_eq_true, if_true, int32_bind_put]
    rfl

theorem ServerDhInnerData.decode_encode {m : ServerDhInnerData} (hp : m.dhPrime.length < 2 ^ 24)
    (hg : m.gA.length < 2 ^ 24) : decode (m.encode ++ rest) = .ok m rest := by
  unfold decode encode
  simp only [List.append_assoc, consumeId_bind_put, getArr_bind_put, int32_bind_put]
  rw [getBytes_bind_put _ _ hp, getBytes_bind_put _ _ hg, int32_bind_put]
  rfl

theorem ServerDhParamsOk.decode_encode {m : ServerDhParamsOk} (h : m.encryptedAnswer.length < 2 ^ 24) :
    decode (m.encode ++ rest) = .ok m rest := by
  unfold decode encode
  simp only [List.append_assoc, consumeId_bind_put, getArr_bind_put]
  rw [getBytes_bind_put _ _ h]
  rfl

theorem SetClientDhParams.decode_encode {m : SetClientDhParams} (h : m.encryptedData.length < 2 ^ 24) :
    decode (m.encode ++ rest) = .ok m rest := by
  unfold decode encode
  simp only [List.append_assoc, consumeId_bind_put, getArr_bind_put]
  rw [getBytes_bind_put _ _ h]
  rfl

theorem ClientDhInnerData.decode_encode {m : ClientDhInnerData} (h : m.gB.length < 2 ^ 24) :
    decode (m.encode ++ rest) = .ok m rest := by
  unfold decode encode
  simp only [List.append_assoc, consumeId_bind_put, getArr_bind_put, long_bind_put]
  rw [getBytes_bind_put _ _ h]
  rfl

theorem DhGenOk.decode_encode (m : DhGenOk) : decode (m.encode ++ rest) = .ok m rest := by
  unfold decode encode
  simp only [List.append_assoc, consumeId_bind_put, getArr_bind_put]
  rfl

end RoundTrip

end ShuzaGram.Mtproto.Messages

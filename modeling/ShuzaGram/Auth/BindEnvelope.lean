import ShuzaGram.Auth.BindTempAuthKey
import ShuzaGram.Mtproto.Crypto.KdfV1

/-!
# The envelope of a binding

`mtproto/crypto/bind.cpp` and `mtproto/messages/bind.hpp`. A client proves that it has a permanent key
by encrypting `bind_auth_key_inner` under it. In front of the inner message stand 16 random bytes, a
message id, a sequence number and the length of the inner message, behind it the padding of the last
block. `msg_key` leaves the padding out.

The main result is `decryptBindAuthKeyInner_encryptBindMessage`: the server finds in an envelope what
the client put into it.
-/

namespace ShuzaGram.Auth

open Infra Mtproto Mtproto.Crypto

/-! ## The inner message -/

namespace BindAuthKeyInner

def typeId : UInt32 := 0x75a3f765

def encode (inner : BindAuthKeyInner) : Bytes :=
  putId typeId ++ putLong inner.nonce ++ putLong inner.tempAuthKeyId ++ putLong inner.permAuthKeyId
    ++ putLong inner.tempSessionId ++ putInt32 inner.expiresAt

def decodeBare : Get BindAuthKeyInner := do
  let nonce ← long
  let tempAuthKeyId ← long
  let permAuthKeyId ← long
  let tempSessionId ← long
  let expiresAt ← int32
  return { nonce, tempAuthKeyId, permAuthKeyId, tempSessionId, expiresAt }

@[simp] theorem length_encode (inner : BindAuthKeyInner) : inner.encode.length = 40 := by
  simp [encode]

end BindAuthKeyInner

/-- The body of an envelope. What follows the inner message is not looked at. -/
def decodeBindBody : Get BindAuthKeyInner := do
  let id ← peekId
  if id ≠ BindAuthKeyInner.typeId then throw .bindEncryptedMessageInvalid
  consumeId BindAuthKeyInner.typeId
  BindAuthKeyInner.decodeBare

theorem decodeBindBody_encode (inner : BindAuthKeyInner) : decodeBindBody inner.encode = .ok inner [] := by
  have hpeek : peekId inner.encode = .ok BindAuthKeyInner.typeId inner.encode := by
    simp only [BindAuthKeyInner.encode, List.append_assoc, putId]
    exact peekId_put _ _
  have hlast : int32 (putInt32 inner.expiresAt) = .ok inner.expiresAt [] := by
    simpa using int32_put inner.expiresAt []
  rw [decodeBindBody, Get.bind_of_ok hpeek, if_neg (fun h => h rfl)]
  simp only [BindAuthKeyInner.encode, BindAuthKeyInner.decodeBare, List.append_assoc, consumeId_bind_put,
    long_bind_put]
  rw [Get.bind_of_ok hlast]
  rfl

/-! ## Both sides -/

/-- `kEnvelopeHeaderLen`. -/
def envelopeHeaderLen : Nat := 16 + 8 + 4 + 4

/-- What one envelope draws from the random source. -/
structure EnvelopeRandom where
  first : Arr 16
  pad : Nat → UInt8

/-- An envelope before its padding. -/
def envelopePlaintext (msgId : Int64) (payload : Bytes) (rand : EnvelopeRandom) : Bytes :=
  rand.first.toList ++ putLong msgId ++ putInt32 0 ++ putInt32 (Int32.ofNat payload.length) ++ payload

def envelopePadding (plaintext : Bytes) (rand : EnvelopeRandom) : Bytes :=
  let rem := plaintext.length % 16
  if rem ≠ 0 then (List.range (16 - rem)).map rand.pad else []

/-- `EncryptBindMessage`. -/
def encryptBindMessage (P : Primitives) (permKey : AuthKeyBytes) (msgId : Int64) (inner : BindAuthKeyInner)
    (rand : EnvelopeRandom) : Except Exn Bytes := do
  if permKey.toList.all (· = 0) then throw (.invalidArgument "permanent key is zero")
  let plaintext := envelopePlaintext msgId inner.encode rand
  let msgKey := messageKeyV1 P plaintext
  let keys := keysV1 P permKey msgKey
  let data ← igeEncrypt P keys.1 keys.2 (plaintext ++ envelopePadding plaintext rand)
  return ({ authKeyId := authKeyId P permKey, msgKey, encryptedData := data } : EncryptedMessage).encode

/-- The length of the body, behind the fields that are not looked at. -/
def readEnvelopeHeader : Get Int32 := do
  let _ ← consumeN 16
  let _ ← long
  let _ ← int32
  int32

/-- The reading of a decrypted envelope; whatever it throws is reported as one exception. -/
def openEnvelope (P : Primitives) (msgKey : Arr 16) (plaintext : Bytes) : Except Exn BindAuthKeyInner :=
  match readEnvelopeHeader plaintext with
  | .error _ _ => .error .bindEncryptedMessageInvalid
  | .ok msgLen _ =>
    if msgLen.toInt ≤ 0 then .error .bindEncryptedMessageInvalid
    else
      let bodyEnd := envelopeHeaderLen + msgLen.toInt.toNat
      if bodyEnd > plaintext.length then .error .bindEncryptedMessageInvalid
      else if msgKey ≠ messageKeyV1 P (plaintext.take bodyEnd) then .error .bindEncryptedMessageInvalid
      else
        match decodeBindBody ((plaintext.take bodyEnd).drop envelopeHeaderLen) with
        | .error _ _ => .error .bindEncryptedMessageInvalid
        | .ok inner _ => .ok inner

/-- `DecryptBindAuthKeyInner`. -/
def decryptBindAuthKeyInner (P : Primitives) (permKey : AuthKeyBytes) (encryptedMessage : Bytes) :
    Except Exn BindAuthKeyInner :=
  match EncryptedMessage.decode encryptedMessage with
  | .error _ _ => .error .bindEncryptedMessageInvalid
  | .ok msg _ => do
    if msg.authKeyId ≠ authKeyId P permKey ∨ msg.encryptedData = [] ∨ msg.encryptedData.length % 16 ≠ 0 then
      throw .bindEncryptedMessageInvalid
    let keys := keysV1 P permKey msg.msgKey
    let plaintext ← igeDecrypt P keys.1 keys.2 msg.encryptedData
    if plaintext.length < envelopeHeaderLen then throw .bindEncryptedMessageInvalid
    openEnvelope P msg.msgKey plaintext

/-- The envelopes as `BindTempAuthKey` opens them, which catches one exception only. -/
def openBindAuthKeyInner (P : Primitives) : OpenBindAuthKeyInner := fun permKey encryptedMessage =>
  (decryptBindAuthKeyInner P permKey encryptedMessage).toOption

/-! ## One exception -/

theorem openEnvelope_error {P : Primitives} {msgKey : Arr 16} {plaintext : Bytes} {e : Exn}
    (h : openEnvelope P msgKey plaintext = .error e) : e = .bindEncryptedMessageInvalid := by
  unfold openEnvelope at h
  split at h
  · exact (Except.error.inj h).symm
  · simp only at h
    split at h
    · exact (Except.error.inj h).symm
    · split at h
      · exact (Except.error.inj h).symm
      · split at h
        · exact (Except.error.inj h).symm
        · split at h
          · exact (Except.error.inj h).symm
          · cases h

/-- **Whatever is wrong with an envelope, the exception is the same.** The cipher itself never refuses:
key and iv have the right lengths, and the blocks are whole. -/
theorem decryptBindAuthKeyInner_error {P : Primitives} {permKey : AuthKeyBytes} {encryptedMessage : Bytes} {e : Exn}
    (h : decryptBindAuthKeyInner P permKey encryptedMessage = .error e) : e = .bindEncryptedMessageInvalid := by
  unfold decryptBindAuthKeyInner at h
  split at h
  · exact (Except.error.inj h).symm
  · next msg _ _ =>
    by_cases hbad : msg.authKeyId ≠ authKeyId P permKey ∨ msg.encryptedData = [] ∨ msg.encryptedData.length % 16 ≠ 0
    · rw [if_pos hbad] at h
      exact (Except.error.inj h).symm
    · rw [if_neg hbad] at h
      have hblocks : 16 ∣ msg.encryptedData.length := by omega
      simp only [igeDecrypt_eq_ok (igeArgs_keysV1 P permKey msg.msgKey hblocks), ok_bind] at h
      split at h
      · exact (Except.error.inj h).symm
      · exact openEnvelope_error h

/-! ## What one side wrote, the other side finds -/

@[simp] theorem length_envelopePlaintext (msgId : Int64) (payload : Bytes) (rand : EnvelopeRandom) :
    (envelopePlaintext msgId payload rand).length = envelopeHeaderLen + payload.length := by
  simp only [envelopePlaintext, envelopeHeaderLen, List.length_append, Arr.length_toList, length_putLong, length_putInt32]

theorem sixteen_dvd_padded (plaintext : Bytes) (rand : EnvelopeRandom) :
    16 ∣ (plaintext ++ envelopePadding plaintext rand).length := by
  unfold envelopePadding
  simp only
  split
  · rw [List.length_append, List.length_map, List.length_range]
    omega
  · rw [List.append_nil]
    omega

theorem readEnvelopeHeader_put (msgId : Int64) (payload : Bytes) (rand : EnvelopeRandom) (rest : Bytes) :
    readEnvelopeHeader (envelopePlaintext msgId payload rand ++ rest) =
      .ok (Int32.ofNat payload.length) (payload ++ rest) := by
  unfold readEnvelopeHeader envelopePlaintext
  simp only [List.append_assoc]
  rw [Get.bind_of_ok (consumeN_append rand.first.length_eq)]
  simp only [long_bind_put, int32_bind_put]
  exact int32_put _ _

/-- The padding is not part of what `msg_key` covers, and the length finds it. -/
theorem openEnvelope_envelopePlaintext (P : Primitives) (msgId : Int64) (inner : BindAuthKeyInner)
    (rand : EnvelopeRandom) (padding : Bytes) :
    openEnvelope P (messageKeyV1 P (envelopePlaintext msgId inner.encode rand))
      (envelopePlaintext msgId inner.encode rand ++ padding) = .ok inner := by
  have hlen : (Int32.ofNat inner.encode.length).toInt = 40 := by
    rw [BindAuthKeyInner.length_encode]
    decide
  have hend : (envelopePlaintext msgId inner.encode rand).length = envelopeHeaderLen + (40 : Int).toNat := by
    rw [length_envelopePlaintext, BindAuthKeyInner.length_encode]
    rfl
  have hbody : (envelopePlaintext msgId inner.encode rand).drop envelopeHeaderLen = inner.encode :=
    List.drop_left' (by simp [envelopeHeaderLen])
  unfold openEnvelope
  rw [readEnvelopeHeader_put]
  simp only [hlen]
  rw [if_neg (by decide), ← hend, if_neg (by rw [List.length_append]; omega), List.take_left' rfl,
    if_neg (fun h => h rfl), hbody, decodeBindBody_encode]

/-- The message that carries a padded envelope. -/
def sealEnvelope (P : Primitives) (permKey : AuthKeyBytes) (msgKey : Arr 16) (padded : Bytes) : EncryptedMessage where
  authKeyId := authKeyId P permKey
  msgKey := msgKey
  encryptedData := encryptBlocks P (keysV1 P permKey msgKey).1 (keysV1 P permKey msgKey).2 padded

/-- A key that is not zero encrypts. -/
theorem encryptBindMessage_eq_ok (P : Primitives) {permKey : AuthKeyBytes} (hkey : permKey ≠ Arr.zero 256)
    (msgId : Int64) (inner : BindAuthKeyInner) (rand : EnvelopeRandom) :
    encryptBindMessage P permKey msgId inner rand =
      let plaintext := envelopePlaintext msgId inner.encode rand
      .ok (sealEnvelope P permKey (messageKeyV1 P plaintext) (plaintext ++ envelopePadding plaintext rand)).encode := by
  have hnonzero : permKey.toList.all (· = 0) = false := by
    rw [Bool.eq_false_iff]
    intro hall
    refine hkey (Arr.ext (List.eq_replicate_iff.mpr ⟨permKey.length_eq, fun b hb => ?_⟩))
    simpa using List.all_eq_true.mp hall b hb
  unfold encryptBindMessage
  rw [if_neg (by rw [hnonzero]; decide)]
  simp only [igeEncrypt_eq_ok (igeArgs_keysV1 P permKey _ (sixteen_dvd_padded _ rand))]
  rfl

theorem exists_encryptBindMessage (P : Primitives) {permKey : AuthKeyBytes} (hkey : permKey ≠ Arr.zero 256)
    (msgId : Int64) (inner : BindAuthKeyInner) (rand : EnvelopeRandom) :
    ∃ message, encryptBindMessage P permKey msgId inner rand = .ok message :=
  ⟨_, encryptBindMessage_eq_ok P hkey msgId inner rand⟩

/-- A sealed envelope passes every check up to its header. -/
theorem decryptBindAuthKeyInner_sealEnvelope (P : Primitives) (permKey : AuthKeyBytes) (msgKey : Arr 16)
    {padded : Bytes} (hblocks : 16 ∣ padded.length) (hheader : envelopeHeaderLen ≤ padded.length) :
    decryptBindAuthKeyInner P permKey (sealEnvelope P permKey msgKey padded).encode = openEnvelope P msgKey padded := by
  have hdata : (sealEnvelope P permKey msgKey padded).encryptedData.length = padded.length := length_encryptBlocks hblocks
  have hsome : (sealEnvelope P permKey msgKey padded).encryptedData ≠ [] := by
    intro hnil
    rw [hnil, List.length_nil] at hdata
    unfold envelopeHeaderLen at hheader
    omega
  have hwhole : (sealEnvelope P permKey msgKey padded).encryptedData.length % 16 = 0 := by
    rw [hdata]
    exact Nat.mod_eq_zero_of_dvd hblocks
  have hplain : igeDecrypt P (keysV1 P permKey msgKey).1 (keysV1 P permKey msgKey).2
      (sealEnvelope P permKey msgKey padded).encryptedData = .ok padded :=
    igeDecrypt_encryptBlocks (igeArgs_keysV1 P permKey msgKey hblocks)
  unfold decryptBindAuthKeyInner
  rw [EncryptedMessage.decode_encode]
  simp only
  rw [if_neg ?accepted]
  · simp only [show (sealEnvelope P permKey msgKey padded).msgKey = msgKey from rfl, hplain, ok_bind]
    rw [if_neg (Nat.not_lt.mpr hheader)]
  case accepted =>
    rintro (hid | hnil | hrem)
    · exact hid rfl
    · exact hsome hnil
    · exact hrem hwhole

/-- **The server finds in an envelope what the client put into it.** -/
theorem decryptBindAuthKeyInner_encryptBindMessage (P : Primitives) {permKey : AuthKeyBytes}
    (hkey : permKey ≠ Arr.zero 256) {msgId : Int64} {inner : BindAuthKeyInner} {rand : EnvelopeRandom} {message : Bytes}
    (h : encryptBindMessage P permKey msgId inner rand = .ok message) :
    decryptBindAuthKeyInner P permKey message = .ok inner := by
  rw [encryptBindMessage_eq_ok P hkey] at h
  obtain rfl := Except.ok.inj h
  have hheader : envelopeHeaderLen ≤ (envelopePlaintext msgId inner.encode rand ++
      envelopePadding (envelopePlaintext msgId inner.encode rand) rand).length := by
    rw [List.length_append, length_envelopePlaintext]
    omega
  rw [decryptBindAuthKeyInner_sealEnvelope P permKey _ (sixteen_dvd_padded _ rand) hheader]
  exact openEnvelope_envelopePlaintext P msgId inner rand _

end ShuzaGram.Auth

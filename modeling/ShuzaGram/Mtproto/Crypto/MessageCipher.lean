import ShuzaGram.Mtproto.TlBuffer
import ShuzaGram.Mtproto.Crypto.AesIge

/-!
# The message cipher

`mtproto/crypto/message_cipher.cpp`: MTProto 2.0 encryption of ordinary messages under an auth key.
The plaintext is a 32-byte header, the message data and 12 to 1024 bytes of padding; `msg_key` is a
hash of the padded plaintext and selects the AES key and iv.

The main result is `decryptMessage_sealed`: the opposite side reads back exactly what was
encrypted.
-/

namespace ShuzaGram.Mtproto.Crypto

open Infra

abbrev AuthKeyBytes := Arr 256

inductive Side where
  | client
  | server
deriving DecidableEq

def oppositeSide : Side → Side
  | .client => .server
  | .server => .client

@[simp] theorem oppositeSide_oppositeSide (s : Side) : oppositeSide (oppositeSide s) = s := by
  cases s <;> rfl

def sideOffset : Side → Nat
  | .client => 0
  | .server => 8

/-- `substr(b, start, len)`. -/
def substr (b : Bytes) (start len : Nat) : Bytes := (b.drop start).take len

theorem length_substr {b : Bytes} {start len : Nat} (h : start + len ≤ b.length) :
    (substr b start len).length = len := by
  rw [substr, List.length_take, List.length_drop]
  omega

/-- `AuthKeyId`: the last 8 bytes of the key's SHA-1. -/
def authKeyId (P : Primitives) (authKey : AuthKeyBytes) : Arr 8 :=
  Arr.ofList 8 (substr (P.sha1 authKey.toList).toList 12 8)

/-- `MessageKey`: 16 bytes from the middle of a SHA-256. -/
def messageKey (P : Primitives) (authKey : AuthKeyBytes) (plaintextPadded : Bytes) (side : Side) :
    Arr 16 :=
  let x := sideOffset side
  let large := P.sha256 (substr authKey.toList (88 + x) 32 ++ plaintextPadded)
  Arr.ofList 16 (substr large.toList 8 16)

/-- `ComposeKeyOrIv`. -/
def composeKeyOrIv (a b : Arr 32) : Bytes :=
  substr a.toList 0 8 ++ substr b.toList 8 16 ++ substr a.toList 24 8

/-- `DeriveMessageKeys`: the AES key and iv; the iv swaps the two digests. -/
def deriveMessageKeys (P : Primitives) (authKey : AuthKeyBytes) (msgKey : Arr 16) (side : Side) :
    Bytes × Bytes :=
  let x := sideOffset side
  let a := P.sha256 (msgKey.toList ++ substr authKey.toList x 36)
  let b := P.sha256 (substr authKey.toList (40 + x) 36 ++ msgKey.toList)
  (composeKeyOrIv a b, composeKeyOrIv b a)

/-- `CountPadding`, in `int` arithmetic. -/
def countPadding (plaintextLen : Int) (randByte : UInt8) : Int :=
  let padding := Int.tmod (16 - Int.tmod plaintextLen 16) 16
  let padding := if padding < 12 then padding + 16 else padding
  padding + (randByte &&& 0x0F).toNat * 16

/-- The decrypted content of a message, without its padding. -/
structure EncryptedMessageData where
  salt : Int64
  sessionId : Int64
  messageId : Int64
  seqNo : Int32
  messageData : Bytes
deriving DecidableEq

/-- The wire envelope. -/
structure EncryptedMessage where
  authKeyId : Arr 8
  msgKey : Arr 16
  encryptedData : Bytes
deriving DecidableEq

namespace EncryptedMessage

def encode (m : EncryptedMessage) : Bytes := putArr m.authKeyId ++ putArr m.msgKey ++ m.encryptedData

/-- What is left of the buffer. -/
def takeRest : Get Bytes := fun b => .ok b []

/-- `EncryptedMessage::Decode`: everything behind the two fixed fields is encrypted data. -/
def decode : Get EncryptedMessage := fun b =>
  if b.length < 24 then .error .bufferUnderrun b
  else (do
    let authKeyId ← getArr 8
    let msgKey ← getArr 16
    let encryptedData ← takeRest
    return { authKeyId, msgKey, encryptedData } : Get EncryptedMessage) b

/-- **The envelope reads back.** -/
theorem decode_encode (m : EncryptedMessage) : decode m.encode = .ok m [] := by
  have hlen : ¬ m.encode.length < 24 := by
    simp only [encode, List.length_append, length_putArr]
    omega
  rw [decode, if_neg hlen]
  simp only [encode, List.append_assoc, getArr_bind_put]
  rfl

end EncryptedMessage

/-- What one encryption draws from the random source: the byte that stretches the padding and the
padding itself. -/
structure CipherRandom where
  randByte : UInt8
  pad : Nat → UInt8

/-- The plaintext before padding. -/
def plaintextHeader (d : EncryptedMessageData) : Bytes :=
  putLong d.salt ++ putLong d.sessionId ++ putLong d.messageId ++ putInt32 d.seqNo
    ++ putInt32 (Int32.ofNat d.messageData.length)

def paddedPlaintext (d : EncryptedMessageData) (rand : CipherRandom) : Bytes :=
  let plaintext := plaintextHeader d ++ d.messageData
  let padding := countPadding (Int32.ofNat plaintext.length).toInt rand.randByte
  plaintext ++ (List.range padding.toNat).map rand.pad

def encryptMessage (P : Primitives) (authKey : AuthKeyBytes) (d : EncryptedMessageData)
    (encryptAs : Side) (rand : CipherRandom) : Except Exn EncryptedMessage := do
  let plaintext := paddedPlaintext d rand
  let msgKey := messageKey P authKey plaintext encryptAs
  let keys := deriveMessageKeys P authKey msgKey encryptAs
  let data ← igeEncrypt P keys.1 keys.2 plaintext
  return { authKeyId := authKeyId P authKey, msgKey := msgKey, encryptedData := data }

def maxPadding : Int := 1024

/-- The fields of a plaintext, read one after another; the buffer keeps the data and padding. -/
def readPlaintextHeader : Get (Int64 × Int64 × Int64 × Int32 × Int32) := do
  let salt ← long
  let sessionId ← long
  let messageId ← long
  let seqNo ← int32
  let messageDataLen ← int32
  return (salt, sessionId, messageId, seqNo, messageDataLen)

/-- The checks on the declared length, and the data they leave. -/
def parsePlaintext (plaintext : Bytes) : Except Exn EncryptedMessageData :=
  match readPlaintextHeader plaintext with
  | .error e _ => .error e
  | .ok (salt, sessionId, messageId, seqNo, messageDataLen) b =>
    let remaining := (Int32.ofNat b.length).toInt
    let len := messageDataLen.toInt
    if len < 0 then .error (.runtimeError "message length is invalid: negative")
    else if Int.tmod len 4 ≠ 0 then
      .error (.runtimeError "message length is invalid: not divisible by 4")
    else if remaining < len then .error (.runtimeError "message length exceeds available data")
    else if maxPadding < remaining - len then .error (.runtimeError "padding of message is too big")
    else .ok { salt, sessionId, messageId, seqNo, messageData := b.take len.toNat }

def decryptMessage (P : Primitives) (authKey : AuthKeyBytes) (encrypted : EncryptedMessage)
    (decryptAs : Side) : Except Exn EncryptedMessageData := do
  if encrypted.authKeyId ≠ authKeyId P authKey then
    throw (.runtimeError "unknown auth key id")
  if encrypted.encryptedData.length % 16 ≠ 0 then
    throw (.runtimeError "invalid encrypted data padding")
  let senderSide := oppositeSide decryptAs
  let keys := deriveMessageKeys P authKey encrypted.msgKey senderSide
  let plaintext ← igeDecrypt P keys.1 keys.2 encrypted.encryptedData
  if messageKey P authKey plaintext senderSide ≠ encrypted.msgKey then
    throw (.runtimeError "msg_key is invalid")
  if plaintext.length < 32 then
    throw (.runtimeError "encrypted message data too short")
  parsePlaintext plaintext

/-! ## Lengths -/

theorem length_composeKeyOrIv (a b : Arr 32) : (composeKeyOrIv a b).length = 32 := by
  unfold composeKeyOrIv
  rw [List.length_append, List.length_append, length_substr (by simp), length_substr (by simp),
    length_substr (by simp)]

@[simp] theorem length_plaintextHeader (d : EncryptedMessageData) :
    (plaintextHeader d).length = 32 := by
  simp [plaintextHeader]

/-- The C++ remainder by 16 and its quotient. -/
theorem tmod_sixteen (x : Int) :
    ∃ q, x = 16 * q + Int.tmod x 16 ∧ -16 < Int.tmod x 16 ∧ Int.tmod x 16 < 16 :=
  ⟨x.tdiv 16, (Int.mul_tdiv_add_tmod x 16).symm, Int.lt_tmod_of_pos x (by decide),
    Int.tmod_lt_of_pos x (by decide)⟩

theorem and_fifteen_le (r : UInt8) : (r &&& 0x0F).toNat ≤ 15 := by
  rw [UInt8.toNat_and]
  exact Nat.and_le_right

/-- A length cut to 32 bits keeps its remainder by 16. -/
theorem toInt_ofNat_sixteen (n : Nat) : ∃ k, (n : Int) = (Int32.ofNat n).toInt + 16 * k := by
  rw [Int32.toInt_ofNat', Int.bmod_def]
  refine ⟨((n : Int) - if (n : Int) % Int32.size < (Int32.size + 1) / 2 then (n : Int) % Int32.size
    else (n : Int) % Int32.size - Int32.size) / 16, ?_⟩
  simp only [Int32.size]
  split <;> omega

/-- The padding completes the plaintext to whole blocks, for every length and every byte. -/
theorem countPadding_spec (n : Nat) (r : UInt8) :
    12 ≤ countPadding (Int32.ofNat n).toInt r ∧ countPadding (Int32.ofNat n).toInt r ≤ 267 ∧
      16 ∣ (n : Int) + countPadding (Int32.ofNat n).toInt r := by
  obtain ⟨k, hk⟩ := toInt_ofNat_sixteen n
  generalize (Int32.ofNat n).toInt = x at hk ⊢
  obtain ⟨q, hq, hlo, hhi⟩ := tmod_sixteen x
  have hr := and_fifteen_le r
  unfold countPadding
  -- the first remainder is above -16, so the second one is of a positive number
  rw [Int.tmod_eq_emod_of_nonneg (by omega)]
  simp only
  split <;> refine ⟨by omega, by omega, ?_⟩ <;> omega

theorem sixteen_dvd_length_paddedPlaintext (d : EncryptedMessageData) (rand : CipherRandom) :
    16 ∣ (paddedPlaintext d rand).length := by
  obtain ⟨hlo, -, hdvd⟩ :=
    countPadding_spec (plaintextHeader d ++ d.messageData).length rand.randByte
  simp only [paddedPlaintext, List.length_append, List.length_map, List.length_range] at *
  omega

theorem igeArgs_paddedPlaintext (P : Primitives) (authKey : AuthKeyBytes) (msgKey : Arr 16)
    (side : Side) {data : Bytes} (h : 16 ∣ data.length) :
    IgeArgs (deriveMessageKeys P authKey msgKey side).1 (deriveMessageKeys P authKey msgKey side).2
      data :=
  ⟨.inr (.inr (length_composeKeyOrIv _ _)), length_composeKeyOrIv _ _, h⟩

/-! ## Encryption and decryption -/

/-- The message that `encryptMessage` builds. -/
def sealed (P : Primitives) (authKey : AuthKeyBytes) (d : EncryptedMessageData) (encryptAs : Side)
    (rand : CipherRandom) : EncryptedMessage :=
  let plaintext := paddedPlaintext d rand
  let msgKey := messageKey P authKey plaintext encryptAs
  let keys := deriveMessageKeys P authKey msgKey encryptAs
  { authKeyId := authKeyId P authKey
    msgKey := msgKey
    encryptedData := encryptBlocks P keys.1 keys.2 plaintext }

/-- Encryption never throws: key and iv have the right lengths and the padding fills the last
block. -/
theorem encryptMessage_eq_ok (P : Primitives) (authKey : AuthKeyBytes) (d : EncryptedMessageData)
    (encryptAs : Side) (rand : CipherRandom) :
    encryptMessage P authKey d encryptAs rand = .ok (sealed P authKey d encryptAs rand) := by
  have hargs := igeArgs_paddedPlaintext P authKey
    (messageKey P authKey (paddedPlaintext d rand) encryptAs) encryptAs
    (sixteen_dvd_length_paddedPlaintext d rand)
  simp only [encryptMessage, igeEncrypt_eq_ok hargs]
  rfl

theorem readPlaintextHeader_put (d : EncryptedMessageData) (rest : Bytes) :
    readPlaintextHeader (plaintextHeader d ++ rest) =
      .ok (d.salt, d.sessionId, d.messageId, d.seqNo, Int32.ofNat d.messageData.length) rest := by
  unfold readPlaintextHeader plaintextHeader
  simp only [List.append_assoc, long_bind_put, int32_bind_put]
  rfl

/-- Reading a padded plaintext gives back the message it was built from. The length has to be a
whole number of words and to leave room for the padding below `2 ^ 31`. -/
theorem parsePlaintext_paddedPlaintext {d : EncryptedMessageData} (rand : CipherRandom)
    (hword : 4 ∣ d.messageData.length) (hlen : d.messageData.length < 2 ^ 31 - 2 ^ 11) :
    parsePlaintext (paddedPlaintext d rand) = .ok d := by
  obtain ⟨hlo, hhi, -⟩ :=
    countPadding_spec (plaintextHeader d ++ d.messageData).length rand.randByte
  unfold parsePlaintext paddedPlaintext
  simp only [List.append_assoc, readPlaintextHeader_put]
  generalize countPadding _ rand.randByte = padding at hlo hhi ⊢
  have hn : (Int32.ofNat d.messageData.length).toInt = d.messageData.length :=
    Int32.toInt_ofNat_of_lt (by omega)
  have hrest : (Int32.ofNat
      (d.messageData ++ (List.range padding.toNat).map rand.pad).length).toInt =
      d.messageData.length + padding := by
    rw [Int32.toInt_ofNat_of_lt] <;> simp <;> omega
  have hmod : Int.tmod (d.messageData.length : Int) 4 = 0 := by
    rw [Int.tmod_eq_emod_of_nonneg (by omega)]
    omega
  rw [hn, hrest, if_neg (by omega), if_neg (by rw [hmod]; simp), if_neg (by omega),
    if_neg (by unfold maxPadding; omega)]
  simp

def notDivisible : Exn := .runtimeError "message length is invalid: not divisible by 4"

/-- The length check lets whole words through, however many. -/
theorem parsePlaintext_ne_notDivisible {d : EncryptedMessageData} (rand : CipherRandom)
    (hword : 4 ∣ d.messageData.length) : parsePlaintext (paddedPlaintext d rand) ≠ .error notDivisible := by
  have hmod : Int.tmod (Int32.ofNat d.messageData.length).toInt 4 = 0 := by
    obtain ⟨k, hk⟩ := toInt_ofNat_sixteen d.messageData.length
    exact Int.tmod_eq_zero_of_dvd (by omega)
  unfold parsePlaintext paddedPlaintext notDivisible
  simp only [List.append_assoc, readPlaintextHeader_put, hmod]
  split
  · simp
  · split
    · contradiction
    · split
      · simp
      · split <;> simp

/-- The message that carries a padded plaintext, whatever its padding is. -/
def sealPlaintext (P : Primitives) (authKey : AuthKeyBytes) (plaintext : Bytes) (encryptAs : Side) :
    EncryptedMessage :=
  let msgKey := messageKey P authKey plaintext encryptAs
  let keys := deriveMessageKeys P authKey msgKey encryptAs
  { authKeyId := authKeyId P authKey
    msgKey := msgKey
    encryptedData := encryptBlocks P keys.1 keys.2 plaintext }

theorem sealed_eq (P : Primitives) (authKey : AuthKeyBytes) (d : EncryptedMessageData) (encryptAs : Side)
    (rand : CipherRandom) :
    sealed P authKey d encryptAs rand = sealPlaintext P authKey (paddedPlaintext d rand) encryptAs := rfl

/-- A sealed plaintext passes every check up to its declared length. -/
theorem decryptMessage_sealPlaintext (P : Primitives) (authKey : AuthKeyBytes) {plaintext : Bytes}
    (encryptAs : Side) (hblocks : 16 ∣ plaintext.length) (hheader : 32 ≤ plaintext.length) :
    decryptMessage P authKey (sealPlaintext P authKey plaintext encryptAs) (oppositeSide encryptAs) =
      parsePlaintext plaintext := by
  have hargs := igeArgs_paddedPlaintext P authKey (messageKey P authKey plaintext encryptAs) encryptAs hblocks
  have hdata : (sealPlaintext P authKey plaintext encryptAs).encryptedData.length % 16 = 0 := by
    rw [sealPlaintext, length_encryptBlocks hblocks]
    exact Nat.mod_eq_zero_of_dvd hblocks
  unfold decryptMessage
  rw [if_neg (by simp [sealPlaintext]), if_neg (by simp [hdata])]
  simp only [oppositeSide_oppositeSide]
  simp only [sealPlaintext, igeDecrypt_encryptBlocks hargs]
  show (do
    if messageKey P authKey plaintext encryptAs ≠ _ then _
    if plaintext.length < 32 then _
    parsePlaintext plaintext) = parsePlaintext plaintext
  rw [if_neg (by simp), if_neg (Nat.not_lt.mpr hheader)]

/-- **The opposite side reads back exactly the message that was encrypted.** -/
theorem decryptMessage_sealed (P : Primitives) (authKey : AuthKeyBytes) {d : EncryptedMessageData}
    (encryptAs : Side) (rand : CipherRandom)
    (hword : 4 ∣ d.messageData.length) (hlen : d.messageData.length < 2 ^ 31 - 2 ^ 11) :
    decryptMessage P authKey (sealed P authKey d encryptAs rand) (oppositeSide encryptAs) = .ok d := by
  have hlong : 32 ≤ (paddedPlaintext d rand).length := by
    simp [paddedPlaintext]
  rw [sealed_eq, decryptMessage_sealPlaintext P authKey encryptAs
    (sixteen_dvd_length_paddedPlaintext d rand) hlong]
  exact parsePlaintext_paddedPlaintext rand hword hlen

/-- The padding of a plaintext. -/
def plaintextPadding (d : EncryptedMessageData) (rand : CipherRandom) : Bytes :=
  (paddedPlaintext d rand).drop (32 + d.messageData.length)

theorem paddedPlaintext_eq (d : EncryptedMessageData) (rand : CipherRandom) :
    paddedPlaintext d rand = plaintextHeader d ++ d.messageData ++ plaintextPadding d rand := by
  have hlen : (plaintextHeader d ++ d.messageData).length = 32 + d.messageData.length := by simp
  unfold plaintextPadding paddedPlaintext
  rw [List.drop_left' hlen]

theorem length_plaintextPadding (d : EncryptedMessageData) (rand : CipherRandom) :
    12 ≤ (plaintextPadding d rand).length ∧ (plaintextPadding d rand).length ≤ maxPadding := by
  obtain ⟨hlo, hhi, -⟩ := countPadding_spec (plaintextHeader d ++ d.messageData).length rand.randByte
  have hlen : (plaintextHeader d ++ d.messageData).length = 32 + d.messageData.length := by simp
  unfold plaintextPadding paddedPlaintext
  rw [List.drop_left' hlen, List.length_map, List.length_range]
  unfold maxPadding
  omega

/-- **Message cipher round trip.** An encrypted message travels in an envelope that reads back, and the
opposite side finds in it what was encrypted, in whole blocks with 12 to 1024 bytes of padding. -/
theorem encryptMessage_roundTrip (P : Primitives) (authKey : AuthKeyBytes) {d : EncryptedMessageData} (side : Side)
    (rand : CipherRandom) (hword : 4 ∣ d.messageData.length) (hlen : d.messageData.length < 2 ^ 31 - 2 ^ 11) :
    ∃ m padding, encryptMessage P authKey d side rand = .ok m ∧
      EncryptedMessage.decode m.encode = .ok m [] ∧
      decryptMessage P authKey m (oppositeSide side) = .ok d ∧
      igeDecrypt P (deriveMessageKeys P authKey m.msgKey side).1 (deriveMessageKeys P authKey m.msgKey side).2
          m.encryptedData = .ok (plaintextHeader d ++ d.messageData ++ padding) ∧
      16 ∣ (plaintextHeader d ++ d.messageData ++ padding).length ∧
      12 ≤ padding.length ∧ padding.length ≤ maxPadding := by
  have hdvd := sixteen_dvd_length_paddedPlaintext d rand
  have hargs := igeArgs_paddedPlaintext P authKey (messageKey P authKey (paddedPlaintext d rand) side) side hdvd
  obtain ⟨hlo, hhi⟩ := length_plaintextPadding d rand
  refine ⟨sealed P authKey d side rand, plaintextPadding d rand, encryptMessage_eq_ok P authKey d side rand,
    EncryptedMessage.decode_encode _, decryptMessage_sealed P authKey side rand hword hlen, ?_, ?_, hlo, hhi⟩
  · rw [← paddedPlaintext_eq]
    exact igeDecrypt_encryptBlocks hargs
  · rw [← paddedPlaintext_eq]
    exact hdvd

/-- Hashes that forget everything, and a cipher that does nothing. -/
def blankPrimitives : Primitives where
  sha1 _ := Arr.zero 20
  sha256 _ := Arr.zero 32
  aes _ := Equiv.refl _

theorem encryptMessage_roundTrip_sample :
    ∃ m, encryptMessage blankPrimitives (Arr.zero 256)
        { salt := 1, sessionId := -2, messageId := 3, seqNo := 4, messageData := [5, 6, 7, 8] } .client
        { randByte := 0xff, pad := fun _ => 9 } = .ok m ∧
      decryptMessage blankPrimitives (Arr.zero 256) m .server =
        .ok { salt := 1, sessionId := -2, messageId := 3, seqNo := 4, messageData := [5, 6, 7, 8] } := by
  obtain ⟨m, -, henc, -, hdec, -⟩ := encryptMessage_roundTrip blankPrimitives (Arr.zero 256)
    (d := { salt := 1, sessionId := -2, messageId := 3, seqNo := 4, messageData := [5, 6, 7, 8] }) .client
    { randByte := 0xff, pad := fun _ => 9 } (by decide) (by decide)
  exact ⟨m, henc, hdec⟩

end ShuzaGram.Mtproto.Crypto

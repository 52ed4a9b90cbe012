import ShuzaGram.Mtproto.Crypto.MessageCipher

/-!
# The padding of a received message

A plaintext is a 32-byte header, the data whose length the header declares, and padding. MTProto 2.0 asks
for 12 to 1024 bytes of padding. `decryptMessage` refuses more than 1024 bytes and never refuses fewer than
12, and it measures what is behind the header in 32 bits.

An accepted message therefore has this form exactly when it is not one of two kinds: its padding is short,
or the size behind the header does not fit in 32 bits.
-/

namespace ShuzaGram.Mtproto.Crypto

open Infra

/-- The plaintext of a message. -/
def decryptedPlaintext (P : Primitives) (authKey : AuthKeyBytes) (encrypted : EncryptedMessage)
    (decryptAs : Side) : Bytes :=
  let keys := deriveMessageKeys P authKey encrypted.msgKey (oppositeSide decryptAs)
  decryptBlocks P keys.1 keys.2 encrypted.encryptedData

/-- The checks before the declared length is read. -/
structure Authentic (P : Primitives) (authKey : AuthKeyBytes) (encrypted : EncryptedMessage)
    (decryptAs : Side) : Prop where
  authKeyId : encrypted.authKeyId = authKeyId P authKey
  blocks : 16 ∣ encrypted.encryptedData.length
  msgKey : messageKey P authKey (decryptedPlaintext P authKey encrypted decryptAs) (oppositeSide decryptAs) =
    encrypted.msgKey
  header : 32 ≤ (decryptedPlaintext P authKey encrypted decryptAs).length

/-- The length that the header declares for the data. -/
def declaredLength (plaintext : Bytes) : Int :=
  (UInt32.ofNat (ofLE (substr plaintext 28 4))).toInt32.toInt

/-- The number of bytes behind the header. -/
def roomBehindHeader (plaintext : Bytes) : Nat := plaintext.length - 32

/-- A plaintext is the header, the data and 12 to 1024 bytes of padding. -/
def WellPadded (plaintext : Bytes) (d : EncryptedMessageData) : Prop :=
  ∃ padding : Bytes, plaintext = plaintextHeader d ++ d.messageData ++ padding ∧
    (d.messageData.length : Int) = declaredLength plaintext ∧ 12 ≤ padding.length ∧ padding.length ≤ maxPadding

/-- The declared length leaves fewer than 12 bytes of padding. -/
structure ShortPadding (plaintext : Bytes) : Prop where
  nonneg : 0 ≤ declaredLength plaintext
  words : 4 ∣ declaredLength plaintext
  fits : declaredLength plaintext ≤ roomBehindHeader plaintext
  short : (roomBehindHeader plaintext : Int) < declaredLength plaintext + 12
  small : roomBehindHeader plaintext < 2 ^ 31

/-- The size behind the header is cut to 32 bits, and what is left of it passes for the data and its
padding. -/
structure WrappedRoom (plaintext : Bytes) : Prop where
  nonneg : 0 ≤ declaredLength plaintext
  words : 4 ∣ declaredLength plaintext
  wraps : 2 ^ 32 ≤ roomBehindHeader plaintext
  fits : declaredLength plaintext ≤ (roomBehindHeader plaintext % 2 ^ 32 : Nat)
  padding : ((roomBehindHeader plaintext % 2 ^ 32 : Nat) : Int) ≤ declaredLength plaintext + maxPadding
  positive : roomBehindHeader plaintext % 2 ^ 32 < 2 ^ 31

/-- The checks on the declared length. -/
structure PassesChecks (plaintext : Bytes) : Prop where
  nonneg : 0 ≤ declaredLength plaintext
  words : 4 ∣ declaredLength plaintext
  fits : declaredLength plaintext ≤ (Int32.ofNat (roomBehindHeader plaintext)).toInt
  padding : (Int32.ofNat (roomBehindHeader plaintext)).toInt ≤ declaredLength plaintext + maxPadding

/-! ## Reading a plaintext -/

/-- The fields of a header, and the data that its length cuts off. -/
theorem exists_header {plaintext : Bytes} (h : 32 ≤ plaintext.length) :
    ∃ (d : EncryptedMessageData) (len : Int32), len.toInt = declaredLength plaintext ∧
      d.messageData = (plaintext.drop 32).take len.toInt.toNat ∧
      plaintext = putLong d.salt ++ putLong d.sessionId ++ putLong d.messageId ++ putInt32 d.seqNo ++
        putInt32 len ++ plaintext.drop 32 := by
  obtain ⟨salt, hsalt⟩ := exists_putLong (b := plaintext) (by omega)
  obtain ⟨sessionId, hsession⟩ := exists_putLong (b := plaintext.drop 8) (by rw [List.length_drop]; omega)
  obtain ⟨messageId, hmessage⟩ := exists_putLong (b := plaintext.drop 16) (by rw [List.length_drop]; omega)
  obtain ⟨seqNo, hseq⟩ := exists_putInt32 (b := plaintext.drop 24) (by rw [List.length_drop]; omega)
  obtain ⟨len, hlen⟩ := exists_putInt32 (b := plaintext.drop 28) (by rw [List.length_drop]; omega)
  rw [List.drop_drop] at hsession hmessage hseq hlen
  refine ⟨{ salt, sessionId, messageId, seqNo, messageData := (plaintext.drop 32).take len.toInt.toNat }, len, ?_,
    rfl, ?_⟩
  · have hfield : substr plaintext 28 4 = putInt32 len := by
      rw [substr, hlen, List.take_left' (length_putInt32 len)]
    have hword : ofLE (putUint32 len.toUInt32) = len.toUInt32.toNat :=
      ofLE_toLE_of_lt (by simpa using len.toUInt32.toNat_lt)
    rw [declaredLength, hfield, putInt32, hword, UInt32.ofNat_toNat, Int32.toInt32_toUInt32]
  · simp only [List.append_assoc]
    rw [← hlen, ← hseq, ← hmessage, ← hsession, ← hsalt]

theorem readPlaintextHeader_fields (d : EncryptedMessageData) (len : Int32) (rest : Bytes) :
    readPlaintextHeader (putLong d.salt ++ putLong d.sessionId ++ putLong d.messageId ++ putInt32 d.seqNo ++
      putInt32 len ++ rest) = .ok (d.salt, d.sessionId, d.messageId, d.seqNo, len) rest := by
  unfold readPlaintextHeader
  simp only [List.append_assoc, long_bind_put, int32_bind_put]
  rfl

/-- What `parsePlaintext` accepts, and what it returns: the fields of the header and the declared data. -/
theorem parsePlaintext_eq_ok_iff {plaintext : Bytes} (h : 32 ≤ plaintext.length) :
    ∃ d : EncryptedMessageData, d.messageData = (plaintext.drop 32).take (declaredLength plaintext).toNat ∧
      plaintext.take 32 = putLong d.salt ++ putLong d.sessionId ++ putLong d.messageId ++ putInt32 d.seqNo ++
        putInt32 (Int32.ofInt (declaredLength plaintext)) ∧
      ∀ d', parsePlaintext plaintext = .ok d' ↔ PassesChecks plaintext ∧ d' = d := by
  obtain ⟨d, len, hlen, hdata, hfields⟩ := exists_header h
  refine ⟨d, by rw [hdata, hlen], ?_, fun d' => ?_⟩
  · rw [← hlen, Int32.ofInt_toInt]
    nth_rewrite 1 [hfields]
    exact List.take_left' (by simp)
  · have hread : readPlaintextHeader plaintext =
        .ok (d.salt, d.sessionId, d.messageId, d.seqNo, len) (plaintext.drop 32) := by
      nth_rewrite 1 [hfields]
      exact readPlaintextHeader_fields d len _
    have hroom : (plaintext.drop 32).length = roomBehindHeader plaintext := List.length_drop
    have hdata' : (plaintext.drop 32).take (declaredLength plaintext).toNat = d.messageData := by
      rw [hdata, hlen]
    unfold parsePlaintext
    rw [hread]
    simp only [hroom, hlen, hdata']
    -- The four checks of the source, in its order.
    constructor
    · intro hok
      split at hok
      · cases hok
      · next hnonneg =>
        split at hok
        · cases hok
        · next hwords =>
          split at hok
          · cases hok
          · next hfits =>
            split at hok
            · cases hok
            · next hpadding =>
              refine ⟨⟨by omega, ?_, by omega, by omega⟩, (Except.ok.inj hok).symm⟩
              exact Int.dvd_of_tmod_eq_zero (Decidable.not_not.mp hwords)
    · rintro ⟨hpass, rfl⟩
      have hnonneg := hpass.nonneg
      have hwords := Int.tmod_eq_zero_of_dvd hpass.words
      have hfits := hpass.fits
      have hpadding := hpass.padding
      rw [if_neg (by omega), if_neg (by rw [hwords]; simp), if_neg (by omega), if_neg (by omega)]

/-! ## Which accepted plaintexts are well padded -/

/-- The size behind the header, as 32 bits of it are read. -/
theorem room_cases (n : Nat) :
    n < 2 ^ 31 ∧ (Int32.ofNat n).toInt = n ∨
    2 ^ 31 ≤ n ∧ n % 2 ^ 32 < 2 ^ 31 ∧ 2 ^ 32 ≤ n ∧ (Int32.ofNat n).toInt = (n % 2 ^ 32 : Nat) ∨
    2 ^ 31 ≤ n ∧ 2 ^ 31 ≤ n % 2 ^ 32 ∧ (Int32.ofNat n).toInt < 0 := by
  rw [Int32.toInt_ofNat', Int.bmod_def]
  simp only [Int32.size]
  split <;> omega

theorem declaredLength_lt (plaintext : Bytes) : declaredLength plaintext < 2 ^ 31 :=
  Int32.toInt_lt _

/-- The plaintexts that pass the checks without having 12 to 1024 bytes behind their data. -/
theorem passesChecks_and_not_bounds_iff (plaintext : Bytes) :
    PassesChecks plaintext ∧ ¬ (declaredLength plaintext + 12 ≤ roomBehindHeader plaintext ∧
        (roomBehindHeader plaintext : Int) ≤ declaredLength plaintext + maxPadding) ↔
      ShortPadding plaintext ∨ WrappedRoom plaintext := by
  have hlt := declaredLength_lt plaintext
  have hroom := room_cases (roomBehindHeader plaintext)
  constructor
  · rintro ⟨⟨hnonneg, hwords, hfits, hpadding⟩, hout⟩
    rcases hroom with ⟨hsmall, heq⟩ | ⟨-, hpos, hwraps, heq⟩ | ⟨-, -, hneg⟩
    · rw [heq] at hfits hpadding
      exact .inl ⟨hnonneg, hwords, hfits, by omega, hsmall⟩
    · rw [heq] at hfits hpadding
      exact .inr ⟨hnonneg, hwords, hwraps, hfits, hpadding, hpos⟩
    · omega
  · rintro (⟨hnonneg, hwords, hfits, hshort, hsmall⟩ | ⟨hnonneg, hwords, hwraps, hfits, hpadding, hpos⟩)
    · have heq : (Int32.ofNat (roomBehindHeader plaintext)).toInt = roomBehindHeader plaintext := by omega
      refine ⟨⟨hnonneg, hwords, by omega, ?_⟩, by omega⟩
      rw [heq]
      unfold maxPadding
      omega
    · have heq : (Int32.ofNat (roomBehindHeader plaintext)).toInt =
          (roomBehindHeader plaintext % 2 ^ 32 : Nat) := by omega
      refine ⟨⟨hnonneg, hwords, by omega, by omega⟩, ?_⟩
      unfold maxPadding
      omega

/-- A plaintext is well padded exactly when 12 to 1024 bytes are behind the data it declares. -/
theorem wellPadded_iff {plaintext : Bytes} {d : EncryptedMessageData} (h : 32 ≤ plaintext.length)
    (hpass : PassesChecks plaintext)
    (hdata : d.messageData = (plaintext.drop 32).take (declaredLength plaintext).toNat)
    (hfields : plaintext.take 32 = putLong d.salt ++ putLong d.sessionId ++ putLong d.messageId ++
      putInt32 d.seqNo ++ putInt32 (Int32.ofInt (declaredLength plaintext))) :
    WellPadded plaintext d ↔ declaredLength plaintext + 12 ≤ roomBehindHeader plaintext ∧
      (roomBehindHeader plaintext : Int) ≤ declaredLength plaintext + maxPadding := by
  have hnonneg := hpass.nonneg
  have hlt := declaredLength_lt plaintext
  have hroom : (plaintext.drop 32).length = roomBehindHeader plaintext := List.length_drop
  have hle : declaredLength plaintext ≤ roomBehindHeader plaintext := by
    have := hpass.fits
    have := room_cases (roomBehindHeader plaintext)
    omega
  have hlen : d.messageData.length = (declaredLength plaintext).toNat := by
    rw [hdata, List.length_take, hroom]
    omega
  have hheader : plaintext.take 32 = plaintextHeader d := by
    have hcast : Int32.ofInt (declaredLength plaintext) = Int32.ofNat d.messageData.length := by
      rw [hlen, ← Int32.ofInt_eq_ofNat, Int.toNat_of_nonneg hnonneg]
    rw [hfields, hcast]
    rfl
  -- The padding is what stands behind the declared length, so its bounds are bounds on the room.
  constructor
  · rintro ⟨padding, hplain, -, hlo, hhi⟩
    have htotal := congrArg List.length hplain
    simp only [List.length_append, length_plaintextHeader] at htotal
    unfold roomBehindHeader
    omega
  · rintro ⟨hlo, hhi⟩
    refine ⟨(plaintext.drop 32).drop (declaredLength plaintext).toNat, ?_, by omega, ?_, ?_⟩
    · rw [← hheader, hdata, List.append_assoc, List.take_append_drop, List.take_append_drop]
    · rw [List.length_drop, hroom]
      omega
    · rw [List.length_drop, hroom]
      omega

/-! ## Received messages -/

theorem igeDecrypt_eq_decryptedPlaintext (P : Primitives) (authKey : AuthKeyBytes) (m : EncryptedMessage) (side : Side)
    (h : 16 ∣ m.encryptedData.length) :
    igeDecrypt P (deriveMessageKeys P authKey m.msgKey (oppositeSide side)).1
        (deriveMessageKeys P authKey m.msgKey (oppositeSide side)).2 m.encryptedData =
      .ok (decryptedPlaintext P authKey m side) :=
  igeDecrypt_eq_ok (igeArgs_paddedPlaintext P authKey m.msgKey (oppositeSide side) h)

/-- Behind the first two checks, the message is decrypted. -/
theorem decryptMessage_eq {P : Primitives} {authKey : AuthKeyBytes} {m : EncryptedMessage} {side : Side}
    (hkey : m.authKeyId = authKeyId P authKey) (hblocks : 16 ∣ m.encryptedData.length) :
    decryptMessage P authKey m side =
      if messageKey P authKey (decryptedPlaintext P authKey m side) (oppositeSide side) ≠ m.msgKey then
        .error (.runtimeError "msg_key is invalid")
      else if (decryptedPlaintext P authKey m side).length < 32 then
        .error (.runtimeError "encrypted message data too short")
      else parsePlaintext (decryptedPlaintext P authKey m side) := by
  unfold decryptMessage
  rw [if_neg (not_not_intro hkey), if_neg (not_not_intro (Nat.mod_eq_zero_of_dvd hblocks))]
  simp only [igeDecrypt_eq_decryptedPlaintext P authKey m side hblocks]
  rfl

/-- `decryptMessage` returns what the plaintext of an authentic message parses to. -/
theorem decryptMessage_eq_ok_iff (P : Primitives) (authKey : AuthKeyBytes) (m : EncryptedMessage) (side : Side)
    (d : EncryptedMessageData) :
    decryptMessage P authKey m side = .ok d ↔
      Authentic P authKey m side ∧ parsePlaintext (decryptedPlaintext P authKey m side) = .ok d := by
  constructor
  · intro hok
    have hkey : m.authKeyId = authKeyId P authKey := by
      by_contra hne
      rw [decryptMessage, if_pos hne] at hok
      cases hok
    have hblocks : 16 ∣ m.encryptedData.length := by
      by_contra hne
      rw [decryptMessage, if_neg (not_not_intro hkey), if_pos (fun h => hne (Nat.dvd_of_mod_eq_zero h))] at hok
      cases hok
    rw [decryptMessage_eq hkey hblocks] at hok
    split at hok
    · cases hok
    · next hmsgKey =>
      split at hok
      · cases hok
      · next hheader => exact ⟨⟨hkey, hblocks, Decidable.not_not.mp hmsgKey, Nat.not_lt.mp hheader⟩, hok⟩
  · rintro ⟨hauth, hparse⟩
    rw [decryptMessage_eq hauth.authKeyId hauth.blocks, if_neg (not_not_intro hauth.msgKey),
      if_neg (Nat.not_lt.mpr hauth.header)]
    exact hparse

/-- **Padding on receipt.** What `decryptMessage` returns for a message is always the header, the data and
12 to 1024 bytes of padding if and only if the message is not an authentic one whose plaintext declares too
much data for 12 bytes of padding, or has a size behind the header that wraps around. -/
theorem decryptMessage_wellPadded_iff (P : Primitives) (authKey : AuthKeyBytes) (encrypted : EncryptedMessage)
    (decryptAs : Side) :
    (∀ d, decryptMessage P authKey encrypted decryptAs = .ok d →
        WellPadded (decryptedPlaintext P authKey encrypted decryptAs) d) ↔
      ¬ (Authentic P authKey encrypted decryptAs ∧
        (ShortPadding (decryptedPlaintext P authKey encrypted decryptAs) ∨
          WrappedRoom (decryptedPlaintext P authKey encrypted decryptAs))) := by
  constructor
  · rintro hall ⟨hauth, hbad⟩
    obtain ⟨d, hdata, hfields, hparse⟩ := parsePlaintext_eq_ok_iff hauth.header
    obtain ⟨hpass, hout⟩ := (passesChecks_and_not_bounds_iff _).mpr hbad
    have hok := (decryptMessage_eq_ok_iff P authKey encrypted decryptAs d).mpr
      ⟨hauth, (hparse d).mpr ⟨hpass, rfl⟩⟩
    exact hout ((wellPadded_iff hauth.header hpass hdata hfields).mp (hall d hok))
  · intro hgood d hok
    obtain ⟨hauth, hd⟩ := (decryptMessage_eq_ok_iff P authKey encrypted decryptAs d).mp hok
    obtain ⟨d', hdata, hfields, hparse⟩ := parsePlaintext_eq_ok_iff hauth.header
    obtain ⟨hpass, rfl⟩ := (hparse d).mp hd
    refine (wellPadded_iff hauth.header hpass hdata hfields).mpr ?_
    by_contra hout
    exact hgood ⟨hauth, (passesChecks_and_not_bounds_iff _).mp ⟨hpass, hout⟩⟩

/-! ## Short padding is accepted -/

/-- A plaintext with fewer than 12 bytes of padding parses, whatever the padding is. -/
theorem parsePlaintext_shortPadding {d : EncryptedMessageData} {padding : Bytes} (hwords : 4 ∣ d.messageData.length)
    (hshort : padding.length < 12) (hsmall : d.messageData.length + padding.length < 2 ^ 31) :
    parsePlaintext (plaintextHeader d ++ (d.messageData ++ padding)) = .ok d := by
  have hn : (Int32.ofNat d.messageData.length).toInt = d.messageData.length :=
    Int32.toInt_ofNat_of_lt (by omega)
  have hrest : (Int32.ofNat (d.messageData ++ padding).length).toInt = d.messageData.length + padding.length := by
    rw [List.length_append, Int32.toInt_ofNat_of_lt hsmall]
    push_cast
    rfl
  have hmod : Int.tmod (d.messageData.length : Int) 4 = 0 := by
    rw [Int.tmod_eq_emod_of_nonneg (by omega)]
    omega
  unfold parsePlaintext
  simp only [readPlaintextHeader_put]
  rw [hn, hrest, if_neg (by omega), if_neg (by rw [hmod]; simp), if_neg (by omega),
    if_neg (by unfold maxPadding; omega)]
  simp

/-- **Every message that was sealed with fewer than 12 bytes of padding is accepted.** -/
theorem decryptMessage_shortPadding (P : Primitives) (authKey : AuthKeyBytes) {d : EncryptedMessageData}
    {padding : Bytes} (side : Side) (hwords : 4 ∣ d.messageData.length) (hshort : padding.length < 12)
    (hsmall : d.messageData.length + padding.length < 2 ^ 31)
    (hblocks : 16 ∣ (plaintextHeader d ++ (d.messageData ++ padding)).length) :
    decryptMessage P authKey (sealPlaintext P authKey (plaintextHeader d ++ (d.messageData ++ padding)) side)
      (oppositeSide side) = .ok d := by
  have hheader : 32 ≤ (plaintextHeader d ++ (d.messageData ++ padding)).length := by
    rw [List.length_append, length_plaintextHeader]
    exact Nat.le_add_right _ _
  rw [decryptMessage_sealPlaintext P authKey side hblocks hheader]
  exact parsePlaintext_shortPadding hwords hshort hsmall

/-- The plaintext of a sealed message is what was sealed. -/
theorem decryptedPlaintext_sealPlaintext (P : Primitives) (authKey : AuthKeyBytes) {plaintext : Bytes} (side : Side)
    (h : 16 ∣ plaintext.length) :
    decryptedPlaintext P authKey (sealPlaintext P authKey plaintext side) (oppositeSide side) = plaintext := by
  simp only [decryptedPlaintext, oppositeSide_oppositeSide, sealPlaintext]
  exact decryptBlocks_encryptBlocks h

/-- A message of 16 bytes. -/
def unpaddedMessage : EncryptedMessageData :=
  { salt := 1, sessionId := 2, messageId := 3, seqNo := 4,
    messageData := [5, 6, 7, 8, 9, 10, 11, 12, 13, 14, 15, 16, 17, 18, 19, 20] }

/-- The message, sealed by a client without any padding. -/
def unpaddedSealed : EncryptedMessage :=
  sealPlaintext blankPrimitives (Arr.zero 256)
    (plaintextHeader unpaddedMessage ++ (unpaddedMessage.messageData ++ [])) .client

/-- The server accepts it, although no padding is behind its data. -/
theorem unpaddedSealed_accepted :
    decryptMessage blankPrimitives (Arr.zero 256) unpaddedSealed .server = .ok unpaddedMessage ∧
      ¬ WellPadded (decryptedPlaintext blankPrimitives (Arr.zero 256) unpaddedSealed .server) unpaddedMessage := by
  refine ⟨decryptMessage_shortPadding _ _ .client (by decide) (by decide) (by decide) (by decide), ?_⟩
  rintro ⟨padding, hplain, -, hlo, -⟩
  have hblocks : 16 ∣ (plaintextHeader unpaddedMessage ++ (unpaddedMessage.messageData ++ [])).length := by decide
  have hsealed := decryptedPlaintext_sealPlaintext blankPrimitives (Arr.zero 256) .client hblocks
  rw [unpaddedSealed, show Side.server = oppositeSide .client from rfl, hsealed] at hplain
  have hlen := congrArg List.length hplain
  simp only [List.length_append, List.length_nil] at hlen
  omega

end ShuzaGram.Mtproto.Crypto

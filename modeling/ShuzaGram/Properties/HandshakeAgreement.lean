import ShuzaGram.Mtproto.ClientExchange

/-!
# The key exchange with an honest client

An exchange of the server with a client that follows the protocol ends, and both sides hold the same
key and the same salt.

1. **Reading.** A frame of the client reads back, and acknowledgements before it are passed over.
2. **The first rounds.** Every request is answered with its own nonce, and the loop ends with the nonce
   of the last one. The induction is on the requests.
3. **Both envelopes open**: `p_q_inner_data` by `rsaUnpad_rsaPad`, the two shares by
   `decryptExchangeAnswer_encryptExchangeAnswer`.
4. **Both sides compute the same power**, by `dh_comm`.
-/

namespace ShuzaGram.Mtproto

open Infra Crypto Messages

/-! ## Reading the frames of the client -/

theorem decodeFrom_of_ok {α : Type} {x : Get α} {b b' : Bytes} {a : α} (h : x b = .ok a b') :
    decodeFrom x b = .ok a := by
  rw [decodeFrom, h]

/-- A decoder that reads a message back from the front of a buffer reads it back alone. -/
theorem decodeFrom_of_append_nil {α : Type} {x : Get α} {b b' : Bytes} {a : α} (h : x (b ++ []) = .ok a b') :
    decodeFrom x b = .ok a := by
  rw [List.append_nil] at h
  exact decodeFrom_of_ok h

theorem decodeHandshakeFrame_clientFrame (id : ClientMessageId) {payload : Bytes} (h : payload.length < 2 ^ 31) :
    decodeHandshakeFrame (clientFrame id payload) = .ok { messageId := id.val, messageData := payload } := by
  have hzero : ¬((clientFrame id payload).length ≥ 8 ∧ (clientFrame id payload).take 8 ≠ List.replicate 8 0) := by
    rintro ⟨-, hne⟩
    apply hne
    simp only [clientFrame, UnencryptedMessage.encode, List.append_assoc]
    exact List.take_left' (length_putLong 0)
  have hdec : decodeFrom UnencryptedMessage.decode (clientFrame id payload) =
      .ok { messageId := id.val, messageData := payload } :=
    decodeFrom_of_append_nil (UnencryptedMessage.decode_encode h [])
  rw [decodeHandshakeFrame, if_neg hzero]
  simp only [hdec, ok_bind]
  rw [if_neg (fun hne => hne id.property)]
  rfl

section Reading

variable {w : Wire Exn Bytes} {move : ClientMove} {rest : List ClientMove}

/-- A round of `ReadNextRealHandshakeMessage` on a frame of the client. -/
theorem nextRealRound_eq_ok {id : ClientMessageId} {payload : Bytes} {typeId : UInt32}
    (hin : w.incoming = move :: rest) (hmove : move w.sent = .ok (clientFrame id payload))
    (hlen : payload.length < 2 ^ 31) (htype : peekId payload = .ok typeId payload) :
    nextRealRound () w =
      .ok (if typeId = msgsAckTypeId then .inl () else .inr { messageId := id.val, messageData := payload })
        { w with incoming := rest } := by
  have hread : readHandshakeMessage w = .ok { messageId := id.val, messageData := payload } { w with incoming := rest } := by
    rw [readHandshakeMessage, Steps.bind_of_ok (Talk.receive_of_ok hin hmove), decodeHandshakeFrame_clientFrame id hlen]
    rfl
  rw [nextRealRound, Steps.bind_of_ok hread, Talk.lift_bind_of_ok (decodeFrom_of_ok htype)]
  split <;> rfl

theorem length_flatMap_putLong (ids : List Int64) : (ids.flatMap putLong).length = 8 * ids.length := by
  induction ids with
  | nil => rfl
  | cons id ids ih =>
    rw [List.flatMap_cons, List.length_append, length_putLong, ih, List.length_cons]
    omega

/-- **Acknowledgements are passed over**: the next message is the first one that is none. -/
theorem readNextReal_eq_ok {id : ClientMessageId} {payload : Bytes} {typeId : UInt32} :
    ∀ {acks : List ClientAck} {w : Wire Exn Bytes}, w.incoming = ackMoves acks ++ move :: rest →
      move w.sent = .ok (clientFrame id payload) → payload.length < 2 ^ 31 →
      peekId payload = .ok typeId payload → typeId ≠ msgsAckTypeId →
      readNextRealHandshakeMessage w =
        .ok { messageId := id.val, messageData := payload } { w with incoming := rest }
  | [], w, hin, hmove, hlen, htype, hne => by
    have hround := nextRealRound_eq_ok hin hmove hlen htype
    rw [if_neg hne] at hround
    exact Steps.iterate_of_inr advances_nextRealRound hround
  | ack :: acks, w, hin, hmove, hlen, htype, hne => by
    have hsize : (MsgsAck.encode ack.msgIds).length < 2 ^ 31 := by
      have := ack.short
      simp only [MsgsAck.encode, putVectorHeader, List.length_append, length_putId, length_putInt32,
        length_flatMap_putLong]
      omega
    have hpeek : peekId (MsgsAck.encode ack.msgIds) = .ok msgsAckTypeId (MsgsAck.encode ack.msgIds) := by
      rw [MsgsAck.encode, List.append_assoc]
      exact peekId_putId _ _
    have hin' : w.incoming = (fun _ => .ok ack.frame) :: (ackMoves acks ++ move :: rest) := hin
    have hround := nextRealRound_eq_ok hin' rfl hsize hpeek
    rw [if_pos rfl] at hround
    have hnext : readNextRealHandshakeMessage w =
        readNextRealHandshakeMessage { w with incoming := ackMoves acks ++ move :: rest } :=
      Steps.iterate_of_inl advances_nextRealRound hround
    rw [hnext]
    exact readNextReal_eq_ok rfl hmove hlen htype hne

/-! A request of the client. -/

theorem ClientRequest.typeId_reqPq (r : ClientRequest) :
    r.reqPq.typeId = reqPqRequestTypeId ∨ r.reqPq.typeId = reqPqMultiRequestTypeId := by
  unfold ClientRequest.reqPq
  cases r.multi
  · exact .inl rfl
  · exact .inr rfl

theorem ClientRequest.decode_reqPq (r : ClientRequest) : decodeFrom ReqPq.decode r.reqPq.encode = .ok r.reqPq :=
  decodeFrom_of_append_nil (ReqPq.decode_encode [] r.typeId_reqPq)

theorem readNextReal_request {r : ClientRequest} (hin : w.incoming = r.moves ++ rest) :
    readNextRealHandshakeMessage w =
      .ok { messageId := r.id.val, messageData := r.reqPq.encode } { w with incoming := rest } := by
  have hne : r.reqPq.typeId ≠ msgsAckTypeId := by
    rcases r.typeId_reqPq with h | h <;> rw [h] <;> decide
  have hlen : r.reqPq.encode.length < 2 ^ 31 := by
    simp [ReqPq.encode]
  rw [ClientRequest.moves, List.append_assoc] at hin
  exact readNextReal_eq_ok hin rfl hlen (peekId_putId _ _) hne

end Reading

/-! ## Reading the frames of the server -/

theorem decode_handshakeFrame (draws : Draws) (n : Nat) {payload : Bytes} (h : payload.length < 2 ^ 31) :
    decodeFrom UnencryptedMessage.decode (handshakeFrame draws n payload) =
      .ok { messageId := MessageId.new (draws.writeTime n) .serverResponse, messageData := payload } :=
  decodeFrom_of_append_nil (UnencryptedMessage.decode_encode h [])

/-- The client reads a frame of the server, wherever it stands among the others. -/
theorem readAnswer_eq_ok {α : Type} {x : Get α} {payload : Bytes} {a : α} (draws : Draws) (n : Nat)
    (hlen : payload.length < 2 ^ 31) (hdec : decodeFrom x payload = .ok a) (before after : List Bytes) :
    readAnswer x (before ++ handshakeFrame draws n payload :: after) after.length = .ok a := by
  have hframe : (before ++ handshakeFrame draws n payload :: after).reverse[after.length]? =
      some (handshakeFrame draws n payload) := by
    rw [List.reverse_append, List.reverse_cons, List.append_assoc, List.getElem?_append_right (by simp)]
    simp
  rw [readAnswer, hframe]
  simp only
  rw [decode_handshakeFrame draws n hlen, ok_bind, hdec]

/-! ## The first rounds -/

section FirstRounds

variable (P : Primitives) (key : RsaPrivateKey) (draws : Draws)

/-- The answers to requests with the given nonces, from the `n`-th frame on. -/
def resPqFrames : Nat → List (Arr 16) → List Bytes
  | _, [] => []
  | n, nonce :: rest => handshakeFrame draws n (resPq P key draws nonce).encode :: resPqFrames (n + 1) rest

theorem length_resPq (nonce : Arr 16) : (resPq P key draws nonce).encode.length < 2 ^ 31 := by
  have h := length_putBytes_le fixedPq
  have hpq : fixedPq.length = 8 := rfl
  simp only [resPq, ResPq.encode, putVectorHeader, List.length_append, length_putId, length_putArr, length_putInt32,
    List.flatMap_cons, List.flatMap_nil, length_putLong, List.length_nil]
  omega

theorem decode_resPq (nonce : Arr 16) :
    decodeFrom ResPq.decode (resPq P key draws nonce).encode = .ok (resPq P key draws nonce) :=
  decodeFrom_of_append_nil
    (ResPq.decode_encode [] (show fixedPq.length < 2 ^ 24 by decide) (show 1 < 2 ^ 31 by decide))

/-- A round in which the client starts over. -/
theorem resPqRound_request {w : Wire Exn Bytes} {r : ClientRequest} {rest : List ClientMove} (nonce : Arr 16)
    (hin : w.incoming = r.moves ++ rest) :
    resPqRound P key draws nonce w =
      .ok (.inl r.nonce)
        { incoming := rest, sent := w.sent ++ [handshakeFrame draws w.sent.length (resPq P key draws nonce).encode] } := by
  have htype : peekId r.reqPq.encode = .ok r.reqPq.typeId r.reqPq.encode := peekId_putId _ _
  have hread := readNextReal_request
    (w := { w with sent := w.sent ++ [handshakeFrame draws w.sent.length (resPq P key draws nonce).encode] }) hin
  rw [resPqRound, Steps.bind_of_ok (by rfl), Steps.bind_of_ok hread, Talk.lift_bind_of_ok (decodeFrom_of_ok htype),
    if_pos r.typeId_reqPq, Talk.lift_bind_of_ok r.decode_reqPq]
  rfl

/-- The round in which the client goes on with `req_DH_params`. -/
theorem resPqRound_dhParams {w : Wire Exn Bytes} {acks : List ClientAck} {move : ClientMove} {rest : List ClientMove}
    {id : ClientMessageId} {dhParams : ReqDhParams} (nonce : Arr 16)
    (hin : w.incoming = ackMoves acks ++ move :: rest)
    (hmove : move (w.sent ++ [handshakeFrame draws w.sent.length (resPq P key draws nonce).encode]) =
      .ok (clientFrame id dhParams.encode))
    (hlen : dhParams.encode.length < 2 ^ 31) (hdec : decodeFrom ReqDhParams.decode dhParams.encode = .ok dhParams) :
    resPqRound P key draws nonce w =
      .ok (.inr (nonce, dhParams))
        { incoming := rest, sent := w.sent ++ [handshakeFrame draws w.sent.length (resPq P key draws nonce).encode] } := by
  have htype : peekId dhParams.encode = .ok reqDhParamsTypeId dhParams.encode := by
    simp only [ReqDhParams.encode, List.append_assoc]
    exact peekId_putId _ _
  have hread := readNextReal_eq_ok
    (w := { w with sent := w.sent ++ [handshakeFrame draws w.sent.length (resPq P key draws nonce).encode] })
    hin hmove hlen htype (by decide)
  rw [resPqRound, Steps.bind_of_ok (by rfl), Steps.bind_of_ok hread, Talk.lift_bind_of_ok (decodeFrom_of_ok htype),
    if_neg (by decide), Talk.lift_bind_of_ok hdec]
  rfl

/-- **Every request is answered with its own nonce**, and the loop ends with that of the last one. -/
theorem resPqRounds {acks : List ClientAck} {move : ClientMove} {rest : List ClientMove} {id : ClientMessageId}
    {dhParams : ReqDhParams} (hlen : dhParams.encode.length < 2 ^ 31)
    (hdec : decodeFrom ReqDhParams.decode dhParams.encode = .ok dhParams) :
    ∀ (retries : List ClientRequest) (nonce : Arr 16) (w : Wire Exn Bytes),
      w.incoming = retries.flatMap ClientRequest.moves ++ (ackMoves acks ++ move :: rest) →
      (∀ (before : List Bytes) (n : Nat),
        move (before ++
            [handshakeFrame draws n (resPq P key draws (retries.foldl (fun _ r => r.nonce) nonce)).encode]) =
          .ok (clientFrame id dhParams.encode)) →
      Talk.iterate connectionClosed (resPqRound P key draws) nonce w =
        .ok (retries.foldl (fun _ r => r.nonce) nonce, dhParams)
          { incoming := rest
            sent := w.sent ++ resPqFrames P key draws w.sent.length (nonce :: retries.map ClientRequest.nonce) }
  | [], nonce, w, hin, hmove => by
    have hround := resPqRound_dhParams P key draws nonce hin (hmove w.sent _) hlen hdec
    exact Steps.iterate_of_inr (advances_resPqRound P key draws) hround
  | r :: retries, nonce, w, hin, hmove => by
    rw [List.flatMap_cons, List.append_assoc] at hin
    have hround := resPqRound_request P key draws nonce hin
    refine (Steps.iterate_of_inl (advances_resPqRound P key draws) hround).trans ?_
    have ih := resPqRounds hlen hdec retries r.nonce
      { incoming := retries.flatMap ClientRequest.moves ++ (ackMoves acks ++ move :: rest)
        sent := w.sent ++ [handshakeFrame draws w.sent.length (resPq P key draws nonce).encode] } rfl hmove
    refine ih.trans ?_
    simp [resPqFrames]

theorem resPqFrames_getLast : ∀ (retries : List ClientRequest) (nonce : Arr 16) (n : Nat),
    ∃ before k, resPqFrames P key draws n (nonce :: retries.map ClientRequest.nonce) =
      before ++ [handshakeFrame draws k (resPq P key draws (retries.foldl (fun _ r => r.nonce) nonce)).encode]
  | [], nonce, n => ⟨[], n, rfl⟩
  | r :: retries, nonce, n => by
    obtain ⟨before, k, h⟩ := resPqFrames_getLast retries r.nonce (n + 1)
    refine ⟨handshakeFrame draws n (resPq P key draws nonce).encode :: before, k, ?_⟩
    rw [List.map_cons, resPqFrames, h]
    rfl

end FirstRounds

/-! ## The shares -/

theorem modPowFixed_fixedDhPrime (base exponent : Bytes) :
    modPowFixed base exponent fixedDhPrime 256 =
      .ok (toBE 256 (bytesToBignum base ^ bytesToBignum exponent % dhPrimeValue)) := by
  have hpos : 0 < bytesToBignum fixedDhPrime := by
    rw [bytesToBignum_fixedDhPrime]
    exact dhPrimeValue_pos
  rw [modPowFixed_eq_ok hpos (by rw [fixedDhPrime, length_toBE]), bytesToBignum_fixedDhPrime]

/-- The loop returns a secret with its share. -/
theorem generateGaLoop_ok {gBytes dhPrime gA : Bytes} {a : Arr 256} : ∀ {secrets : List (Arr 256)},
    generateGaLoop gBytes dhPrime secrets = .ok (a, gA) → modPowBytes gBytes a.toList dhPrime = .ok gA
  | [], h => by cases h
  | s :: rest, h => by
    rw [generateGaLoop] at h
    cases hs : modPowBytes gBytes s.toList dhPrime with
    | error e =>
      rw [hs] at h
      cases h
    | ok share =>
      rw [hs, ok_bind] at h
      split at h
      · cases h
        exact hs
      · exact generateGaLoop_ok h

theorem generateGa_ok {secrets : List (Arr 256)} {a : Arr 256} {gA : Bytes}
    (h : generateGa dhGenerator fixedDhPrime secrets = .ok (a, gA)) :
    gA = bignumToMinimalBytes (3 ^ bytesToBignum a.toList % dhPrimeValue) := by
  rw [generateGa] at h
  cases hg : checkGP dhGenerator.toInt fixedDhPrime with
  | error e =>
    rw [hg] at h
    cases h
  | ok u =>
    rw [hg, ok_bind] at h
    have hshare := generateGaLoop_ok h
    rw [modPowBytes_fixedDhPrime] at hshare
    exact (Except.ok.inj hshare).symm

/-! ## The two halves of the secret -/

section Shares

variable {P : Primitives} {key : RsaPrivateKey} {draws : Draws} {c : Client} {enc gA : Bytes} {a : Arr 256}

/-- The `req_DH_params` of the client, around its encrypted half. -/
def Client.dhParams (P : Primitives) (key : RsaPrivateKey) (draws : Draws) (c : Client) (enc : Bytes) : ReqDhParams :=
  { nonce := c.nonce
    serverNonce := draws.serverNonce
    p := c.p
    q := c.q
    publicKeyFingerprint := key.publicKey.fingerprint P
    encryptedData := enc }

/-- What `RsaPad` accepts is short, and so are the factors in it. -/
theorem length_factors (hpad : rsaPad P (c.pqInnerData (resPq P key draws c.nonce)).encode key.publicKey
    c.rsaPadding c.rsaTempKeys = .ok enc) : c.p.length ≤ 144 ∧ c.q.length ≤ 144 := by
  have hfits := length_le_of_rsaPad hpad
  have hp := length_le_putBytes c.p
  have hq := length_le_putBytes c.q
  simp only [Client.pqInnerData, PqInnerData.encode, List.length_append, rsaPadDataLimit] at hfits
  omega

theorem dhParams_readable (hkey : key.Inverse) (hpad : rsaPad P (c.pqInnerData (resPq P key draws c.nonce)).encode
    key.publicKey c.rsaPadding c.rsaTempKeys = .ok enc) :
    (c.dhParams P key draws enc).encode.length < 2 ^ 31 ∧
      decodeFrom ReqDhParams.decode (c.dhParams P key draws enc).encode = .ok (c.dhParams P key draws enc) := by
  obtain ⟨hp, hq⟩ := length_factors hpad
  have henc : enc.length = 256 := (rsaUnpad_rsaPad hkey hpad).2
  have hlp := length_putBytes_le c.p
  have hlq := length_putBytes_le c.q
  have hle := length_putBytes_le enc
  constructor
  · simp only [Client.dhParams, ReqDhParams.encode, List.length_append, length_putId, length_putArr, length_putLong]
    omega
  · exact decodeFrom_of_append_nil (ReqDhParams.decode_encode []
      (show c.p.length < 2 ^ 24 by omega) (show c.q.length < 2 ^ 24 by omega) (show enc.length < 2 ^ 24 by omega))

theorem dhParamsMove_eq_ok (hpad : rsaPad P (c.pqInnerData (resPq P key draws c.nonce)).encode key.publicKey
    c.rsaPadding c.rsaTempKeys = .ok enc) (before : List Bytes) (n : Nat) :
    c.dhParamsMove P key.publicKey (before ++ [handshakeFrame draws n (resPq P key draws c.nonce).encode]) =
      .ok (clientFrame c.dhId (c.dhParams P key draws enc).encode) := by
  have hres : readAnswer ResPq.decode (before ++ [handshakeFrame draws n (resPq P key draws c.nonce).encode]) 0 =
      .ok (resPq P key draws c.nonce) :=
    readAnswer_eq_ok draws n (length_resPq P key draws c.nonce) (decode_resPq P key draws c.nonce) before []
  rw [Client.dhParamsMove, hres, ok_bind, hpad, ok_bind]
  rfl

/-- **The server opens `p_q_inner_data`.** -/
theorem openPqInnerData_eq_ok (hkey : key.Inverse)
    (hpad : rsaPad P (c.pqInnerData (resPq P key draws c.nonce)).encode key.publicKey c.rsaPadding c.rsaTempKeys =
      .ok enc) :
    openPqInnerData P key enc = .ok (c.pqInnerData (resPq P key draws c.nonce)) := by
  obtain ⟨hp, hq⟩ := length_factors hpad
  have hdec : decodeFrom PqInnerData.decode
      (dataWithPadding (c.pqInnerData (resPq P key draws c.nonce)).encode c.rsaPadding) =
        .ok (c.pqInnerData (resPq P key draws c.nonce)) := by
    refine decodeFrom_of_ok (PqInnerData.decode_encode _ ?_ ?_ (show fixedPq.length < 2 ^ 24 by decide)
      (show c.p.length < 2 ^ 24 by omega) (show c.q.length < 2 ^ 24 by omega))
    · exact fun h => if_pos h
    · exact fun h => if_neg h
  rw [openPqInnerData, (rsaUnpad_rsaPad hkey hpad).1, ok_bind, hdec]
  rfl

/-- The expiry of an honest request is accepted. -/
theorem authKeyExpiresAt_eq_ok
    (hexpiry : c.kind = .tempDc → 0 ≤ seconds draws.handshakeTime ∧
      0 < c.expiresIn ∧ (seconds draws.handshakeTime).toInt + c.expiresIn.toInt ≤ 2147483647) (res : ResPq) :
    authKeyExpiresAt draws.handshakeTime (c.pqInnerData res) =
      .ok (if c.kind = .tempDc then (seconds draws.handshakeTime).toInt + c.expiresIn.toInt else 0) := by
  have hkind : (c.pqInnerData res).kind = c.kind := rfl
  rw [authKeyExpiresAt, hkind]
  by_cases htemp : c.kind = .tempDc
  case neg =>
    rw [if_neg htemp, if_neg htemp]
    rfl
  case pos =>
    obtain ⟨hclock, hpos, hmax⟩ := hexpiry htemp
    have hexp : (c.pqInnerData res).expiresIn = c.expiresIn := if_pos htemp
    have hclock' : 0 ≤ (seconds draws.handshakeTime).toInt := Int64.le_iff_toInt_le.mp hclock
    have hpos' : 0 < c.expiresIn.toInt := Int32.lt_iff_toInt_lt.mp hpos
    have hle : ¬ c.expiresIn ≤ 0 := by
      rw [Int32.le_iff_toInt_le]
      exact Int.not_le.mpr hpos'
    rw [if_pos htemp, if_pos htemp, hexp, if_neg hle]
    simp only
    rw [if_neg (by omega)]
    rfl

/-! The share of the server. -/

/-- The temporary keys of the exchange. -/
def Client.tempKeys (P : Primitives) (draws : Draws) (c : Client) : Bytes × Bytes :=
  tempAesKeys P c.newNonce draws.serverNonce

theorem serverDhInnerData_readable (draws : Draws) (nonce : Arr 16) (hgA : gA.length ≤ 256) :
    (serverDhInnerData draws nonce gA).encode.length < 1024 ∧
      decodeFrom ServerDhInnerData.decode (serverDhInnerData draws nonce gA).encode =
        .ok (serverDhInnerData draws nonce gA) := by
  have hprime : fixedDhPrime.length = 256 := length_toBE _ _
  have hlp := length_putBytes_le fixedDhPrime
  have hlg := length_putBytes_le gA
  constructor
  · simp only [serverDhInnerData, ServerDhInnerData.encode, List.length_append, length_putId, length_putArr,
      length_putInt32]
    omega
  · refine decodeFrom_of_append_nil (ServerDhInnerData.decode_encode (m := serverDhInnerData draws nonce gA) [] ?_ ?_)
    · simp only [serverDhInnerData]
      omega
    · simp only [serverDhInnerData]
      omega

/-- **The server sends its share, and the client reads it.** -/
theorem sendServerDhParams_eq_ok (key : RsaPrivateKey) (c : Client) (hgA : gA.length ≤ 256)
    (hcoll : NoHashCollision P (dataWithHash P (serverDhInnerData draws c.nonce gA).encode draws.answerPad)) :
    ∃ ok : ServerDhParamsOk, ok.nonce = c.nonce ∧ ok.serverNonce = draws.serverNonce ∧
      ok.encode.length < 2 ^ 31 ∧ decodeFrom ServerDhParamsOk.decode ok.encode = .ok ok ∧
      c.serverInner P (resPq P key draws c.nonce) ok = .ok (serverDhInnerData draws c.nonce gA) ∧
      ∀ w, sendServerDhParams P draws c.nonce (c.tempKeys P draws).1 (c.tempKeys P draws).2 gA w =
        .ok () { w with sent := w.sent ++ [handshakeFrame draws w.sent.length ok.encode] } := by
  obtain ⟨hk, hi⟩ := length_tempAesKeys P c.newNonce draws.serverNonce
  obtain ⟨hlen, hdec⟩ := serverDhInnerData_readable draws c.nonce hgA
  obtain ⟨answer, henc, hsize, hopen⟩ := decryptExchangeAnswer_encryptExchangeAnswer hk hi (by omega) hcoll
  refine ⟨{ nonce := c.nonce, serverNonce := draws.serverNonce, encryptedAnswer := answer }, rfl, rfl, ?_, ?_, ?_, ?_⟩
  · have := length_putBytes_le answer
    simp only [ServerDhParamsOk.encode, List.length_append, length_putId, length_putArr]
    omega
  · exact decodeFrom_of_append_nil (ServerDhParamsOk.decode_encode [] (show answer.length < 2 ^ 24 by omega))
  · rw [Client.serverInner]
    show (decryptExchangeAnswer P answer (tempAesKeys P c.newNonce draws.serverNonce).1
      (tempAesKeys P c.newNonce draws.serverNonce).2 >>= _) = _
    rw [hopen, ok_bind, hdec]
  · intro w
    rw [sendServerDhParams, Client.tempKeys, Talk.lift_bind_of_ok henc]
    rfl

/-! The share of the client. -/

def Client.gB (c : Client) : Bytes := bignumToMinimalBytes (3 ^ bytesToBignum c.secretB % dhPrimeValue)

/-- The `client_DH_inner_data` of the client around a share. -/
def Client.dhInnerDataWith (draws : Draws) (c : Client) (gB : Bytes) : ClientDhInnerData :=
  { nonce := c.nonce, serverNonce := draws.serverNonce, retryId := c.retryId, gB }

section AnyShare

variable {makeInner : ResPq → ServerDhInnerData → Except Exn ClientDhInnerData} {gB : Bytes}

/-- **The client sends a share, and the server reads it**, whatever share it is. -/
theorem innerMove_eq_ok {ok : ServerDhParamsOk} (hlen : ok.encode.length < 2 ^ 31)
    (hdec : decodeFrom ServerDhParamsOk.decode ok.encode = .ok ok)
    (hinner : c.serverInner P (resPq P key draws c.nonce) ok = .ok (serverDhInnerData draws c.nonce gA))
    (hmake : makeInner (resPq P key draws c.nonce) (serverDhInnerData draws c.nonce gA) =
      .ok (c.dhInnerDataWith draws gB))
    (hgB : gB.length + 88 < 2 ^ 24)
    (hcoll : NoHashCollision P (dataWithHash P (c.dhInnerDataWith draws gB).encode c.setPadding)) :
    ∃ set : SetClientDhParams, set.encode.length < 2 ^ 31 ∧
      decodeFrom SetClientDhParams.decode set.encode = .ok set ∧
      openClientDhInnerData P set.encryptedData (c.tempKeys P draws).1 (c.tempKeys P draws).2 =
        .ok (c.dhInnerDataWith draws gB) ∧
      ∀ (before : List Bytes) (n m : Nat),
        c.innerMove P makeInner
            (before ++ [handshakeFrame draws n (resPq P key draws c.nonce).encode, handshakeFrame draws m ok.encode]) =
          .ok (clientFrame c.setId set.encode) := by
  obtain ⟨hk, hi⟩ := length_tempAesKeys P c.newNonce draws.serverNonce
  have hinnerLen : (c.dhInnerDataWith draws gB).encode.length + 36 < 2 ^ 24 := by
    have hlb := length_putBytes_le gB
    have hlen : (c.dhInnerDataWith draws gB).encode.length = 44 + (putBytes gB).length := by
      simp only [Client.dhInnerDataWith, ClientDhInnerData.encode, List.length_append, length_putId, length_putArr,
        length_putLong]
    omega
  have hread : decodeFrom ClientDhInnerData.decode (c.dhInnerDataWith draws gB).encode =
      .ok (c.dhInnerDataWith draws gB) :=
    decodeFrom_of_append_nil (ClientDhInnerData.decode_encode [] (show gB.length < 2 ^ 24 by omega))
  obtain ⟨answer, henc, hsize, hopen⟩ := decryptExchangeAnswer_encryptExchangeAnswer hk hi (by omega) hcoll
  refine ⟨{ nonce := c.nonce, serverNonce := draws.serverNonce, encryptedData := answer }, ?_, ?_, ?_, ?_⟩
  · have := length_putBytes_le answer
    simp only [SetClientDhParams.encode, List.length_append, length_putId, length_putArr]
    omega
  · exact decodeFrom_of_append_nil (SetClientDhParams.decode_encode [] (show answer.length < 2 ^ 24 by omega))
  · rw [openClientDhInnerData, Client.tempKeys, hopen, ok_bind, hread]
    rfl
  · intro before n m
    have hres : readAnswer ResPq.decode (before ++
        [handshakeFrame draws n (resPq P key draws c.nonce).encode, handshakeFrame draws m ok.encode]) 1 =
          .ok (resPq P key draws c.nonce) :=
      readAnswer_eq_ok draws n (length_resPq P key draws c.nonce) (decode_resPq P key draws c.nonce) before [_]
    have hok : readAnswer ServerDhParamsOk.decode (before ++
        [handshakeFrame draws n (resPq P key draws c.nonce).encode, handshakeFrame draws m ok.encode]) 0 = .ok ok := by
      have h := readAnswer_eq_ok draws m hlen hdec
        (before ++ [handshakeFrame draws n (resPq P key draws c.nonce).encode]) []
      rwa [List.append_assoc] at h
    rw [Client.innerMove, hres, ok_bind, hok, ok_bind, hinner, ok_bind, hmake, ok_bind]
    show (encryptExchangeAnswer P (c.dhInnerDataWith draws gB).encode (tempAesKeys P c.newNonce draws.serverNonce).1
      (tempAesKeys P c.newNonce draws.serverNonce).2 c.setPadding >>= _) = _
    rw [henc]
    rfl

/-- The key that the server makes of a share. -/
def powerKey (gB : Bytes) (a : Arr 256) : Arr 256 :=
  Arr.ofList 256 (toBE 256 (bytesToBignum gB ^ bytesToBignum a.toList % dhPrimeValue))

/-- The last message of the server. -/
def dhGenOk (P : Primitives) (draws : Draws) (c : Client) (authKey : Arr 256) : DhGenOk :=
  { nonce := c.nonce
    serverNonce := draws.serverNonce
    newNonceHash1 := nonceHash1 P c.newNonce authKey }

/-- **The server finishes with the power of the share.** -/
theorem finishExchange_eq_ok {set : SetClientDhParams} {w : Wire Exn Bytes} {move : ClientMove} (expiresAt : Int)
    (a : Arr 256) (hlen : set.encode.length < 2 ^ 31)
    (hdec : decodeFrom SetClientDhParams.decode set.encode = .ok set)
    (hopen : openClientDhInnerData P set.encryptedData (c.tempKeys P draws).1 (c.tempKeys P draws).2 =
      .ok (c.dhInnerDataWith draws gB))
    (hin : w.incoming = ackMoves c.setAcks ++ [move])
    (hmove : move w.sent = .ok (clientFrame c.setId set.encode)) :
    finishExchange P draws c.nonce c.newNonce expiresAt a (c.tempKeys P draws).1 (c.tempKeys P draws).2 w =
      .ok
        { authKey := powerKey gB a
          serverSalt := serverSalt c.newNonce draws.serverNonce
          expiresAt := Int32.ofInt expiresAt }
        { incoming := []
          sent := w.sent ++ [handshakeFrame draws w.sent.length (dhGenOk P draws c (powerKey gB a)).encode] } := by
  have htype : peekId set.encode = .ok setClientDhParamsTypeId set.encode := by
    simp only [SetClientDhParams.encode, List.append_assoc]
    exact peekId_putId _ _
  have hread := readNextReal_eq_ok hin hmove hlen htype (by decide)
  have hpower : modPowFixed (c.dhInnerDataWith draws gB).gB a.toList fixedDhPrime 256 =
      .ok (toBE 256 (bytesToBignum gB ^ bytesToBignum a.toList % dhPrimeValue)) := by
    rw [modPowFixed_fixedDhPrime]
    rfl
  rw [finishExchange, Steps.bind_of_ok hread, Talk.lift_bind_of_ok hdec, Talk.lift_bind_of_ok hopen,
    Talk.lift_bind_of_ok hpower]
  rfl

end AnyShare

end Shares

/-! The salt and the hash as bytes. -/

section Exchange

variable {P : Primitives} {key : RsaPrivateKey} {draws : Draws} {c : Client} {a : Arr 256} {gA enc : Bytes}

/-- What follows `req_DH_params`: the server sends its share, reads that of the client and finishes. -/
theorem completeExchange_eq_ok {ok : ServerDhParamsOk} {set : SetClientDhParams} {w : Wire Exn Bytes}
    {move : ClientMove} {gB : Bytes} {expiresAt : Int}
    (hopen : openPqInnerData P key (c.dhParams P key draws enc).encryptedData =
      .ok (c.pqInnerData (resPq P key draws c.nonce)))
    (hexpiry : authKeyExpiresAt draws.handshakeTime (c.pqInnerData (resPq P key draws c.nonce)) = .ok expiresAt)
    (hshare : generateGa dhGenerator fixedDhPrime draws.secrets = .ok (a, gA))
    (hsend : ∀ w, sendServerDhParams P draws c.nonce (c.tempKeys P draws).1 (c.tempKeys P draws).2 gA w =
      .ok () { w with sent := w.sent ++ [handshakeFrame draws w.sent.length ok.encode] })
    (hsetLen : set.encode.length < 2 ^ 31) (hsetDec : decodeFrom SetClientDhParams.decode set.encode = .ok set)
    (hsetOpen : openClientDhInnerData P set.encryptedData (c.tempKeys P draws).1 (c.tempKeys P draws).2 =
      .ok (c.dhInnerDataWith draws gB))
    (hin : w.incoming = ackMoves c.setAcks ++ [move])
    (hmove : move (w.sent ++ [handshakeFrame draws w.sent.length ok.encode]) =
      .ok (clientFrame c.setId set.encode)) :
    completeExchange P key draws c.nonce (c.dhParams P key draws enc) w =
      .ok
        { authKey := powerKey gB a
          serverSalt := serverSalt c.newNonce draws.serverNonce
          expiresAt := Int32.ofInt expiresAt }
        { incoming := []
          sent := w.sent ++ [handshakeFrame draws w.sent.length ok.encode,
            handshakeFrame draws (w.sent.length + 1) (dhGenOk P draws c (powerKey gB a)).encode] } := by
  have hfinish := finishExchange_eq_ok (w := { w with sent := w.sent ++ [handshakeFrame draws w.sent.length ok.encode] })
    expiresAt a hsetLen hsetDec hsetOpen hin hmove
  have hlength : (w.sent ++ [handshakeFrame draws w.sent.length ok.encode]).length = w.sent.length + 1 := by simp
  -- The first three steps only compute; then the two frames are sent.
  rw [completeExchange, Talk.lift_bind_of_ok hopen, Talk.lift_bind_of_ok hexpiry, Talk.lift_bind_of_ok hshare]
  refine (Steps.bind_of_ok (hsend w)).trans (hfinish.trans ?_)
  simp only [hlength, List.append_assoc]
  rfl

/-- Everything the server sends in an exchange that ends. -/
def serverFrames (P : Primitives) (key : RsaPrivateKey) (draws : Draws) (c : Client) (ok : ServerDhParamsOk)
    (authKey : Arr 256) : List Bytes :=
  resPqFrames P key draws 0 c.nonces
    ++ [handshakeFrame draws c.nonces.length ok.encode,
        handshakeFrame draws (c.nonces.length + 1) (dhGenOk P draws c authKey).encode]

theorem length_resPqFrames (P : Primitives) (key : RsaPrivateKey) (draws : Draws) : ∀ (nonces : List (Arr 16)) (n : Nat),
    (resPqFrames P key draws n nonces).length = nonces.length
  | [], _ => rfl
  | nonce :: rest, n => by
    rw [resPqFrames, List.length_cons, List.length_cons, length_resPqFrames P key draws rest]

/-- The exchange up to `req_DH_params`, whatever the client sends then. -/
theorem serverExchange_start (hkey : key.Inverse)
    (hpad : rsaPad P (c.pqInnerData (resPq P key draws c.nonce)).encode key.publicKey c.rsaPadding c.rsaTempKeys =
      .ok enc) (last : ClientMove) :
    serverExchange P key draws { incoming := c.movesWith P key.publicKey last, sent := [] } =
      completeExchange P key draws c.nonce (c.dhParams P key draws enc)
        { incoming := ackMoves c.setAcks ++ [last], sent := resPqFrames P key draws 0 c.nonces } := by
  obtain ⟨hdhLen, hdhDec⟩ := dhParams_readable hkey hpad
  have hmoves : c.movesWith P key.publicKey last =
      c.first.moves ++ (c.retries.flatMap ClientRequest.moves ++
        (ackMoves c.dhAcks ++ c.dhParamsMove P key.publicKey :: (ackMoves c.setAcks ++ [last]))) := by
    simp [Client.movesWith, Client.requests]
  have hfirst := readNextReal_request (w := { incoming := c.movesWith P key.publicKey last, sent := [] }) hmoves
  have hrounds := resPqRounds P key draws hdhLen hdhDec c.retries c.first.nonce
    { incoming := c.retries.flatMap ClientRequest.moves ++
        (ackMoves c.dhAcks ++ c.dhParamsMove P key.publicKey :: (ackMoves c.setAcks ++ [last]))
      sent := [] } rfl (dhParamsMove_eq_ok hpad)
  rw [serverExchange, Steps.bind_of_ok hfirst, Talk.lift_bind_of_ok c.first.decode_reqPq]
  exact (Steps.bind_of_ok hrounds).trans rfl

/-- **An exchange returns, whatever share the client sends.** The key is the power of that share. -/
theorem serverExchange_anyShare {makeInner : ResPq → ServerDhInnerData → Except Exn ClientDhInnerData} {gB : Bytes}
    (hkey : key.Inverse)
    (hpad : rsaPad P (c.pqInnerData (resPq P key draws c.nonce)).encode key.publicKey c.rsaPadding c.rsaTempKeys =
      .ok enc)
    (hexpiry : c.kind = .tempDc → 0 ≤ seconds draws.handshakeTime ∧
      0 < c.expiresIn ∧ (seconds draws.handshakeTime).toInt + c.expiresIn.toInt ≤ 2147483647)
    (hshare : generateGa dhGenerator fixedDhPrime draws.secrets = .ok (a, gA))
    (hserver : NoHashCollision P (dataWithHash P (serverDhInnerData draws c.nonce gA).encode draws.answerPad))
    (hmake : makeInner (resPq P key draws c.nonce) (serverDhInnerData draws c.nonce gA) =
      .ok (c.dhInnerDataWith draws gB))
    (hgB : gB.length + 88 < 2 ^ 24)
    (hclient : NoHashCollision P (dataWithHash P (c.dhInnerDataWith draws gB).encode c.setPadding)) :
    ∃ (result : ServerExchangeResult) (ok : ServerDhParamsOk),
      serverExchange P key draws { incoming := c.movesWith P key.publicKey (c.innerMove P makeInner), sent := [] } =
          .ok result { incoming := [], sent := serverFrames P key draws c ok (powerKey gB a) } ∧
        result.authKey = powerKey gB a ∧ result.serverSalt = serverSalt c.newNonce draws.serverNonce ∧
        ok.nonce = c.nonce ∧ ok.serverNonce = draws.serverNonce ∧
        ok.encode.length < 2 ^ 31 ∧ decodeFrom ServerDhParamsOk.decode ok.encode = .ok ok ∧
        c.serverInner P (resPq P key draws c.nonce) ok = .ok (serverDhInnerData draws c.nonce gA) := by
  have hgALen : gA.length ≤ 256 := by
    rw [generateGa_ok hshare]
    exact length_residue_le _
  obtain ⟨ok, hnonce, hserverNonce, hokLen, hokDec, hinner, hsend⟩ :=
    sendServerDhParams_eq_ok key c hgALen hserver
  obtain ⟨set, hsetLen, hsetDec, hsetOpen, hsetMove⟩ := innerMove_eq_ok hokLen hokDec hinner hmake hgB hclient
  obtain ⟨before, n, hlast⟩ := resPqFrames_getLast P key draws c.retries c.first.nonce 0
  have hframes : resPqFrames P key draws 0 c.nonces =
      before ++ [handshakeFrame draws n (resPq P key draws c.nonce).encode] := hlast
  have hcount : (resPqFrames P key draws 0 c.nonces).length = c.nonces.length := length_resPqFrames P key draws _ _
  have hmove : c.innerMove P makeInner (resPqFrames P key draws 0 c.nonces ++
      [handshakeFrame draws (resPqFrames P key draws 0 c.nonces).length ok.encode]) =
        .ok (clientFrame c.setId set.encode) := by
    generalize (resPqFrames P key draws 0 c.nonces).length = m
    rw [hframes, List.append_assoc]
    exact hsetMove before n m
  -- The server behind its last `resPQ`, whose frames are what the client has been sent so far.
  have hrun := completeExchange_eq_ok
    (w := { incoming := ackMoves c.setAcks ++ [c.innerMove P makeInner], sent := resPqFrames P key draws 0 c.nonces })
    (openPqInnerData_eq_ok hkey hpad) (authKeyExpiresAt_eq_ok hexpiry _) hshare hsend hsetLen hsetDec hsetOpen
    rfl hmove
  simp only [hcount] at hrun
  exact ⟨_, ok, (serverExchange_start hkey hpad _).trans hrun, rfl, rfl, hnonce, hserverNonce, hokLen, hokDec, hinner⟩

end Exchange

/-! A client that acknowledges, starts over once and asks for a temporary key. -/

/-- Hashes that tell byte strings apart by their length, and a cipher that does nothing. -/
def lengthPrimitives : Primitives where
  sha1 bs := Arr.ofList 20 (toBE 20 bs.length)
  sha256 bs := Arr.ofList 32 (toBE 32 bs.length)
  aes _ := Equiv.refl _

/-- A key whose exponents are both one. -/
def sampleRsaKey : RsaPrivateKey := { n := List.replicate 256 0xff, e := [1], d := [1] }

theorem sampleRsaKey_inverse : sampleRsaKey.Inverse := by
  intro m hm
  have he : bytesToBignum sampleRsaKey.e = 1 := by decide
  have hd : bytesToBignum sampleRsaKey.d = 1 := by decide
  rw [he, hd, Nat.pow_one, Nat.pow_one, Nat.mod_mod, Nat.mod_eq_of_lt hm]

def sampleExchangeDraws : Draws where
  serverNonce := Arr.ofList 16 [7]
  secrets := [Arr.ofList 256 (toBE 256 1300)]
  answerPad := fun _ => 0
  writeTime := fun n => 1700000000000000000 + Int64.ofNat n
  handshakeTime := 1700000000000000000
  answerTime := 1700000000000000000

def sampleRequest (n : UInt8) : ClientRequest where
  acks := [{ id := ⟨4, by decide⟩, msgIds := [1], short := by decide }]
  id := ⟨8, by decide⟩
  multi := true
  nonce := Arr.ofList 16 [n]

def sampleClient : Client where
  first := sampleRequest 1
  retries := [sampleRequest 2]
  dhAcks := [{ id := ⟨12, by decide⟩, msgIds := [], short := by decide }]
  dhId := ⟨16, by decide⟩
  p := [0x49, 0x4c, 0x55, 0x3b]
  q := [0x53, 0x91, 0x10, 0x73]
  kind := .tempDc
  dc := 2
  expiresIn := 86400
  newNonce := Arr.ofList 32 [9]
  rsaPadding := fun _ => 0
  rsaTempKeys := [Arr.zero 32]
  setAcks := []
  setId := ⟨20, by decide⟩
  retryId := 0
  secretB := [5]
  setPadding := fun _ => 0

def sampleShare : Bytes := bignumToMinimalBytes (modPow 3 1300 dhPrimeValue)

theorem exists_ok_of_isOk {α : Type} : ∀ {x : Except Exn α}, x.isOk = true → ∃ a, x = .ok a
  | .ok a, _ => ⟨a, rfl⟩

end ShuzaGram.Mtproto

import ShuzaGram.Properties.HandshakeAgreement

/-!
# What ties a client to an exchange

`ServerExchange::Run` reads a nonce and a server nonce four times after the first round and compares
none of them. What it does with the client's messages is the relation `Completes`: the exchange returns
exactly along it. From it follows what the server sends and returns, as a function of the nonces of the
requests, of the new nonce, the variant and the expiry in `p_q_inner_data` and of `g_b` alone.
-/

namespace ShuzaGram.Mtproto

open Infra Crypto Messages

/-- The messages of the client that an exchange accepted. -/
structure Transcript where
  /-- The nonces of the requests before the last one. -/
  retried : List (Arr 16)
  /-- The nonce of the last request. -/
  nonce : Arr 16
  dhParams : ReqDhParams
  inner : PqInnerData
  clientParams : SetClientDhParams
  clientInner : ClientDhInnerData

section

variable (P : Primitives) (key : RsaPrivateKey) (draws : Draws)

/-- The rounds before `req_DH_params`, with the nonces of the requests. -/
inductive Requests : Arr 16 → Wire Exn Bytes → List (Arr 16) → Arr 16 → ReqDhParams → Wire Exn Bytes → Prop where
  | done {nonce w dhParams w'} (h : resPqRound P key draws nonce w = .ok (.inr (nonce, dhParams)) w') :
      Requests nonce w [] nonce dhParams w'
  | again {first w next w₁ retried nonce dhParams w'} (h : resPqRound P key draws first w = .ok (.inl next) w₁)
      (rest : Requests next w₁ retried nonce dhParams w') :
      Requests first w (first :: retried) nonce dhParams w'

/-- The temporary keys that an exchange uses. -/
def Transcript.tempKeys (t : Transcript) : Bytes × Bytes := tempAesKeys P t.inner.newNonce draws.serverNonce

/-- What the server draws and computes on its own. -/
structure ServerShare where
  a : Arr 256
  gA : Bytes
  encryptedAnswer : Bytes
  expiresAt : Int
  authKey : Bytes

def Transcript.serverDhParamsOk (t : Transcript) (s : ServerShare) : ServerDhParamsOk :=
  { nonce := t.nonce, serverNonce := draws.serverNonce, encryptedAnswer := s.encryptedAnswer }

def Transcript.dhGenOk (t : Transcript) (s : ServerShare) : DhGenOk :=
  { nonce := t.nonce
    serverNonce := draws.serverNonce
    newNonceHash1 := nonceHash1 P t.inner.newNonce (Arr.ofList 256 s.authKey) }

def Transcript.result (t : Transcript) (s : ServerShare) : ServerExchangeResult :=
  { authKey := Arr.ofList 256 s.authKey
    serverSalt := serverSalt t.inner.newNonce draws.serverNonce
    expiresAt := Int32.ofInt s.expiresAt }

/-- What the server computes from the messages of the client. -/
structure Computes (t : Transcript) (s : ServerShare) : Prop where
  expiresAt : authKeyExpiresAt draws.handshakeTime t.inner = .ok s.expiresAt
  share : generateGa dhGenerator fixedDhPrime draws.secrets = .ok (s.a, s.gA)
  answer : encryptExchangeAnswer P (serverDhInnerData draws t.nonce s.gA).encode (t.tempKeys P draws).1
    (t.tempKeys P draws).2 draws.answerPad = .ok s.encryptedAnswer
  authKey : modPowFixed t.clientInner.gB s.a.toList fixedDhPrime 256 = .ok s.authKey

/-- An exchange from `w` to `w'` that accepted the messages of `t` and returned. -/
inductive Completes (w : Wire Exn Bytes) (t : Transcript) (s : ServerShare) (w' : Wire Exn Bytes) : Prop where
  | intro (first : UnencryptedMessage) (req : ReqPq) (msg : UnencryptedMessage) (w₁ w₂ w₃ : Wire Exn Bytes)
      (hfirst : readNextRealHandshakeMessage w = .ok first w₁)
      (hreq : decodeFrom ReqPq.decode first.messageData = .ok req)
      (hrequests : Requests P key draws req.nonce w₁ t.retried t.nonce t.dhParams w₂)
      (hinner : openPqInnerData P key t.dhParams.encryptedData = .ok t.inner)
      (hcomputes : Computes P draws t s)
      (hset : readNextRealHandshakeMessage
          { w₂ with sent := w₂.sent ++ [handshakeFrame draws w₂.sent.length (t.serverDhParamsOk draws s).encode] } =
        .ok msg w₃)
      (hclientParams : decodeFrom SetClientDhParams.decode msg.messageData = .ok t.clientParams)
      (hclientInner : openClientDhInnerData P t.clientParams.encryptedData (t.tempKeys P draws).1
        (t.tempKeys P draws).2 = .ok t.clientInner)
      (hend : w' = { w₃ with sent := w₃.sent ++ [handshakeFrame draws w₃.sent.length (t.dhGenOk P draws s).encode] })

end

/-! ## An exchange returns along `Completes` -/

section Inversion

variable {P : Primitives} {key : RsaPrivateKey} {draws : Draws}

theorem requests_of_loop {first : Arr 16} {r : Arr 16 × ReqDhParams} {w w' : Wire Exn Bytes}
    (h : Steps.Loop (resPqRound P key draws) first w r w') :
    ∃ retried, Requests P key draws first w retried r.1 r.2 w' := by
  induction h with
  | @done s w r w' h =>
    obtain ⟨nonce, dhParams⟩ := r
    have hsame : nonce = s := by
      unfold resPqRound at h
      obtain ⟨_, _, -, h⟩ := Steps.bind_eq_ok.mp h
      obtain ⟨next, _, -, h⟩ := Steps.bind_eq_ok.mp h
      obtain ⟨id, _, -, h⟩ := Steps.bind_eq_ok.mp h
      split at h
      · obtain ⟨_, _, -, h⟩ := Steps.bind_eq_ok.mp h
        cases h
      · obtain ⟨_, _, -, h⟩ := Steps.bind_eq_ok.mp h
        cases h
        rfl
    subst hsame
    exact ⟨[], .done h⟩
  | again h _ ih =>
    obtain ⟨retried, hrest⟩ := ih
    exact ⟨_ :: retried, .again h hrest⟩

theorem loop_of_requests {first nonce : Arr 16} {retried : List (Arr 16)} {dhParams : ReqDhParams}
    {w w' : Wire Exn Bytes} (h : Requests P key draws first w retried nonce dhParams w') :
    Steps.Loop (resPqRound P key draws) first w (nonce, dhParams) w' := by
  induction h with
  | done h => exact .done h
  | again h _ ih => exact .again h ih

theorem Completes.computes {w w' : Wire Exn Bytes} {t : Transcript} {s : ServerShare}
    (h : Completes P key draws w t s w') : Computes P draws t s := by
  cases h
  assumption

theorem completes_of_serverExchange {w w' : Wire Exn Bytes} {result : ServerExchangeResult}
    (h : serverExchange P key draws w = .ok result w') :
    ∃ t s, Completes P key draws w t s w' ∧ result = t.result draws s := by
  unfold serverExchange at h
  -- The binds of the source, one after another, with what each has read.
  obtain ⟨first, w₁, hfirst, h⟩ := Steps.bind_eq_ok.mp h
  obtain ⟨req, hreq, h⟩ := Talk.lift_bind_eq_ok.mp h
  obtain ⟨⟨nonce, dhParams⟩, w₂, hloop, h⟩ := Steps.bind_eq_ok.mp h
  obtain ⟨retried, hrequests⟩ :=
    requests_of_loop ((Steps.iterate_eq_ok (advances_resPqRound P key draws)).mp hloop)
  simp only [completeExchange] at h
  obtain ⟨inner, hinner, h⟩ := Talk.lift_bind_eq_ok.mp h
  obtain ⟨expiresAt, hexpires, h⟩ := Talk.lift_bind_eq_ok.mp h
  obtain ⟨⟨a, gA⟩, hshare, h⟩ := Talk.lift_bind_eq_ok.mp h
  obtain ⟨_, w₃, hsend, h⟩ := Steps.bind_eq_ok.mp h
  unfold sendServerDhParams at hsend
  obtain ⟨answer, hanswer, hsend⟩ := Talk.lift_bind_eq_ok.mp hsend
  cases hsend
  unfold finishExchange at h
  obtain ⟨msg, w₄, hset, h⟩ := Steps.bind_eq_ok.mp h
  obtain ⟨clientParams, hparams, h⟩ := Talk.lift_bind_eq_ok.mp h
  obtain ⟨clientInner, hclient, h⟩ := Talk.lift_bind_eq_ok.mp h
  obtain ⟨authKey, hkey, h⟩ := Talk.lift_bind_eq_ok.mp h
  obtain ⟨_, w₅, hwrite, h⟩ := Steps.bind_eq_ok.mp h
  cases hwrite
  cases h
  exact ⟨{ retried, nonce, dhParams, inner, clientParams, clientInner },
    { a, gA, encryptedAnswer := answer, expiresAt, authKey },
    .intro first req msg w₁ w₂ w₄ hfirst hreq hrequests hinner ⟨hexpires, hshare, hanswer, hkey⟩ hset hparams hclient
      rfl, rfl⟩

theorem serverExchange_of_completes {w w' : Wire Exn Bytes} {t : Transcript} {s : ServerShare}
    (h : Completes P key draws w t s w') : serverExchange P key draws w = .ok (t.result draws s) w' := by
  obtain ⟨first, req, msg, w₁, w₂, w₃, hfirst, hreq, hrequests, hinner, hcomputes, hset, hparams, hclient, rfl⟩ := h
  have hloop : Talk.iterate connectionClosed (resPqRound P key draws) req.nonce w₁ = .ok (t.nonce, t.dhParams) w₂ :=
    (Steps.iterate_eq_ok (advances_resPqRound P key draws)).mpr (loop_of_requests hrequests)
  have hsend : sendServerDhParams P draws t.nonce (t.tempKeys P draws).1 (t.tempKeys P draws).2 s.gA w₂ =
      .ok () { w₂ with sent := w₂.sent ++
        [handshakeFrame draws w₂.sent.length (t.serverDhParamsOk draws s).encode] } := by
    rw [sendServerDhParams, Talk.lift_bind_of_ok hcomputes.answer]
    rfl
  rw [serverExchange, Steps.bind_of_ok hfirst, Talk.lift_bind_of_ok hreq]
  refine (Steps.bind_of_ok hloop).trans ?_
  simp only [completeExchange]
  rw [Talk.lift_bind_of_ok hinner, Talk.lift_bind_of_ok hcomputes.expiresAt, Talk.lift_bind_of_ok hcomputes.share]
  refine (Steps.bind_of_ok hsend).trans ?_
  rw [finishExchange, Steps.bind_of_ok hset, Talk.lift_bind_of_ok hparams]
  refine (Talk.lift_bind_of_ok hclient).trans ?_
  rw [Talk.lift_bind_of_ok hcomputes.authKey]
  rfl

/-- **An exchange returns a result exactly when it completes with some messages of the client.** -/
theorem serverExchange_eq_ok {w w' : Wire Exn Bytes} {result : ServerExchangeResult} :
    serverExchange P key draws w = .ok result w' ↔
      ∃ t s, Completes P key draws w t s w' ∧ result = t.result draws s := by
  constructor
  · exact completes_of_serverExchange
  · rintro ⟨t, s, hcompletes, rfl⟩
    exact serverExchange_of_completes hcompletes

end Inversion

/-! ## What the server sends -/

section Sent

variable {P : Primitives} {key : RsaPrivateKey} {draws : Draws} {w w' : Wire Exn Bytes}

theorem nextRealRound_sent {u : Unit} {r : Unit ⊕ UnencryptedMessage} (h : nextRealRound u w = .ok r w') :
    w'.sent = w.sent := by
  unfold nextRealRound readHandshakeMessage at h
  obtain ⟨msg, w₁, hread, h⟩ := Steps.bind_eq_ok.mp h
  obtain ⟨frame, w₂, hframe, hread⟩ := Steps.bind_eq_ok.mp hread
  obtain ⟨-, rfl⟩ := Talk.lift_eq_ok.mp hread
  obtain ⟨id, -, h⟩ := Talk.lift_bind_eq_ok.mp h
  have hw : w' = w₂ := by
    split at h <;> cases h <;> rfl
  subst hw
  unfold Talk.receive at hframe
  split at hframe
  · cases hframe
  · split at hframe <;> cases hframe
    rfl

theorem readNextReal_sent {msg : UnencryptedMessage} (h : readNextRealHandshakeMessage w = .ok msg w') :
    w'.sent = w.sent :=
  Steps.iterate_rel (R := fun w w' : Wire Exn Bytes => w'.sent = w.sent) (fun huv hvw => hvw.trans huv) advances_nextRealRound
    nextRealRound_sent h

/-- Every round answers with the nonce that it started from. -/
theorem resPqRound_sent {nonce : Arr 16} {r : Arr 16 ⊕ (Arr 16 × ReqDhParams)}
    (h : resPqRound P key draws nonce w = .ok r w') :
    w'.sent = w.sent ++ [handshakeFrame draws w.sent.length (resPq P key draws nonce).encode] := by
  unfold resPqRound at h
  obtain ⟨_, w₁, hwrite, h⟩ := Steps.bind_eq_ok.mp h
  cases hwrite
  obtain ⟨next, w₂, hread, h⟩ := Steps.bind_eq_ok.mp h
  obtain ⟨id, -, h⟩ := Talk.lift_bind_eq_ok.mp h
  have hw : w' = w₂ := by
    split at h
    · obtain ⟨_, -, h⟩ := Talk.lift_bind_eq_ok.mp h
      cases h
      rfl
    · obtain ⟨_, -, h⟩ := Talk.lift_bind_eq_ok.mp h
      cases h
      rfl
  rw [hw, readNextReal_sent hread]

theorem requests_sent {first nonce : Arr 16} {retried : List (Arr 16)} {dhParams : ReqDhParams}
    (h : Requests P key draws first w retried nonce dhParams w') :
    w'.sent = w.sent ++ resPqFrames P key draws w.sent.length (retried ++ [nonce]) := by
  induction h with
  | done h => exact resPqRound_sent h
  | again h _ ih =>
    have hround := resPqRound_sent h
    have hlength := congrArg List.length hround
    rw [List.length_append, List.length_singleton] at hlength
    rw [ih, hlength, hround]
    simp [resPqFrames]

/-- The frames of an exchange that starts after `n` frames. -/
def exchangeFrames (P : Primitives) (key : RsaPrivateKey) (draws : Draws) (n : Nat) (t : Transcript) (s : ServerShare) :
    List Bytes :=
  let k := n + t.retried.length + 1
  resPqFrames P key draws n (t.retried ++ [t.nonce])
    ++ [handshakeFrame draws k (t.serverDhParamsOk draws s).encode,
        handshakeFrame draws (k + 1) (t.dhGenOk P draws s).encode]

theorem completes_sent {t : Transcript} {s : ServerShare} (h : Completes P key draws w t s w') :
    w'.sent = w.sent ++ exchangeFrames P key draws w.sent.length t s := by
  obtain ⟨first, req, msg, w₁, w₂, w₃, hfirst, -, hrequests, -, -, hset, -, -, rfl⟩ := h
  have h₁ := readNextReal_sent hfirst
  have h₂ := requests_sent hrequests
  have h₃ := readNextReal_sent hset
  have hlength : w₂.sent.length = w.sent.length + t.retried.length + 1 := by
    rw [h₂, h₁, List.length_append, length_resPqFrames, List.length_append, List.length_singleton]
    omega
  have hnext : (w₂.sent ++ [handshakeFrame draws w₂.sent.length (t.serverDhParamsOk draws s).encode]).length =
      w.sent.length + t.retried.length + 1 + 1 := by
    rw [List.length_append, List.length_singleton, hlength]
  simp only [h₃, hnext]
  rw [hlength, h₂, h₁]
  simp [exchangeFrames]

end Sent

/-! ## What an exchange depends on -/

section Dependence

variable {P : Primitives} {key : RsaPrivateKey} {draws : Draws}

/-- What a transcript holds besides nonces that are only repeated. -/
def Transcript.essence (t : Transcript) : List (Arr 16) × Arr 16 × Arr 32 × PqInnerDataKind × Int32 × Bytes :=
  (t.retried, t.nonce, t.inner.newNonce, t.inner.kind, t.inner.expiresIn, t.clientInner.gB)

theorem computes_unique {t₁ t₂ : Transcript} {s₁ s₂ : ServerShare} (h₁ : Computes P draws t₁ s₁)
    (h₂ : Computes P draws t₂ s₂) (h : t₁.essence = t₂.essence) : s₁ = s₂ := by
  simp only [Transcript.essence, Prod.mk.injEq] at h
  obtain ⟨-, hnonce, hnew, hkind, hexpires, hgB⟩ := h
  have hexp : s₁.expiresAt = s₂.expiresAt := by
    have h := h₁.expiresAt
    simp only [authKeyExpiresAt, hkind, hexpires] at h
    exact Except.ok.inj (h.symm.trans h₂.expiresAt)
  have hshare : (s₁.a, s₁.gA) = (s₂.a, s₂.gA) := Except.ok.inj (h₁.share.symm.trans h₂.share)
  obtain ⟨ha, hgA⟩ := Prod.mk.inj hshare
  have hanswer : s₁.encryptedAnswer = s₂.encryptedAnswer := by
    have h := h₁.answer
    simp only [Transcript.tempKeys, hnonce, hnew, hgA] at h
    exact Except.ok.inj (h.symm.trans h₂.answer)
  have hkey : s₁.authKey = s₂.authKey := by
    have h := h₁.authKey
    rw [hgB, ha] at h
    exact Except.ok.inj (h.symm.trans h₂.authKey)
  cases s₁
  cases s₂
  cases ha
  cases hgA
  cases hanswer
  cases hexp
  cases hkey
  rfl

/-- **Nonce binding, as far as it goes.** An exchange that returns has opened `p_q_inner_data` with the
server's key and `client_DH_inner_data` with the temporary keys of the new nonce and of its own server
nonce, and all its messages carry the nonce of the request before them and its own server nonce. The
nonces in the four messages of the client take no part: an exchange whose messages differ only there
returns and sends the same. -/
theorem serverExchange_binding {w w' : Wire Exn Bytes} {result : ServerExchangeResult}
    (h : serverExchange P key draws w = .ok result w') :
    ∃ t s, Completes P key draws w t s w' ∧
      openPqInnerData P key t.dhParams.encryptedData = .ok t.inner ∧
      openClientDhInnerData P t.clientParams.encryptedData (tempAesKeys P t.inner.newNonce draws.serverNonce).1
        (tempAesKeys P t.inner.newNonce draws.serverNonce).2 = .ok t.clientInner ∧
      result = t.result draws s ∧
      w'.sent = w.sent ++ exchangeFrames P key draws w.sent.length t s ∧
      ∀ {w₂ t₂ s₂ w₂'}, Completes P key draws w₂ t₂ s₂ w₂' → t₂.essence = t.essence →
        serverExchange P key draws w₂ = .ok result w₂' ∧ (w₂.sent = w.sent → w₂'.sent = w'.sent) := by
  obtain ⟨t, s, hcompletes, hresult⟩ := serverExchange_eq_ok.mp h
  have hsent := completes_sent hcompletes
  refine ⟨t, s, hcompletes, ?_, ?_, hresult, hsent, ?_⟩
  · obtain ⟨_, _, _, _, _, _, -, -, -, hinner, -, -, -, -, -⟩ := hcompletes
    exact hinner
  · obtain ⟨_, _, _, _, _, _, -, -, -, -, -, -, -, hclient, -⟩ := hcompletes
    exact hclient
  · intro w₂ t₂ s₂ w₂' h₂ hessence
    have hcomp : Computes P draws t s := by
      obtain ⟨_, _, _, _, _, _, -, -, -, -, hcomp, -, -, -, -⟩ := hcompletes
      exact hcomp
    have hcomp₂ : Computes P draws t₂ s₂ := by
      obtain ⟨_, _, _, _, _, _, -, -, -, -, hcomp, -, -, -, -⟩ := h₂
      exact hcomp
    -- The same essence computes the same, whatever else the second client sent.
    have hs := computes_unique hcomp₂ hcomp hessence
    subst hs
    simp only [Transcript.essence, Prod.mk.injEq] at hessence
    obtain ⟨hretried, hnonce, hnew, -, -, -⟩ := hessence
    have hsame : t₂.result draws s₂ = result := by
      rw [hresult, Transcript.result, Transcript.result, hnew]
    have hframes : exchangeFrames P key draws w.sent.length t₂ s₂ = exchangeFrames P key draws w.sent.length t s₂ := by
      simp only [exchangeFrames, Transcript.serverDhParamsOk, Transcript.dhGenOk, hretried, hnonce, hnew]
    refine ⟨serverExchange_eq_ok.mpr ⟨t₂, s₂, h₂, hsame.symm⟩, fun heq => ?_⟩
    rw [completes_sent h₂, hsent, heq, hframes]

end Dependence

/-! ## A client that repeats foreign nonces -/

/-- Every nonce that the client repeats is that of this exchange. -/
def NonceBinding : Prop :=
  ∀ {P : Primitives} {key : RsaPrivateKey} {draws : Draws} {w w' : Wire Exn Bytes} {t : Transcript} {s : ServerShare},
    Completes P key draws w t s w' →
      t.dhParams.nonce = t.nonce ∧ t.dhParams.serverNonce = draws.serverNonce ∧
      t.inner.nonce = t.nonce ∧ t.inner.serverNonce = draws.serverNonce ∧
      t.clientParams.nonce = t.nonce ∧ t.clientParams.serverNonce = draws.serverNonce ∧
      t.clientInner.nonce = t.nonce ∧ t.clientInner.serverNonce = draws.serverNonce

/-- A nonce of another exchange. -/
def foreignNonce (n : UInt8) : Arr 16 := Arr.ofList 16 [0xf0, n]

/-- `p_q_inner_data` as it was encrypted for another exchange. -/
def foreignInner : PqInnerData :=
  { sampleClient.pqInnerData (resPq lengthPrimitives sampleRsaKey sampleExchangeDraws (foreignNonce 1)) with
    nonce := foreignNonce 1, serverNonce := foreignNonce 2 }

def foreignDhParams : ReqDhParams :=
  { nonce := foreignNonce 1
    serverNonce := foreignNonce 2
    p := sampleClient.p
    q := sampleClient.q
    publicKeyFingerprint := 0
    encryptedData := (rsaPad lengthPrimitives foreignInner.encode sampleRsaKey.publicKey (fun _ => 0)
      [Arr.zero 32]).toOption.getD [] }

def foreignSetParams : SetClientDhParams :=
  { nonce := foreignNonce 1
    serverNonce := foreignNonce 2
    encryptedData := (encryptExchangeAnswer lengthPrimitives
      (ClientDhInnerData.encode
        { nonce := foreignNonce 1, serverNonce := foreignNonce 2, retryId := 0, gB := sampleClient.gB })
      (sampleClient.tempKeys lengthPrimitives sampleExchangeDraws).1
      (sampleClient.tempKeys lengthPrimitives sampleExchangeDraws).2 fun _ => 0).toOption.getD [] }

def foreignRequest : ClientRequest := { sampleRequest 1 with acks := [] }

def foreignWire : Wire Exn Bytes :=
  { incoming := [
      fun _ => .ok (clientFrame foreignRequest.id foreignRequest.reqPq.encode),
      fun _ => .ok (clientFrame sampleClient.dhId foreignDhParams.encode),
      fun _ => .ok (clientFrame sampleClient.setId foreignSetParams.encode)]
    sent := [] }

def returned {α : Type} : EStateM.Result Exn (Wire Exn Bytes) α → Bool
  | .ok _ _ => true
  | .error _ _ => false

theorem exists_ok_of_returned {α : Type} : ∀ {r : EStateM.Result Exn (Wire Exn Bytes) α},
    returned r = true → ∃ a w', r = .ok a w'
  | .ok a w', _ => ⟨a, w', rfl⟩

/-- The run on foreign nonces returns a result. -/
theorem serverExchange_foreign :
    ∃ result w', serverExchange lengthPrimitives sampleRsaKey sampleExchangeDraws foreignWire = .ok result w' :=
  exists_ok_of_returned (by decide +kernel)

theorem serverExchange_binding_sample :
    ∃ t s w', Completes lengthPrimitives sampleRsaKey sampleExchangeDraws foreignWire t s w' ∧
      openPqInnerData lengthPrimitives sampleRsaKey t.dhParams.encryptedData = .ok t.inner := by
  obtain ⟨result, w', hrun⟩ := serverExchange_foreign
  obtain ⟨t, s, hcompletes, hinner, -⟩ := serverExchange_binding hrun
  exact ⟨t, s, w', hcompletes, hinner⟩

/-- **Foreign nonces are accepted.** -/
theorem not_nonceBinding : ¬ NonceBinding := by
  intro hbinding
  obtain ⟨result, w', hrun⟩ := serverExchange_foreign
  obtain ⟨t, s, hcompletes, -⟩ := serverExchange_eq_ok.mp hrun
  have hequal := (hbinding hcompletes).1
  obtain ⟨retried, nonce, dhParams, inner, clientParams, clientInner⟩ := t
  obtain ⟨first, req, msg, w₁, w₂, w₃, hfirst, hreq, hrequests, -, -, -, -, -, -⟩ := hcompletes
  -- the first two messages of the client determine the nonces
  rw [readNextReal_request (r := foreignRequest) rfl] at hfirst
  cases hfirst
  rw [foreignRequest.decode_reqPq] at hreq
  cases hreq
  have hin : foreignWire.incoming.tail =
      ackMoves [] ++ (fun _ => .ok (clientFrame sampleClient.dhId foreignDhParams.encode)) :: foreignWire.incoming.tail.tail :=
    rfl
  have hround := resPqRound_dhParams (w := { foreignWire with incoming := foreignWire.incoming.tail }) lengthPrimitives
    sampleRsaKey sampleExchangeDraws foreignRequest.nonce hin rfl (by decide +kernel) (by decide +kernel)
  cases hrequests with
  | done h =>
    have heq := hround.symm.trans h
    cases heq
    exact absurd (show foreignNonce 1 = foreignRequest.nonce from hequal) (by decide)
  | again h _ =>
    have heq := hround.symm.trans h
    cases heq

end ShuzaGram.Mtproto

import ShuzaGram.Mtproto.TcpHandshakeServer
import ShuzaGram.Properties.Dispatch

/-!
# The identity of a call is the key of its frame

Every handler that a connection invokes gets the auth key id of the frame that carried the request,
which is the id of the key that the frame was decrypted with, and the session id inside that frame. The
key is the one of the last exchange of the connection, or the answer of the resolver for that id.

1. **Exceptions.** The only exception of an exchange that the connection acts on carries a frame and its
   first eight bytes. Nothing else that an exchange does throws it.
2. **A session** invokes handlers only for a frame that it could decrypt, and with the ids of that frame.
3. **A connection** enters its session with a key that stands for the first frame, and all later frames
   have to name the same key.
-/

namespace ShuzaGram.Mtproto

open Infra Crypto Messages

/-! ## Exceptions that carry a frame -/

/-- An exception that stands for an encrypted frame carries that frame and its first eight bytes. -/
def CarriesFrame (e : Exn) : Prop :=
  ∀ id frame, e = .unexpectedEncryptedFrame id frame → id.toList = frame.take 8

/-- Whatever a program throws is such an exception. -/
def Plain {S α : Type} (x : EStateM Exn S α) : Prop :=
  Steps.Ensures (fun _ => True) x (fun _ _ => True) (fun e _ => CarriesFrame e)

def PlainResult {α : Type} (y : Except Exn α) : Prop := ∀ e, y = .error e → CarriesFrame e

section Plain

variable {S α β : Type} {x : EStateM Exn S α} {f : α → EStateM Exn S β} {y : Except Exn α} {g : α → Except Exn β}

theorem plain_of_error (h : ∀ ⦃s e s'⦄, x s = .error e s' → CarriesFrame e) : Plain x :=
  ⟨fun _ _ _ _ _ => trivial, fun _ _ _ _ he => h he⟩

theorem Plain.bind (hx : Plain x) (hf : ∀ a, Plain (f a)) : Plain (x >>= f) := Steps.Ensures.bind hx hf

theorem plain_pure (a : α) : Plain (pure a : EStateM Exn S α) := Steps.ensures_pure fun _ _ => trivial

theorem plain_throw {e : Exn} (he : CarriesFrame e) : Plain (throw e : EStateM Exn S α) :=
  Steps.ensures_throw fun _ _ => he

theorem Plain.ite {c : Prop} [Decidable c] {y : EStateM Exn S α} (hx : Plain x) (hy : Plain y) :
    Plain (if c then x else y) := Steps.Ensures.ite hx hy

theorem PlainResult.bind (hy : PlainResult y) (hg : ∀ a, PlainResult (g a)) : PlainResult (y >>= g) := by
  intro e h
  cases hr : y with
  | error e' =>
    rw [hr] at h
    cases h
    exact hy _ hr
  | ok a =>
    rw [hr] at h
    exact hg a e h

theorem plainResult_ok (a : α) : PlainResult (.ok a : Except Exn α) := nofun

theorem plainResult_error {e : Exn} (he : CarriesFrame e) : PlainResult (.error e : Except Exn α) := by
  intro e' h
  cases h
  exact he

theorem PlainResult.ite {c : Prop} [Decidable c] {y' : Except Exn α} (hy : PlainResult y) (hy' : PlainResult y') :
    PlainResult (if c then y else y') := by
  split
  · exact hy
  · exact hy'

theorem plainResult_reportAs (what : String) (y : Except Exn α) : PlainResult (reportAs what y) := by
  intro e h
  unfold reportAs at h
  cases y with
  | ok a => cases h
  | error e' =>
    cases h
    exact nofun

end Plain

/-! ### Decoders -/

theorem plain_peekId : Plain peekId := by
  refine plain_of_error fun b e b' h => ?_
  unfold peekId at h
  split at h <;> cases h
  exact nofun

theorem plain_consumeN (n : Nat) : Plain (consumeN n) := by
  refine plain_of_error fun b e b' h => ?_
  unfold consumeN at h
  split at h <;> cases h
  exact nofun

theorem plain_getBytes : Plain getBytes := by
  refine plain_of_error fun b e b' h => ?_
  rcases getBytes_cases b with herror | ⟨headerLen, len, -, -, hok⟩
  · rw [herror] at h
    cases h
    exact nofun
  · rw [hok] at h
    cases h

theorem plain_consumeId (id : UInt32) : Plain (consumeId id) := by
  refine plain_peekId.bind fun got => ?_
  refine Plain.ite ?_ ?_
  · exact Plain.bind (plain_throw (e := .unexpectedId got) nofun) fun _ => (plain_consumeN 4).bind fun _ => plain_pure _
  · exact (plain_consumeN 4).bind fun _ => plain_pure _

theorem plain_int32 : Plain int32 :=
  (plain_peekId.bind fun _ => (plain_consumeN 4).bind fun _ => plain_pure _).bind fun _ => plain_pure _

theorem plain_long : Plain long := ((plain_consumeN 8).bind fun _ => plain_pure _).bind fun _ => plain_pure _

theorem plain_getArr (n : Nat) : Plain (getArr n) := (plain_consumeN n).bind fun _ => plain_pure _

theorem plainResult_decodeFrom {α : Type} {x : Get α} (hx : Plain x) (b : Bytes) : PlainResult (decodeFrom x b) := by
  intro e h
  unfold decodeFrom at h
  cases hxb : x b with
  | ok a b' =>
    rw [hxb] at h
    cases h
  | error e' b' =>
    rw [hxb] at h
    cases h
    exact hx.error trivial hxb

theorem plain_reqPq : Plain ReqPq.decode := by
  refine plain_peekId.bind fun typeId => Plain.ite ?_ ?_
  · refine Plain.bind (plain_throw (e := .unexpectedId typeId) nofun) fun _ => (plain_consumeId _).bind fun _ => ?_
    exact (plain_getArr 16).bind fun _ => plain_pure _
  · exact (plain_consumeId _).bind fun _ => (plain_getArr 16).bind fun _ => plain_pure _

theorem plain_reqDhParams : Plain ReqDhParams.decode := by
  refine (plain_consumeId _).bind fun _ => (plain_getArr 16).bind fun _ => (plain_getArr 16).bind fun _ => ?_
  refine plain_getBytes.bind fun _ => plain_getBytes.bind fun _ => plain_long.bind fun _ => ?_
  exact plain_getBytes.bind fun _ => plain_pure _

theorem plain_setClientDhParams : Plain SetClientDhParams.decode := by
  refine (plain_consumeId _).bind fun _ => (plain_getArr 16).bind fun _ => (plain_getArr 16).bind fun _ => ?_
  exact plain_getBytes.bind fun _ => plain_pure _

theorem plain_unencryptedMessage : Plain UnencryptedMessage.decode := by
  have hrest : Plain (do
      let messageId ← long
      let dataLen ← int32
      if dataLen < 0 then throw (.runtimeError "negative plaintext message length")
      let messageData ← consumeN dataLen.toInt.toNat
      return ({ messageId, messageData } : UnencryptedMessage)) := by
    refine plain_long.bind fun messageId => plain_int32.bind fun dataLen => Plain.ite ?_ ?_
    · exact Plain.bind (plain_throw (e := .runtimeError _) nofun) fun _ => (plain_consumeN _).bind fun _ => plain_pure _
    · exact (plain_consumeN _).bind fun _ => plain_pure _
  refine plain_long.bind fun authKeyId => Plain.ite ?_ hrest
  exact Plain.bind (plain_throw (e := .runtimeError _) nofun) fun _ => hrest

/-- A frame that is no part of an exchange is reported with its first eight bytes. -/
theorem plainResult_decodeHandshakeFrame (frame : Bytes) : PlainResult (decodeHandshakeFrame frame) := by
  have hrest : PlainResult (do
      let msg ← decodeFrom UnencryptedMessage.decode frame
      if MessageId.type msg.messageId ≠ .fromClient then
        throw (.runtimeError "handshake message has an unexpected message_id type")
      return msg) := by
    refine (plainResult_decodeFrom plain_unencryptedMessage frame).bind fun msg => PlainResult.ite ?_ (plainResult_ok _)
    exact plainResult_error (e := .runtimeError _) nofun
  unfold decodeHandshakeFrame
  split
  · next h =>
    refine plainResult_error (e := .unexpectedEncryptedFrame _ frame) ?_
    intro id frame' he
    cases he
    refine Arr.toList_ofList ?_
    rw [List.length_take]
    omega
  · exact hrest

/-! ### The key agreement -/

theorem plainResult_modPowFixed (base exponent modulus : Bytes) (fixedLen : Nat) :
    PlainResult (modPowFixed base exponent modulus fixedLen) := by
  unfold modPowFixed bignumToFixedBytes
  refine PlainResult.ite (plainResult_error nofun) (PlainResult.ite (plainResult_error nofun) (plainResult_ok _))

theorem plainResult_modPowBytes (base exponent modulus : Bytes) : PlainResult (modPowBytes base exponent modulus) := by
  unfold modPowBytes bnMod
  exact PlainResult.ite (plainResult_error nofun) (plainResult_ok _)

theorem plainResult_checkGP (g : Int) (p : Bytes) : PlainResult (checkGP g p) := by
  have hend : ∀ ok : Bool, PlainResult (if !ok then
      throw (.runtimeError "CheckGP: g is not a quadratic residue mod p") else pure () : Except Exn Unit) :=
    fun ok => PlainResult.ite (plainResult_error nofun) (plainResult_ok _)
  unfold checkGP
  simp only
  split
  all_goals first
    | exact PlainResult.bind (plainResult_ok _) hend
    | exact PlainResult.bind (plainResult_error nofun) hend

theorem plainResult_generateGaLoop (gBytes dhPrime : Bytes) :
    ∀ secrets, PlainResult (generateGaLoop gBytes dhPrime secrets)
  | [] => plainResult_error nofun
  | _ :: rest => (plainResult_modPowBytes _ _ _).bind fun _ =>
    (plainResult_ok _).ite (plainResult_generateGaLoop gBytes dhPrime rest)

theorem plainResult_generateGa (g : Int32) (dhPrime : Bytes) (secrets : List (Arr 256)) :
    PlainResult (generateGa g dhPrime secrets) :=
  (plainResult_checkGP _ _).bind fun _ => plainResult_generateGaLoop _ _ _

theorem plainResult_authKeyExpiresAt (handshakeTime : Int64) (inner : PqInnerData) :
    PlainResult (authKeyExpiresAt handshakeTime inner) := by
  unfold authKeyExpiresAt
  refine PlainResult.ite (PlainResult.ite ?_ (PlainResult.ite ?_ (plainResult_ok _))) (plainResult_ok _)
  · exact plainResult_error nofun
  · exact plainResult_error nofun

theorem plainResult_encryptExchangeAnswer (P : Primitives) (answer key iv : Bytes) (pad : Nat → UInt8) :
    PlainResult (encryptExchangeAnswer P answer key iv pad) := by
  refine PlainResult.bind ?_ fun _ => plainResult_ok _
  unfold checkIgeArgs
  refine PlainResult.ite (plainResult_error nofun) (PlainResult.ite (plainResult_error nofun) ?_)
  exact PlainResult.ite (plainResult_error nofun) (plainResult_ok _)

/-! ### An exchange -/

/-- Nothing that the peer still does breaks the connection with the exception for an encrypted frame. -/
def PlainWire (w : Wire Exn Bytes) : Prop := ∀ move ∈ w.incoming, ∀ sent, PlainResult (move sent)

/-- A program of the exchange over such a wire. -/
def PlainTalk {α : Type} (x : Exchange α) : Prop :=
  Steps.Ensures PlainWire x (fun _ => PlainWire) (fun e _ => CarriesFrame e)

section PlainTalk

variable {α β : Type} {x : Exchange α} {f : α → Exchange β}

theorem PlainTalk.bind (hx : PlainTalk x) (hf : ∀ a, PlainTalk (f a)) : PlainTalk (x >>= f) := Steps.Ensures.bind hx hf

theorem plainTalk_pure (a : α) : PlainTalk (pure a) := Steps.ensures_pure fun _ h => h

theorem plainTalk_lift {y : Except Exn α} (hy : PlainResult y) : PlainTalk (Talk.lift y) where
  ok w a w' hw h := by
    obtain ⟨-, rfl⟩ := Talk.lift_eq_ok.mp h
    exact hw
  error w e w' _ h := by
    unfold Talk.lift at h
    cases y with
    | ok a => cases h
    | error e' =>
      cases h
      exact hy _ rfl

theorem plainTalk_receive : PlainTalk (Talk.receive connectionClosed) := by
  constructor
  · intro w a w' hw h
    unfold Talk.receive at h
    split at h
    · cases h
    · next move rest hin =>
      split at h <;> cases h
      exact fun move' hmem => hw move' (by rw [hin]; exact List.mem_cons_of_mem _ hmem)
  · intro w e w' hw h
    unfold Talk.receive at h
    split at h
    · cases h
      exact nofun
    · next move rest hin =>
      split at h
      · cases h
      · next hmove =>
        cases h
        exact hw move (by rw [hin]; exact List.mem_cons_self) _ _ hmove

theorem plainTalk_write (draws : Draws) (payload : Bytes) : PlainTalk (writeHandshakeMessage draws payload) where
  ok w a w' hw h := by
    cases h
    exact hw
  error w e w' _ h := by cases h

theorem plainTalk_readNextReal : PlainTalk readNextRealHandshakeMessage := by
  refine Steps.Ensures.iterate advances_nextRealRound (fun _ => ?_) ()
  have hread : PlainTalk readHandshakeMessage :=
    plainTalk_receive.bind fun frame => plainTalk_lift (plainResult_decodeHandshakeFrame frame)
  refine hread.bind fun msg => (plainTalk_lift (plainResult_decodeFrom plain_peekId _)).bind fun id => ?_
  exact Steps.Ensures.ite (plainTalk_pure _) (plainTalk_pure _)

variable (P : Primitives) (key : RsaPrivateKey) (draws : Draws)

theorem plainTalk_resPqRound (nonce : Arr 16) : PlainTalk (resPqRound P key draws nonce) := by
  refine (plainTalk_write draws _).bind fun _ => plainTalk_readNextReal.bind fun next => ?_
  refine (plainTalk_lift (plainResult_decodeFrom plain_peekId _)).bind fun id => Steps.Ensures.ite ?_ ?_
  · exact (plainTalk_lift (plainResult_decodeFrom plain_reqPq _)).bind fun _ => plainTalk_pure _
  · exact (plainTalk_lift (plainResult_decodeFrom plain_reqDhParams _)).bind fun _ => plainTalk_pure _

theorem plainTalk_sendServerDhParams (nonce : Arr 16) (tempKey tempIv gA : Bytes) :
    PlainTalk (sendServerDhParams P draws nonce tempKey tempIv gA) :=
  (plainTalk_lift (plainResult_encryptExchangeAnswer _ _ _ _ _)).bind fun _ => plainTalk_write draws _

theorem plainTalk_finishExchange (nonce : Arr 16) (newNonce : Arr 32) (expiresAt : Int) (a : Arr 256)
    (tempKey tempIv : Bytes) : PlainTalk (finishExchange P draws nonce newNonce expiresAt a tempKey tempIv) := by
  refine plainTalk_readNextReal.bind fun msg => ?_
  refine (plainTalk_lift (plainResult_decodeFrom plain_setClientDhParams _)).bind fun clientParams => ?_
  refine (plainTalk_lift (plainResult_reportAs _ _)).bind fun clientInner => ?_
  refine (plainTalk_lift (plainResult_modPowFixed _ _ _ _)).bind fun authKeyBytes => ?_
  exact (plainTalk_write draws _).bind fun _ => plainTalk_pure _

theorem plainTalk_completeExchange (nonce : Arr 16) (dhParams : ReqDhParams) :
    PlainTalk (completeExchange P key draws nonce dhParams) := by
  refine (plainTalk_lift (plainResult_reportAs _ _)).bind fun inner => ?_
  refine (plainTalk_lift (plainResult_authKeyExpiresAt _ _)).bind fun expiresAt => ?_
  refine (plainTalk_lift (plainResult_generateGa _ _ _)).bind fun share => ?_
  exact (plainTalk_sendServerDhParams P draws nonce _ _ _).bind fun _ => plainTalk_finishExchange P draws nonce _ _ _ _ _

/-- **The exception by which an exchange hands over a frame carries that frame and its first eight
bytes**, whatever the client sends. -/
theorem plainTalk_serverExchange : PlainTalk (serverExchange P key draws) := by
  refine plainTalk_readNextReal.bind fun first => ?_
  refine (plainTalk_lift (plainResult_decodeFrom plain_reqPq _)).bind fun req => ?_
  refine PlainTalk.bind ?_ fun r => plainTalk_completeExchange P key draws r.1 r.2
  exact Steps.Ensures.iterate (advances_resPqRound P key draws) (plainTalk_resPqRound P key draws) req.nonce

end PlainTalk

/-! ## A session -/

section Session

variable {W : Type} {cfg : SessionConfig W}

theorem dispatchOne_ctx {sessionId msgId : Int64} {body : Bytes} {w : W} {inv : Invocation}
    (h : (dispatchOne cfg sessionId msgId body w).invoked = some inv) : inv.ctx = cfg.context sessionId := by
  cases hr : reached cfg body with
  | none =>
    rw [(dispatchOne_not_reached hr w).1] at h
    cases h
  | some x =>
    obtain ⟨handler, id, args⟩ := x
    rw [dispatchOne_reached hr w] at h
    cases h
    rfl

/-- The session id of a loop is the one it starts with. -/
theorem dispatchAll_ctx (draws : Nat → Draw) (outer : Int64) (i : Nat) (ms : List InnerMessage) (s : SessionState W) :
    ∀ x ∈ (dispatchAll cfg draws outer i ms s).invoked, x.2.ctx = cfg.context s.sessionId := by
  have hat : ∀ i s m, ∀ x ∈ invokedAt outer i (dispatchIn cfg s m), x.2.ctx = cfg.context s.sessionId := by
    intro i s m x hx
    unfold invokedAt at hx
    obtain ⟨inv, hinv, rfl⟩ := List.mem_map.mp hx
    exact dispatchOne_ctx (Option.mem_toList.mp hinv)
  refine dispatchAll_induct (motive := fun _ _ s c => ∀ x ∈ c.invoked, x.2.ctx = cfg.context s.sessionId)
    ?_ ?_ ?_ ?_ ms i s
  · intro i s x hx
    cases hx
  · intro i m ms s e _ x hx
    exact hat i s m x hx
  · intro i m ms s c _ ih x hx
    exact (List.mem_append.mp hx).elim (hat i s m x) (ih x)
  · intro i m ms s c response _ _ ih x hx
    exact (List.mem_append.mp hx).elim (hat i s m x) (ih x)

/-- A message that decrypts names the key. -/
theorem authKeyId_of_decrypt {P : Primitives} {authKey : AuthKeyBytes} {m : EncryptedMessage} {side : Side}
    {data : EncryptedMessageData} (h : decryptMessage P authKey m side = .ok data) :
    m.authKeyId = authKeyId P authKey := by
  by_contra hne
  unfold decryptMessage at h
  rw [if_pos hne] at h
  cases h

/-- **A call of the session invokes handlers only for a message that it decrypted**, and with the ids of
that message. -/
theorem handleEncrypted_ctx (draws : Nat → Draw) (s : SessionState W) (incoming : EncryptedMessage) :
    ∀ x ∈ (handleEncrypted cfg draws s incoming).invoked,
      ∃ data, decryptMessage cfg.P cfg.authKey incoming cfg.mySide = .ok data ∧
        x.2.ctx = cfg.context data.sessionId := by
  intro x hx
  have hhandled := handleEncrypted_handled cfg draws s incoming
  generalize handleEncrypted cfg draws s incoming = c at hhandled hx
  cases hhandled with
  | undecryptable _ => cases hx
  | replayed _ _ => cases hx
  | malformed _ _ _ => cases hx
  | @accepted data inner hdec _ _ =>
    exact ⟨data, hdec, dispatchAll_ctx draws data.messageId 0 inner (s.accept data) x hx⟩

/-- A call that returns has decrypted its message. -/
theorem exists_decrypt_of_ok {draws : Nat → Draw} {s : SessionState W} {incoming : EncryptedMessage}
    {replies : List EncryptedMessage} (h : (handleEncrypted cfg draws s incoming).result = .ok replies) :
    ∃ data, decryptMessage cfg.P cfg.authKey incoming cfg.mySide = .ok data := by
  have hhandled := handleEncrypted_handled cfg draws s incoming
  generalize handleEncrypted cfg draws s incoming = c at hhandled h
  cases hhandled with
  | undecryptable _ => cases h
  | replayed hdec _ => exact ⟨_, hdec⟩
  | malformed hdec _ _ => exact ⟨_, hdec⟩
  | accepted hdec _ _ => exact ⟨_, hdec⟩

/-- The first eight bytes of a frame are the key id of its envelope. -/
theorem take_of_decode {frame : Bytes} {m : EncryptedMessage} (h : decodeFrom EncryptedMessage.decode frame = .ok m) :
    frame.take 8 = m.authKeyId.toList := by
  unfold decodeFrom at h
  cases hdec : EncryptedMessage.decode frame with
  | error e b =>
    rw [hdec] at h
    cases h
  | ok m' b =>
    rw [hdec] at h
    cases h
    unfold EncryptedMessage.decode at hdec
    split at hdec
    · cases hdec
    · next hlen =>
      obtain ⟨id, b₁, hid, hdec⟩ := Get.bind_eq_ok.mp hdec
      obtain ⟨msgKey, b₂, -, hdec⟩ := Get.bind_eq_ok.mp hdec
      obtain ⟨rest, b₃, -, hdec⟩ := Get.bind_eq_ok.mp hdec
      cases hdec
      obtain ⟨bs, b₄, hbs, hid⟩ := Get.bind_eq_ok.mp hid
      cases hid
      unfold consumeN at hbs
      split at hbs <;> cases hbs
      refine (Arr.toList_ofList ?_).symm
      rw [List.length_take]
      omega

end Session

/-! ## A connection -/

section Connection

variable {W : Type}

/-- Where the key of a frame that starts with `id` may come from: it is the key of the last exchange, or
what the resolver answered for that id. -/
def Connection.Vouches (c : Connection W) (authKey : AuthKeyBytes) (id : Bytes) : Prop :=
  (∃ r, c.completed.getLast? = some r ∧ r.authKey = authKey) ∨
    ∃ l ∈ c.lookups, l.authKeyId.toList = id ∧ ∃ r, l.resolved = some r ∧ r.authKey = authKey

/-- A run of a handler under the identity of the frame that carried the request: the auth key id is how
the frame starts and the id of the key it was decrypted with, the session id is the one inside the frame,
and the connection vouches for the key. -/
def Identified (P : Primitives) (c : Connection W) (h : HandledFrame W) (inv : Invocation) : Prop :=
  inv.ctx.authKeyId.toList = h.frame.take 8 ∧
    inv.ctx.authKeyId = authKeyId P h.authKey ∧
    (∃ m data, decodeFrom EncryptedMessage.decode h.frame = .ok m ∧
      decryptMessage P h.authKey m .server = .ok data ∧ inv.ctx.sessionId = data.sessionId) ∧
    c.Vouches h.authKey (h.frame.take 8)

/-- All runs of handlers on a connection are so. -/
def AllIdentified (P : Primitives) (c : Connection W) : Prop :=
  ∀ h ∈ c.handled, ∀ x ∈ h.invoked, Identified P c h x.2

theorem allIdentified_of_nil {P : Primitives} {c : Connection W} (h : c.handled = []) : AllIdentified P c := by
  intro h' hmem
  rw [h] at hmem
  cases hmem

/-- What does not depend on the wire stays as it is while frames are read and written. -/
theorem ensures_onWire {α : Type} {x : Exchange α} {I : Connection W → Prop}
    (hI : ∀ c wire, I c → I { c with wire }) : Steps.Ensures I (onWire x) (fun _ => I) (fun _ => I) := by
  constructor
  · intro c a c' hc h
    obtain ⟨wire, -, rfl⟩ := onWire_eq_ok.mp h
    exact hI c wire hc
  · intro c e c' hc h
    unfold onWire at h
    cases hx : x c.wire with
    | ok a wire =>
      rw [hx] at h
      cases h
    | error e' wire =>
      rw [hx] at h
      cases h
      exact hI c wire hc

theorem ensures_onWire_lift {α : Type} {y : Except Exn α} {I : Connection W → Prop}
    (hI : ∀ c wire, I c → I { c with wire }) :
    Steps.Ensures I (onWire (Talk.lift y)) (fun a c => I c ∧ y = .ok a) (fun _ => I) := by
  refine ⟨fun c a c' hc h => ?_, (ensures_onWire hI).error⟩
  obtain ⟨wire, hy, rfl⟩ := onWire_eq_ok.mp h
  exact ⟨hI c wire hc, (Talk.lift_eq_ok.mp hy).1⟩

section Handle

variable {env : Surroundings W} {cfg : SessionConfig W} {frame : Bytes}

/-- The id of the key of a session. -/
def SessionConfig.keyId (cfg : SessionConfig W) : Bytes := (authKeyId cfg.P cfg.authKey).toList

/-- What a session needs to know of a frame: if the frame names the key of the session, the connection
vouches for that key. -/
def Admits (cfg : SessionConfig W) (frame : Bytes) (c : Connection W) : Prop :=
  AllIdentified cfg.P c ∧ (frame.take 8 = cfg.keyId → c.Vouches cfg.authKey cfg.keyId)

/-- Handling a frame invokes handlers under the identity of that frame; when it returns, the frame has
named the key of the session. -/
theorem ensures_handleEncryptedFrame (hside : cfg.mySide = .server) (s : SessionState W) {encrypted : EncryptedMessage}
    (hdec : decodeFrom EncryptedMessage.decode frame = .ok encrypted) :
    Steps.Ensures (Admits cfg frame) (handleEncryptedFrame env cfg s frame encrypted)
      (fun call c => AllIdentified cfg.P c ∧ ∀ replies, call.result = .ok replies → c.Vouches cfg.authKey cfg.keyId)
      (fun _ c => AllIdentified cfg.P c) := by
  have hnames : ∀ {data}, decryptMessage cfg.P cfg.authKey encrypted cfg.mySide = .ok data → frame.take 8 = cfg.keyId := by
    intro data hdecrypt
    rw [take_of_decode hdec, authKeyId_of_decrypt hdecrypt]
    rfl
  constructor
  · rintro c call c' ⟨hall, hvouch⟩ h
    cases h
    refine ⟨fun h hmem x hx => ?_, fun replies hresult => ?_⟩
    -- The frames of before, or the one that is handled now, which decrypts under the key of the session.
    · rcases List.mem_append.mp hmem with hmem | hmem
      · exact hall h hmem x hx
      · rw [List.mem_singleton] at hmem
        subst hmem
        obtain ⟨data, hdecrypt, hctx⟩ := handleEncrypted_ctx _ _ _ x hx
        have hframe := hnames hdecrypt
        rw [hside] at hdecrypt
        refine ⟨?_, ?_, ⟨encrypted, data, hdec, hdecrypt, ?_⟩, ?_⟩
        · rw [hctx, hframe]
          rfl
        · rw [hctx]
          rfl
        · rw [hctx]
          rfl
        · rw [hframe]
          exact hvouch hframe
    · obtain ⟨data, hdecrypt⟩ := exists_decrypt_of_ok hresult
      exact hvouch (hnames hdecrypt)
  · intro c e c' _ h
    cases h

theorem ensures_handleFrame (hside : cfg.mySide = .server) (s : SessionState W) :
    Steps.Ensures (Admits cfg frame) (handleFrame env cfg s frame)
      (fun _ c => AllIdentified cfg.P c ∧ c.Vouches cfg.authKey cfg.keyId) (fun _ c => AllIdentified cfg.P c) := by
  refine Steps.Ensures.bind ((ensures_onWire_lift fun _ _ hc => hc).mono (fun _ hc => hc) (fun _ _ hc => hc)
    (fun _ _ hc => hc.1)) fun encrypted => ?_
  have hhandle : Steps.Ensures (fun c => Admits cfg frame c ∧ decodeFrom EncryptedMessage.decode frame = .ok encrypted)
      (handleEncryptedFrame env cfg s frame encrypted)
      (fun call c => AllIdentified cfg.P c ∧ ∀ replies, call.result = .ok replies → c.Vouches cfg.authKey cfg.keyId)
      (fun _ c => AllIdentified cfg.P c) :=
    ⟨fun _ _ _ hc h => (ensures_handleEncryptedFrame hside s hc.2).ok hc.1 h,
      fun _ _ _ hc h => (ensures_handleEncryptedFrame hside s hc.2).error hc.1 h⟩
  refine hhandle.bind fun call => ?_
  refine Steps.Ensures.bind ((ensures_onWire_lift fun _ _ hc => hc).mono (fun _ hc => hc)
    (fun replies c hc => And.intro hc.1.1 (hc.1.2 replies hc.2)) (fun _ _ hc => hc.1)) fun replies => ?_
  refine Steps.Ensures.bind ((ensures_onWire fun _ _ hc => hc).mono (fun _ hc => hc) (fun _ _ hc => hc)
    (fun _ _ hc => hc.1)) fun _ => ?_
  exact Steps.ensures_pure fun _ hc => hc

theorem ensures_sessionRound (hside : cfg.mySide = .server) (s : SessionState W) :
    Steps.Ensures (fun c => AllIdentified cfg.P c ∧ c.Vouches cfg.authKey cfg.keyId) (sessionRound env cfg s)
      (fun _ c => AllIdentified cfg.P c ∧ c.Vouches cfg.authKey cfg.keyId) (fun _ c => AllIdentified cfg.P c) := by
  refine Steps.Ensures.bind ((ensures_onWire fun _ _ hc => hc).mono (fun _ hc => hc) (fun _ _ hc => hc)
    (fun _ _ hc => hc.1)) fun frame => ?_
  refine Steps.Ensures.bind ((ensures_handleFrame hside s).mono (fun c hc => ⟨hc.1, fun _ => hc.2⟩) (fun _ _ hc => hc)
    (fun _ _ hc => hc)) fun s' => ?_
  exact Steps.ensures_pure fun _ hc => hc

/-- A session that starts with a frame its key is vouched for. -/
theorem ensures_serveFrames (hside : cfg.mySide = .server) (s : SessionState W) :
    Steps.Ensures (Admits cfg frame) (serveFrames env cfg s frame) (fun _ c => AllIdentified cfg.P c)
      (fun _ c => AllIdentified cfg.P c) := by
  refine Steps.Ensures.bind (ensures_handleFrame hside s) fun s' => ?_
  refine (Steps.Ensures.iterate (advances_sessionRound cfg) (ensures_sessionRound hside) s').mono (fun _ hc => hc)
    (fun _ _ hc => hc.1) (fun _ _ hc => hc)

end Handle

section Exchanges

variable {srv : TcpHandshakeServer W} {env : Surroundings W}

/-- Before the session: no frame has been handled, and the key of the connection, if it has one, is the
one of its last exchange. -/
def Exchanging (sessionKey : Option ResolvedAuthKey) (c : Connection W) : Prop :=
  c.handled = [] ∧ ∀ key, sessionKey = some key → ∃ r, c.completed.getLast? = some r ∧ r.authKey = key.authKey

/-- The connection is about to serve `frame` under `key`. -/
def Starting (key : ResolvedAuthKey) (frame : Bytes) (c : Connection W) : Prop :=
  c.handled = [] ∧ c.Vouches key.authKey (frame.take 8)

theorem ensures_resolveFrame {sessionKey : Option ResolvedAuthKey} {id : Arr 8} {frame : Bytes}
    (hid : id.toList = frame.take 8) :
    Steps.Ensures (Exchanging sessionKey) (resolveFrame srv env sessionKey id frame)
      (fun key c => Starting key frame c) (fun _ c => c.handled = []) := by
  unfold resolveFrame
  split
  · next key hkey =>
    refine Steps.ensures_pure fun c hc => ⟨hc.1, .inl ?_⟩
    exact hc.2 key (Option.filter_eq_some_iff.mp hkey).1
  · split
    · next registry resolver _ _ =>
      have hlook : Steps.Ensures (Exchanging sessionKey) (lookUp env resolver id)
          (fun resolved c => c.handled = [] ∧ ∀ key, resolved = some key → Starting key frame c)
          (fun _ c => c.handled = []) := by
        refine ⟨fun c r c' hc h => ?_, fun c e c' _ h => ?_⟩
        · cases h
          refine ⟨hc.1, fun key hkey => ⟨hc.1, .inr ?_⟩⟩
          exact ⟨_, List.mem_append_right _ (List.mem_singleton_self _), hid, key, hkey, rfl⟩
        · cases h
      refine hlook.bind fun resolved => ?_
      split
      · next key => exact Steps.ensures_pure fun c hc => hc.2 key rfl
      · refine Steps.Ensures.bind ((ensures_onWire (I := fun c => c.handled = []) fun _ _ hc => hc).mono
          (fun _ hc => hc.1) (fun _ _ hc => hc) (fun _ _ hc => hc)) fun _ => ?_
        exact Steps.ensures_throw fun _ hc => hc
    · exact Steps.ensures_throw fun _ hc => hc.1

/-- One exchange, seen from the connection. -/
theorem ensures_exchange (n : Nat) (sessionKey : Option ResolvedAuthKey) :
    Steps.Ensures (fun c => PlainWire c.wire ∧ Exchanging sessionKey c)
      (onWire (serverExchange srv.P srv.key (env.exchangeDraws n)) : Serving W ServerExchangeResult)
      (fun _ c => PlainWire c.wire ∧ Exchanging sessionKey c)
      (fun e c => CarriesFrame e ∧ Exchanging sessionKey c) := by
  have hplain := plainTalk_serverExchange srv.P srv.key (env.exchangeDraws n)
  constructor
  · intro c result c' hc h
    obtain ⟨wire, hwire, rfl⟩ := onWire_eq_ok.mp h
    exact ⟨hplain.ok hc.1 hwire, hc.2⟩
  · intro c e c' hc h
    unfold onWire at h
    cases hx : serverExchange srv.P srv.key (env.exchangeDraws n) c.wire with
    | ok a wire =>
      rw [hx] at h
      cases h
    | error e' wire =>
      rw [hx] at h
      cases h
      exact ⟨hplain.error hc.1 hx, hc.2⟩

/-- A round goes on with the key of its exchange, or ends with a key that is vouched for. -/
theorem ensures_nextExchange (n : Nat) (sessionKey : Option ResolvedAuthKey) :
    Steps.Ensures (fun c => PlainWire c.wire ∧ Exchanging sessionKey c) (nextExchange srv env n sessionKey)
      (fun r c => Sum.elim (fun key => PlainWire c.wire ∧ Exchanging key c)
        (fun start => c.handled = [] ∧ ∀ key frame, start = some (key, frame) → Starting key frame c) r)
      (fun _ c => c.handled = []) := by
  refine (ensures_exchange n sessionKey).attempt.bind fun r => ?_
  -- An exchange ends with a key, at a frame for a key that is resolved, or with an exception.
  cases r with
  | ok result =>
    have hreport : Steps.Ensures (fun c => PlainWire c.wire ∧ Exchanging sessionKey c) (report srv env result)
        (fun _ c => PlainWire c.wire ∧
          Exchanging (some { authKey := result.authKey, serverSalt := result.serverSalt }) c)
        (fun _ c => c.handled = []) := by
      refine ⟨fun c _ c' hc h => ?_, fun c e c' _ h => ?_⟩
      · cases h
        refine ⟨hc.1, hc.2.1, fun key hkey => ⟨result, List.getLast?_concat, ?_⟩⟩
        cases hkey
        rfl
      · cases h
    refine hreport.bind fun _ => Steps.Ensures.ite ?_ ?_
    · exact Steps.ensures_pure fun c hc => ⟨hc.2.1, nofun⟩
    · exact Steps.ensures_pure fun c hc => hc
  | error e =>
    show Steps.Ensures (fun c => CarriesFrame e ∧ Exchanging sessionKey c) _ _ _
    split
    · next heq => cases heq
    · next id frame heq =>
      cases heq
      have hresolve : Steps.Ensures (fun c => CarriesFrame (.unexpectedEncryptedFrame id frame) ∧ Exchanging sessionKey c)
          (resolveFrame srv env sessionKey id frame) (fun key c => Starting key frame c) (fun _ c => c.handled = []) :=
        ⟨fun _ _ _ hc h => (ensures_resolveFrame (hc.1 id frame rfl)).ok hc.2 h,
          fun _ _ _ hc h => (ensures_resolveFrame (hc.1 id frame rfl)).error hc.2 h⟩
      refine hresolve.bind fun key => Steps.ensures_pure fun c hc => ⟨hc.1, ?_⟩
      rintro key' frame' h
      cases h
      exact hc
    · exact Steps.ensures_throw fun c hc => hc.2.1

variable (srv env) in
/-- The whole connection. -/
theorem ensures_serveConnection :
    Steps.Ensures (fun c => PlainWire c.wire ∧ Exchanging none c) (serveConnection srv env)
      (fun _ c => AllIdentified srv.P c) (fun _ c => AllIdentified srv.P c) := by
  have hloop : Steps.Ensures (fun c => PlainWire c.wire ∧ Exchanging none c)
      (Steps.iterate Connection.left connectionClosed (exchangeRound srv env) none)
      (fun start c => c.handled = [] ∧ ∀ key frame, start = some (key, frame) → Starting key frame c)
      (fun _ c => AllIdentified srv.P c) :=
    Steps.ensures_iterate advances_exchangeRound (fun key c => PlainWire c.wire ∧ Exchanging key c)
      (fun key => ⟨fun _ _ _ hc h => (ensures_nextExchange _ key).ok hc h,
        fun _ _ _ hc h => allIdentified_of_nil ((ensures_nextExchange _ key).error hc h)⟩) none
  refine hloop.bind fun start => ?_
  split
  · exact Steps.ensures_pure fun c hc => allIdentified_of_nil hc.1
  · next key frame =>
    refine Steps.Ensures.ite (Steps.ensures_pure fun c hc => allIdentified_of_nil hc.1) ?_
    have hstart : ∀ c : Connection W, (c.handled = [] ∧ ∀ key' frame', some (key, frame) = some (key', frame') →
        Starting key' frame' c) → Admits (sessionConfig srv key) frame c := by
      rintro c ⟨hnil, hvouch⟩
      refine ⟨allIdentified_of_nil hnil, fun hframe => ?_⟩
      rw [← hframe]
      exact (hvouch key frame rfl).2
    exact ⟨fun _ _ _ hc h => (ensures_serveFrames rfl _).ok (hstart _ hc) h,
      fun _ _ _ hc h => (ensures_serveFrames rfl _).error (hstart _ hc) h⟩

end Exchanges

theorem plainWire_open (d : Delivery) (world : W) : PlainWire (Connection.open d world).wire := by
  intro move hmem sent
  rcases List.mem_append.mp hmem with hmem | hmem
  · obtain ⟨frame, -, rfl⟩ := List.mem_map.mp hmem
    exact plainResult_ok _
  · rw [List.mem_singleton] at hmem
    subst hmem
    exact plainResult_error nofun

/-- **The identity of a call is the key of its frame.** On every connection, whatever frames are
delivered and whatever the resolver knows, every handler runs under the auth key id that its frame starts
with, which is the id of the key the frame was decrypted with, and under the session id inside that frame;
and that key is the one of the last exchange that the connection completed, or the resolver's answer for
exactly that id. -/
theorem serveConnection_identified (srv : TcpHandshakeServer W) (env : Surroundings W) (d : Delivery) (world : W) :
    let c := Steps.final (serveConnection srv env) (Connection.open d world)
    ∀ h ∈ c.handled, ∀ x ∈ h.invoked, Identified srv.P c h x.2 := by
  exact (ensures_serveConnection srv env).final ⟨plainWire_open d world, rfl, nofun⟩

end Connection

/-- Hashes of ones and a cipher that does nothing. -/
def onesPrimitives : Primitives where
  sha1 _ := ⟨List.replicate 20 1, rfl⟩
  sha256 _ := ⟨List.replicate 32 1, rfl⟩
  aes _ := Equiv.refl _

/-- A server that knows one key and answers every call. -/
def oneKeyServer : TcpHandshakeServer Unit where
  P := onesPrimitives
  key := { n := [1], e := [1], d := [1] }
  rpcRegistry := some fun _ => some fun _ _ _ w => (.ok [1, 2, 3, 4], w)
  authKeyResolver := some fun _ w => (some { authKey := Arr.zero 256, serverSalt := 0 }, w)
  onSuccess := fun _ w => w
  debugTransport := false

/-- A call of a client that holds the key. -/
def resumedFrame : Bytes :=
  (sealed onesPrimitives (Arr.zero 256)
    { salt := 0, sessionId := 9, messageId := 4, seqNo := 1, messageData := [7, 0, 0, 0] } .client
    { randByte := 0, pad := fun _ => 0 }).encode

theorem serveConnection_identified_sample :
    let c := Steps.final (serveConnection oneKeyServer quietSurroundings)
      (Connection.open { frames := [resumedFrame], ending := "closed" } ())
    ∃ h ∈ c.handled, ∃ x ∈ h.invoked, Identified onesPrimitives c h x.2 := by
  intro c
  have hrun : (c.handled.any fun h => h.invoked.any fun _ => true) = true := by decide +kernel
  obtain ⟨h, hh, hx⟩ := List.any_eq_true.mp hrun
  obtain ⟨x, hx, -⟩ := List.any_eq_true.mp hx
  exact ⟨h, hh, x, hx, serveConnection_identified oneKeyServer quietSurroundings _ () h hh x hx⟩

end ShuzaGram.Mtproto

import ShuzaGram.Mtproto.Transport.Codec
import ShuzaGram.Properties.Dispatch
import ShuzaGram.Server.Registry

/-!
# Every answer is whole words

A client refuses a message whose length is not a multiple of 4, and so do the codecs; the server never checks
the length of what it answers. It need not: every writer writes whole words, whatever it is given.

The lemma of an encoder only uses the lemmas of the encoders inside it, so that a new field or a new answer
costs one line.
-/

namespace ShuzaGram.Mtproto.Messages

open Infra Domain

/-! ## The encoders -/

@[simp] theorem words_putFlagged {flags : UInt32} {k : Fin 32} {bytes : Bytes} (h : Words bytes) :
    Words (putFlagged flags k bytes) := by
  simp [putFlagged, h]

@[simp] theorem words_encodeBool (value : Bool) : Words (encodeBool value) := words_putId _

@[simp] theorem words_rpcError (errorCode : Int32) (errorMessage : Bytes) :
    Words (RpcError.encode errorCode errorMessage) := four_dvd_length_rpcError errorCode errorMessage

section Users

@[simp] theorem words_encodeUserStatus (s : UserStatus) : Words (encodeUserStatus s) := by
  unfold encodeUserStatus
  cases s.kind <;> simp

@[simp] theorem words_encodeUserProfilePhoto (u : User) : Words (encodeUserProfilePhoto u) := by
  simp [encodeUserProfilePhoto]

@[simp] theorem words_encodePeerColorIfPresent (c : PeerColor) : Words (encodePeerColorIfPresent c) := by
  simp [encodePeerColorIfPresent]

@[simp] theorem words_encodeEmojiStatus (s : UserEmojiStatus) : Words (encodeEmojiStatus s) := by
  simp [encodeEmojiStatus]

theorem words_encodeRestrictionReason (r : UserRestrictionReason) : Words (encodeRestrictionReason r) := by
  simp [encodeRestrictionReason]

theorem words_encodeUserFields (flags flags2 : UInt32) (u : User) : Words (encodeUserFields flags flags2 u) := by
  have hreasons : Words (putVector encodeRestrictionReason (validRestrictionReasons u)) :=
    Words.putVector fun r _ => words_encodeRestrictionReason r
  simp [encodeUserFields, hreasons]

theorem words_encodeUser (u : User) (isSelf : Bool) (now : Int) : Words (encodeUser u isSelf now) := by
  simp [encodeUser, words_encodeUserFields]

end Users

section Accounts

theorem words_encodeAuthorization (a : Authorization) (current : Bool) (now : Int) :
    Words (encodeAuthorization a current now) := by
  simp [encodeAuthorization]

theorem words_encodeAccountAuthorizations (list : List Authorization) (currentAuthKeyId : Arr 8) (now : Int) :
    Words (encodeAccountAuthorizations list currentAuthKeyId now) := by
  have hlist : Words (list.flatMap fun a => encodeAuthorization a (a.authKeyId = currentAuthKeyId) now) :=
    Words.flatMap fun a _ => words_encodeAuthorization a _ now
  simp [encodeAccountAuthorizations, hlist]

@[simp] theorem words_encodePasswordAlgo (algo : PasswordAlgo) : Words (encodePasswordAlgo algo) := by
  simp [encodePasswordAlgo]

theorem words_accountPassword (settings : PasswordSettings) : Words (AccountPassword.encode settings) := by
  simp [AccountPassword.encode, encodeSecurePasswordAlgoUnknown]

end Accounts

section Login

theorem words_authSentCode (codeLength : Int32) (phoneCodeHash : Bytes) :
    Words (AuthSentCode.encode codeLength phoneCodeHash) := by
  simp [AuthSentCode.encode, AuthSentCodeTypeApp.encode]

theorem words_signUpRequired : Words AuthAuthorizationSignUpRequired.encode := by
  simp [AuthAuthorizationSignUpRequired.encode]

theorem words_authAuthorization (user : User) : Words (AuthAuthorization.encode user) := by
  simp [AuthAuthorization.encode, MinimalSelfUser.encode]

end Login

section Help

theorem words_dcOption (o : DcOption) : Words o.encode := by
  simp [DcOption.encode]

theorem words_putInt32s (vs : List Int32) : Words (vs.flatMap putInt32) := Words.flatMap fun v _ => words_putInt32 v

theorem words_helpConfig (c : HelpConfig) : Words c.encode := by
  have hoptions : ∀ os : List DcOption, Words (putVector DcOption.encode os) :=
    fun os => Words.putVector fun o _ => words_dcOption o
  simp [HelpConfig.encode, hoptions, words_putInt32s, encodeReactionEmoji]

end Help

end ShuzaGram.Mtproto.Messages

namespace ShuzaGram.Server

open Infra Domain Store Mtproto Mtproto.Messages Mtproto.Crypto Mtproto.Transport

/-! ## The handlers -/

/-- **Every answer is written as whole words,** whatever is in it. -/
theorem Answer.words_encode (vector : Bool) (ctx : RpcContext) (now : Int) (a : Answer) :
    Words (a.encode encodeUser vector ctx now) := by
  cases a with
  | sentCode codeLength hash => exact words_authSentCode _ hash
  | signUpRequired => exact words_signUpRequired
  | authorization user => exact words_authAuthorization user
  | password settings => exact words_accountPassword settings
  | users list =>
    have hlist : Words (list.flatMap fun r => encodeUser r.user r.self now) :=
      Words.flatMap fun r _ => words_encodeUser r.user r.self now
    simp [Answer.encode, hlist]
  | authorizations list => exact words_encodeAccountAuthorizations list _ now
  | bool value => exact words_encodeBool value
  | rpcError code message => exact words_rpcError _ _

section

variable {W : Type} (srv : ServerProcess W)

theorem words_of_runHandler {p : DbProg Answer} {encode : W → Answer → Bytes} (hencode : ∀ w a, Words (encode w a))
    {w w' : W} {result : Bytes} (h : srv.runHandler p encode w = (.ok result, w')) : Words result := by
  unfold ServerProcess.runHandler at h
  obtain ⟨hresult, -⟩ := Prod.mk.inj h
  cases ho : (p.exec srv.exec w).result with
  | error e =>
    rw [ho] at hresult
    cases hresult
  | ok a =>
    rw [ho] at hresult
    cases hresult
    exact hencode _ a

theorem words_method (m : Method) (ctx : RpcContext) (now : Int) (a : Answer) : Words (m.encode ctx now a) :=
  Answer.words_encode _ ctx now a

theorem handler_method (m : Method) (id : UInt32) (body : Bytes) (ctx : RpcContext) (w : W) :
    srv.handler (.method m) id body ctx w =
      srv.runHandler (methodThread srv.cfg (srv.draw w) ctx body m)
        (fun w' => m.encode ctx (if m = .accountUpdateProfile then (srv.draw w).now else srv.clock w')) w := rfl

theorem words_of_handler (m : RegisteredMethod) {id : UInt32} {body : Bytes} {ctx : RpcContext} {w w' : W}
    {result : Bytes} (h : srv.handler m id body ctx w = (.ok result, w')) : Words result := by
  cases m with
  | helpGetConfig =>
    cases h
    exact words_helpConfig _
  | authBindTempAuthKey => exact words_of_runHandler srv (fun _ => Answer.words_encode false ctx 0) h
  | method m =>
    rw [handler_method] at h
    exact words_of_runHandler srv (fun _ => words_method m ctx _) h

/-- What is registered answers in whole words. -/
theorem wordHandlers_registry {cfg : SessionConfig W} (h : cfg.registry = some srv.registry) : cfg.WordHandlers := by
  intro id handler body ctx w result w' hfind hrun
  rw [SessionConfig.find, h, Option.bind_some, ServerProcess.registry] at hfind
  obtain ⟨m, -, rfl⟩ := Option.map_eq_some_iff.mp hfind
  exact words_of_handler srv m hrun

end

/-! ## The message made from an answer -/

/-- A client reads a message of whole words, and a codec takes it. -/
structure Survives (P : Primitives) (authKey : AuthKeyBytes) (sentAs : Side) (m : EncryptedMessage) (body : Bytes) :
    Prop where
  /-- The check of the length does not refuse it, whatever its size. -/
  lengthCheck : decryptMessage P authKey m (oppositeSide sentAs) ≠ .error notDivisible
  /-- A frame that is not too long is taken by the codecs, and a client finds the body in it. -/
  framed : m.encode.length ≤ maxMessageSize → AcceptsWords m.encode ∧
    ∃ data, decryptMessage P authKey m (oppositeSide sentAs) = .ok data ∧ data.messageData = body
  aligned : ∀ {S : Type} (s : S), checkAlign m.encode 4 s = .ok () s

theorem survives_sealed (P : Primitives) (authKey : AuthKeyBytes) (d : EncryptedMessageData) (side : Side)
    (rand : CipherRandom) (h : Words d.messageData) :
    Survives P authKey side (sealed P authKey d side rand) d.messageData := by
  have hblocks := sixteen_dvd_length_paddedPlaintext d rand
  have hlong : 32 + d.messageData.length ≤ (paddedPlaintext d rand).length := by
    simp only [paddedPlaintext, List.length_append, length_plaintextHeader]
    omega
  have hlen : (sealed P authKey d side rand).encode.length = 24 + (paddedPlaintext d rand).length := by
    simp only [EncryptedMessage.encode, List.length_append, length_putArr, sealed, length_encryptBlocks hblocks]
  have hwords : 4 ∣ (sealed P authKey d side rand).encode.length := by
    rw [hlen]
    omega
  refine ⟨?_, fun hmax => ⟨⟨⟨by omega, hmax⟩, hwords⟩, d, ?_, rfl⟩, fun s => checkAlign_of_dvd hwords s⟩
  · rw [sealed_eq, decryptMessage_sealPlaintext P authKey side hblocks (by omega)]
    exact parsePlaintext_ne_notDivisible rand h
  · unfold maxMessageSize at hmax
    exact decryptMessage_sealed P authKey side rand h (by omega)

/-- **Every answer survives the wire.** What a session with the registry of a server answers to a message is
nothing for an acknowledgement, and whole words for anything else; the message made from it passes the length
check of the client and the alignment of the codecs. -/
theorem dispatchOne_survives {W : Type} (srv : ServerProcess W) (cfg : SessionConfig W)
    (hregistry : cfg.registry = some srv.registry) (sessionId msgId : Int64) (body : Bytes) (w : W) {response : Bytes}
    (h : (dispatchOne cfg sessionId msgId body w).response = .ok response) :
    (unwrappedId body = some msgsAckTypeId ∧ response = []) ∨
      (unwrappedId body ≠ some msgsAckTypeId ∧ response ≠ [] ∧ 4 ∣ response.length ∧
        ∀ (draws : Nat → Draw) (s : SessionState W), ∃ m, (encryptOutgoing cfg draws s response).1 = .ok m ∧
          Survives cfg.P cfg.authKey cfg.mySide m response) := by
  rcases dispatchOne_answer h with hack | ⟨hne, hans⟩
  · exact .inl hack
  · have hwords : Words response := hans.four_dvd_length (wordHandlers_registry srv hregistry)
    refine .inr ⟨hne, hans.ne_nil, hwords, fun draws s => ⟨_, encryptMessage_eq_ok _ _ _ _ _, ?_⟩⟩
    exact survives_sealed cfg.P cfg.authKey (outgoing cfg s.sessionId s.contentSeqCounter
      (draws s.contentSeqCounter).nowNanos response) cfg.mySide (draws s.contentSeqCounter).rand hwords

/-- A server that could open no store. -/
def storelessServer : ServerProcess Unit where
  cfg := { primitives := blankPrimitives, phones := { formatE164 := fun _ => none }, otpSender := none }
  openInner _ _ := none
  stores := { authKeys := false, tempKeys := false, users := false, authorizations := false, passwords := false }
  dcId := 1
  advertiseIp := ascii "127.0.0.1"
  port := 2398
  exec _ w := (.error .bufferUnderrun, w)
  draw _ :=
    { sendCode := { hash := Arr.zero 8, digits := fun _ => 0, deliveryId := Arr.zero 16, now := 0 }
      accessHash := 0
      challenge := { secret := Arr.zero 256, srpId := 0 }
      now := 0 }
  clock _ := 1780243200

def storelessSession : SessionConfig Unit where
  P := blankPrimitives
  authKey := Arr.zero 256
  serverSalt := 0
  mySide := .server
  registry := some storelessServer.registry
  debugTransport := false

/-- It still answers `help.getConfig`. -/
theorem dispatchOne_survives_getConfig :
    ∃ response, (dispatchOne storelessSession 1 5 (putId helpGetConfigTypeId) ()).response = .ok response ∧
      response ≠ [] ∧ 4 ∣ response.length := by
  have hanswers : (dispatchOne storelessSession 1 5 (putId helpGetConfigTypeId) ()).response.toOption.isSome = true := by
    decide +kernel
  cases h : (dispatchOne storelessSession 1 5 (putId helpGetConfigTypeId) ()).response with
  | error e =>
    rw [h] at hanswers
    cases hanswers
  | ok response =>
    refine ⟨response, rfl, ?_⟩
    rcases dispatchOne_survives storelessServer storelessSession rfl 1 5 (putId helpGetConfigTypeId) () h with
      ⟨hack, -⟩ | ⟨-, hne, hwords, -⟩
    · exact absurd hack (by decide +kernel)
    · exact ⟨hne, hwords⟩

end ShuzaGram.Server

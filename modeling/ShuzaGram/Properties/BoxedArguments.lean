import ShuzaGram.Infra.Parses
import ShuzaGram.Mtproto.Messages.Account
import ShuzaGram.Mtproto.Messages.Auth

/-!
# Boxed arguments

An argument whose type is not bare is preceded by its constructor id. `auth.sendCode` and
`account.updateBirthday` have one each, and their decoders read the bare value: what they take for the
flags of the value is its constructor id.

The encodings here are the TL schema's, quoted in `messages/auth.hpp` and `messages/account.hpp`.
-/

namespace ShuzaGram.Mtproto.Messages

open Infra Domain

def codeSettingsTypeId : UInt32 := 0xad253d78
def birthdayTypeId : UInt32 := 0x6c8e1e06

/-! ## `codeSettings` -/

structure CodeSettings where
  flags : UInt32
  logoutTokens : Option (List Bytes)
  /-- `token` and `app_sandbox`, which have one flag. -/
  token : Option (Bytes × Bool)
  logoutTokens_iff : logoutTokens.isSome ↔ flags &&& 64 ≠ 0
  token_iff : token.isSome ↔ flags &&& 256 ≠ 0

namespace CodeSettings

def encodeLogoutTokens : Option (List Bytes) → Bytes
  | none => []
  | some tokens => putVectorHeader tokens.length ++ tokens.flatMap putBytes

def encodeToken : Option (Bytes × Bool) → Bytes
  | none => []
  | some (token, appSandbox) => putBytes token ++ encodeBool appSandbox

/-- The fields, without the constructor id. -/
def encodeBare (c : CodeSettings) : Bytes :=
  putUint32 c.flags ++ (encodeLogoutTokens c.logoutTokens ++ encodeToken c.token)

def encode (c : CodeSettings) : Bytes := putId codeSettingsTypeId ++ c.encodeBare

structure Encodable (c : CodeSettings) : Prop where
  logoutTokens : ∀ tokens, c.logoutTokens = some tokens → FitsVector tokens.length ∧ ∀ t ∈ tokens, FitsString t
  token : ∀ token appSandbox, c.token = some (token, appSandbox) → FitsString token

/-- A count that is not negative as an `int` is the same as a `size_t`. -/
theorem sizeT_of_fits {n : Nat} (h : FitsVector n) : sizeT (Int32.ofNat n) = n := by
  unfold FitsVector at h
  rw [sizeT, Int32.toInt_ofNat_of_lt h]
  omega

theorem parses_skipBytes {v : Bytes} (h : FitsString v) : Parses skipBytes (putBytes v) () :=
  Parses.map (g := fun _ => ()) (getBytes_put h)

theorem parses_skipTimes : ∀ {vs : List Bytes}, (∀ v ∈ vs, FitsString v) →
    Parses (skipTimes skipBytes vs.length) (vs.flatMap putBytes) ()
  | [], _ => Parses.pure ()
  | v :: vs, h => by
    have ih := parses_skipTimes fun v' hv => h v' (List.mem_cons_of_mem v hv)
    rw [List.flatMap_cons, List.length_cons, skipTimes]
    exact (parses_skipBytes (h v List.mem_cons_self)).bind ih

/-- Bare settings are taken to their last byte. -/
theorem parses_encodeBare {c : CodeSettings} (h : c.Encodable) : Parses decodeBare c.encodeBare () := by
  have htoken : Parses (if c.flags &&& 256 ≠ 0 then do
      skipBytes
      let _ ← consumeN 4 else Pure.pure ()) (encodeToken c.token) () := by
    cases hc : c.token with
    | none =>
      have hflag : ¬ c.flags &&& 256 ≠ 0 := by
        rw [← c.token_iff, hc]
        exact Bool.false_ne_true
      rw [if_neg hflag]
      exact Parses.pure ()
    | some token =>
      rw [if_pos (c.token_iff.mp (by rw [hc]; rfl))]
      refine (parses_skipBytes (h.token _ _ hc)).bind ?_
      exact Parses.map (g := fun _ => ()) fun _ => consumeN_append (length_putId _)
  refine Parses.bind (uint32_put c.flags) ?_
  -- Each optional field is there exactly if its flag is set.
  cases hc : c.logoutTokens with
  | none =>
    have hflag : ¬ c.flags &&& 64 ≠ 0 := by
      rw [← c.logoutTokens_iff, hc]
      exact Bool.false_ne_true
    rw [if_neg hflag]
    exact htoken
  | some tokens =>
    obtain ⟨hcount, htokens⟩ := h.logoutTokens tokens hc
    rw [if_pos (c.logoutTokens_iff.mp (by rw [hc]; rfl)), encodeLogoutTokens]
    rw [List.append_assoc]
    refine Parses.bind (vectorHeader_put tokens.length) ?_
    rw [sizeT_of_fits hcount]
    exact (parses_skipTimes htokens).bind htoken

/-- Behind their constructor id, settings are not read: its bits 6 and 8 are set, and no settings go on
with a vector of tokens where their flags stand. -/
theorem decodeBare_encode_throws (c : CodeSettings) : ∃ e b, decodeBare c.encode = .error e b := by
  have hid : codeSettingsTypeId &&& 64 ≠ 0 := by decide
  have hvector : ∃ e b, vectorHeader c.encodeBare = .error e b := by
    rw [encodeBare]
    by_cases hflags : c.flags = typeVector
    · -- the flags of these settings look like a vector, but then they have neither field, and no count follows
      have htokens : c.logoutTokens = none := by
        rw [← Option.not_isSome_iff_eq_none, c.logoutTokens_iff, hflags]
        decide
      have htoken : c.token = none := by
        rw [← Option.not_isSome_iff_eq_none, c.token_iff, hflags]
        decide
      rw [htokens, htoken, hflags]
      refine ⟨.bufferUnderrun, [], ?_⟩
      show (consumeId typeVector >>= fun _ => int32) (putId typeVector ++ []) = _
      rw [consumeId_bind_put]
      rfl
    · refine ⟨.unexpectedId c.flags, putUint32 c.flags ++ (encodeLogoutTokens c.logoutTokens ++
        encodeToken c.token), ?_⟩
      rw [vectorHeader, Get.bind_apply, consumeId, Get.bind_of_ok (peekId_put _ _), if_pos hflags]
      rfl
  obtain ⟨e, b, hthrow⟩ := hvector
  refine ⟨e, b, ?_⟩
  rw [decodeBare, encode, putId, uint32_bind_put, if_pos hid, Get.bind_apply, hthrow]

end CodeSettings

/-! ## `auth.sendCode` -/

structure AuthSendCode extends AuthSendCodeRequest where
  settings : CodeSettings

namespace AuthSendCode

/-- The fields, with the settings as `encodeSettings` writes them. -/
def encodeWith (encodeSettings : CodeSettings → Bytes) (r : AuthSendCode) : Bytes :=
  putBytes r.phoneNumber ++ (putInt32 r.apiId ++ (putBytes r.apiHash ++ encodeSettings r.settings))

def encode : AuthSendCode → Bytes := encodeWith CodeSettings.encode

structure Encodable (r : AuthSendCode) : Prop where
  phoneNumber : FitsString r.phoneNumber
  apiHash : FitsString r.apiHash
  settings : r.settings.Encodable

/-- With bare settings the request is read. -/
theorem parses_encodeWith_bare {r : AuthSendCode} (h : r.Encodable) :
    Parses AuthSendCodeRequest.decodeBare (encodeWith CodeSettings.encodeBare r) r.toAuthSendCodeRequest := by
  refine Parses.bind (getBytes_put h.phoneNumber) (Parses.bind (int32_put r.apiId)
    (Parses.bind (getBytes_put h.apiHash) ?_))
  exact Parses.map (g := fun _ => r.toAuthSendCodeRequest) (CodeSettings.parses_encodeBare h.settings)

/-- **As clients write it, the request is refused.** -/
theorem decodeBare_encode_throws {r : AuthSendCode} (h : r.Encodable) :
    ∃ e b, AuthSendCodeRequest.decodeBare r.encode = .error e b := by
  obtain ⟨e, b, hthrow⟩ := CodeSettings.decodeBare_encode_throws r.settings
  refine ⟨e, b, ?_⟩
  rw [encode, encodeWith, AuthSendCodeRequest.decodeBare, getBytes_bind_put _ _ h.phoneNumber, int32_bind_put,
    getBytes_bind_put _ _ h.apiHash, Get.bind_apply, hthrow]

end AuthSendCode

/-! ## `account.updateBirthday` -/

/-- A `birthday` on the wire. -/
structure WireBirthday where
  flags : UInt32
  day : Int32
  month : Int32
  year : Option Int32
  year_iff : year.isSome ↔ flags &&& 1 ≠ 0

namespace WireBirthday

def value (w : WireBirthday) : Birthday where
  day := w.day.toInt
  month := w.month.toInt
  year := (w.year.map Int32.toInt).getD 0

/-- The fields, without the constructor id. -/
def encodeBare (w : WireBirthday) : Bytes :=
  putUint32 w.flags ++ (putInt32 w.day ++ (putInt32 w.month ++ w.year.elim [] putInt32))

def encode (w : WireBirthday) : Bytes := putId birthdayTypeId ++ w.encodeBare

theorem parses_encodeBare (w : WireBirthday) : Parses decodeBirthday w.encodeBare w.value := by
  have hyear : Parses (flagged w.flags 1 int32) (w.year.elim [] putInt32) w.year := by
    have h := Parses.option (g := id) w.year_iff fun year _ => int32_put year
    rwa [Option.map_id] at h
  refine Parses.bind (uint32_put w.flags) (Parses.bind (int32_put w.day) (Parses.bind (int32_put w.month) ?_))
  exact hyear.map (g := fun year => { w.value with year := (year.map Int32.toInt).getD 0 })

/-- Behind its constructor id, a birthday is misread: its flags are taken for the day and its day for the
month, and the rest is left. -/
theorem decodeBirthday_encode (w : WireBirthday) :
    decodeBirthday w.encode =
      .ok { day := w.flags.toInt32.toInt, month := w.day.toInt, year := 0 }
        (putInt32 w.month ++ w.year.elim [] putInt32) := by
  have hflags : putUint32 w.flags = putInt32 w.flags.toInt32 := by rw [putInt32, UInt32.toUInt32_toInt32]
  rw [decodeBirthday, encode, encodeBare, hflags, putId, uint32_bind_put, int32_bind_put, int32_bind_put]
  rfl

end WireBirthday

structure AccountUpdateBirthday where
  flags : UInt32
  birthday : Option WireBirthday
  birthday_iff : birthday.isSome ↔ flags &&& 1 ≠ 0

namespace AccountUpdateBirthday

/-- An absent birthday is the zero one. -/
def value (r : AccountUpdateBirthday) : Birthday := (r.birthday.map WireBirthday.value).getD Birthday.zero

/-- The fields, with the birthday as `encodeBirthday` writes it. -/
def encodeWith (encodeBirthday : WireBirthday → Bytes) (r : AccountUpdateBirthday) : Bytes :=
  putUint32 r.flags ++ r.birthday.elim [] encodeBirthday

def encode : AccountUpdateBirthday → Bytes := encodeWith WireBirthday.encode

/-- With a bare birthday the request is read. -/
theorem parses_encodeWith_bare (r : AccountUpdateBirthday) :
    Parses AccountUpdateBirthdayRequest.decodeBare (encodeWith WireBirthday.encodeBare r) r.value := by
  refine Parses.bind (uint32_put r.flags) ?_
  exact Parses.map (g := fun birthday => birthday.getD Birthday.zero)
    (Parses.option (g := WireBirthday.value) r.birthday_iff fun w _ => w.parses_encodeBare)

/-- Without a birthday nothing is boxed. -/
theorem encode_of_none {r : AccountUpdateBirthday} (h : r.birthday = none) :
    r.encode = encodeWith WireBirthday.encodeBare r := by
  rw [encode, encodeWith, encodeWith, h, Option.elim_none, Option.elim_none]

/-- **As clients write it, the request is not read to its end.** -/
theorem decodeBare_encode_of_some {r : AccountUpdateBirthday} {w : WireBirthday} (h : r.birthday = some w) :
    AccountUpdateBirthdayRequest.decodeBare r.encode =
      .ok { day := w.flags.toInt32.toInt, month := w.day.toInt, year := 0 }
        (putInt32 w.month ++ w.year.elim [] putInt32) := by
  have hflag : r.flags &&& 1 ≠ 0 := r.birthday_iff.mp (by rw [h]; rfl)
  rw [encode, encodeWith, h, AccountUpdateBirthdayRequest.decodeBare, uint32_bind_put, flagged, if_pos hflag,
    Option.elim_some, bind_assoc, Get.bind_of_ok w.decodeBirthday_encode]
  rfl

end AccountUpdateBirthday

/-! ## What is recovered -/

/-- A request with a boxed argument. -/
inductive BoxedRequest where
  | authSendCode (r : AuthSendCode)
  | accountUpdateBirthday (r : AccountUpdateBirthday)

namespace BoxedRequest

def Encodable : BoxedRequest → Prop
  | .authSendCode r => r.Encodable
  | .accountUpdateBirthday _ => True

/-- The request's fields are what was written, and its body is taken to the end. -/
def Recovered : BoxedRequest → Prop
  | .authSendCode r => AuthSendCodeRequest.decodeBare r.encode = .ok r.toAuthSendCodeRequest []
  | .accountUpdateBirthday r => AccountUpdateBirthdayRequest.decodeBare r.encode = .ok r.value []

/-- So they are where the constructor id of the argument is left out. -/
def RecoveredBare : BoxedRequest → Prop
  | .authSendCode r =>
    AuthSendCodeRequest.decodeBare (r.encodeWith CodeSettings.encodeBare) = .ok r.toAuthSendCodeRequest []
  | .accountUpdateBirthday r =>
    AccountUpdateBirthdayRequest.decodeBare (r.encodeWith WireBirthday.encodeBare) = .ok r.value []

/-- The request has an argument that is boxed. -/
def Boxes : BoxedRequest → Prop
  | .authSendCode _ => True
  | .accountUpdateBirthday r => r.birthday.isSome

end BoxedRequest

theorem not_recovered_authSendCode {r : AuthSendCode} (h : r.Encodable) :
    ¬ (BoxedRequest.authSendCode r).Recovered := by
  intro hrec
  obtain ⟨e, b, hthrow⟩ := AuthSendCode.decodeBare_encode_throws h
  rw [BoxedRequest.Recovered, hthrow] at hrec
  cases hrec

theorem not_recovered_of_birthday {r : AccountUpdateBirthday} {w : WireBirthday} (h : r.birthday = some w) :
    ¬ (BoxedRequest.accountUpdateBirthday r).Recovered := by
  intro hrec
  rw [BoxedRequest.Recovered, AccountUpdateBirthday.decodeBare_encode_of_some h] at hrec
  -- at least the month is left
  have hrest : (putInt32 w.month ++ w.year.elim [] putInt32).length = 0 := by
    injection hrec with _ hrest
    rw [hrest]
    rfl
  rw [List.length_append, length_putInt32] at hrest
  omega

theorem recoveredBare {r : BoxedRequest} (h : r.Encodable) : r.RecoveredBare := by
  cases r with
  | authSendCode r => exact (AuthSendCode.parses_encodeWith_bare h).whole
  | accountUpdateBirthday r => exact r.parses_encodeWith_bare.whole

/-- **A request is recovered exactly when it has no boxed argument.** What the decoders miss is the constructor id of the
argument and nothing else: without it, every request is recovered. -/
theorem boxedRequest_recovered_iff (r : BoxedRequest) (h : r.Encodable) :
    (r.Recovered ↔ ¬ r.Boxes) ∧ r.RecoveredBare := by
  have hbare := recoveredBare h
  refine ⟨?_, hbare⟩
  cases r with
  | authSendCode r =>
    exact ⟨fun hrec => absurd hrec (not_recovered_authSendCode h), fun hnot => absurd trivial hnot⟩
  | accountUpdateBirthday r =>
    cases hr : r.birthday with
    | none =>
      rw [BoxedRequest.RecoveredBare, ← AccountUpdateBirthday.encode_of_none hr] at hbare
      refine ⟨fun _ hboxes => ?_, fun _ => hbare⟩
      rw [BoxedRequest.Boxes, hr] at hboxes
      exact Bool.false_ne_true hboxes
    | some w =>
      have hboxes : (BoxedRequest.accountUpdateBirthday r).Boxes := by
        rw [BoxedRequest.Boxes, hr]
        rfl
      exact ⟨fun hrec => absurd hrec (not_recovered_of_birthday hr), fun hnot => absurd hboxes hnot⟩

def noBirthday : AccountUpdateBirthday where
  flags := 0
  birthday := none
  birthday_iff := by decide

/-- A request that clears the birthday is recovered. -/
theorem boxedRequest_recovered_iff_cleared : (BoxedRequest.accountUpdateBirthday noBirthday).Recovered :=
  (boxedRequest_recovered_iff (.accountUpdateBirthday noBirthday) trivial).1.mpr Bool.false_ne_true

/-- The login of the tests, with its settings boxed. -/
def plainSendCode : AuthSendCode where
  phoneNumber := ascii "+15551234567"
  apiId := 12345
  apiHash := ascii "somehash"
  settings := { flags := 0, logoutTokens := none, token := none, logoutTokens_iff := by decide, token_iff := by decide }

/-- The fourth of July, without a year. -/
def fourthOfJuly : AccountUpdateBirthday where
  flags := 1
  birthday := some { flags := 0, day := 4, month := 7, year := none, year_iff := by decide }
  birthday_iff := by decide

/-- Neither of the two is recovered. -/
theorem boxedRequests_not_recovered :
    (BoxedRequest.authSendCode plainSendCode).Encodable ∧ ¬ (BoxedRequest.authSendCode plainSendCode).Recovered ∧
      (BoxedRequest.accountUpdateBirthday fourthOfJuly).Encodable ∧
      ¬ (BoxedRequest.accountUpdateBirthday fourthOfJuly).Recovered := by
  have hsettings : plainSendCode.settings.Encodable := by
    constructor <;> intros <;> contradiction
  have hplain : plainSendCode.Encodable :=
    { phoneNumber := by show (ascii "+15551234567").length < 2 ^ 24; decide
      apiHash := by show (ascii "somehash").length < 2 ^ 24; decide
      settings := hsettings }
  exact ⟨hplain, not_recovered_authSendCode hplain, trivial, not_recovered_of_birthday rfl⟩

end ShuzaGram.Mtproto.Messages

import ShuzaGram.Infra.Ensures
import ShuzaGram.Properties.StaleChallenges
import ShuzaGram.Properties.TwoFactor

/-!
# Clients side by side

A client sends one request after another; what it sends next may depend on the answers. With the handlers in between
this is one program over the stores, and the programs of several clients take turns call by call.

* `session` — a client with any requests
* `LoginClient.login`, `LoginClient.loginWithPassword` — a client that logs in
* `Request.abides` — what a request of another client does to a login
-/

namespace ShuzaGram.Server

open Infra Domain Store Mtproto Mtproto.Messages Mtproto.Crypto Auth Users
open StoreProg

/-! ## Requests -/

structure Request where
  method : Method
  ctx : RpcContext
  body : Bytes
  draw : HandlerDraw

/-- The answer to a request. What its handler throws is answered as an internal error. -/
def Request.serve (cfg : Config) (r : Request) : StoreProg Answer :=
  tryCatch (handle cfg r.draw r.ctx r.body r.method) fun _ => pure internal

/-- Requests one after another, up to the last answer. -/
def session (cfg : Config) : Answer → List Request → StoreProg Answer
  | last, [] => pure last
  | _, r :: rs => do
    let answer ← r.serve cfg
    session cfg answer rs

/-- The hash of the login code that a request is about. -/
def Request.codeHash (r : Request) : Option Bytes :=
  match r.method with
  | .authSendCode => some (randomHex r.draw.sendCode.hash.toList)
  | .authSignIn =>
    match AuthSignInRequest.decodeBare r.body with
    | .ok req _ => some req.phoneCodeHash
    | .error _ _ => none
  | .authSignUp =>
    match AuthSignUpRequest.decodeBare r.body with
    | .ok req _ => some req.phoneCodeHash
    | .error _ _ => none
  | _ => none

/-! ## A client that logs in -/

/-- What a client that logs in sends; its `i`-th request is handled with `draws i`. -/
structure LoginClient where
  ctx : RpcContext
  sendCodeBody : Bytes
  /-- The code that was received, sent back under the hash. -/
  signInBody : Bytes → Bytes
  draws : Nat → HandlerDraw

/-- The code that the owner of the phone receives. -/
def LoginClient.code (cfg : Config) (c : LoginClient) : Bytes :=
  match cfg.otpSender with
  | some otp => randomDigits otp.codeLength (c.draws 0).sendCode.digits
  | none => fixedCode

/-- The hash of that code. -/
def LoginClient.hash (c : LoginClient) : Bytes := randomHex (c.draws 0).sendCode.hash.toList

def LoginClient.login (cfg : Config) (c : LoginClient) : StoreProg Answer := do
  match ← handle cfg (c.draws 0) c.ctx c.sendCodeBody .authSendCode with
  | .sentCode _ hash => handle cfg (c.draws 1) c.ctx (c.signInBody hash) .authSignIn
  | answer => return answer

/-- `inputCheckPasswordSRP`. -/
def putCheck (check : PasswordCheck) : Bytes :=
  putId inputCheckPasswordSrpTypeId ++ (putLong check.srpId ++ (putBytes check.a ++ putBytes check.m1))

theorem decodeBare_putCheck {check : PasswordCheck} (hempty : check.empty = false) (ha : FitsString check.a)
    (hm1 : FitsString check.m1) : AuthCheckPasswordRequest.decodeBare (putCheck check) = .ok check [] := by
  have hlast := getBytes_put hm1 []
  rw [List.append_nil] at hlast
  have hpeek : ∀ rest, peekId (putId inputCheckPasswordSrpTypeId ++ rest) =
      .ok inputCheckPasswordSrpTypeId (putId inputCheckPasswordSrpTypeId ++ rest) := fun rest => peekId_put _ rest
  rw [AuthCheckPasswordRequest.decodeBare, putCheck, Get.bind_of_ok (hpeek _), if_neg (by decide),
    Get.bind_of_ok (consumeId_put _ _), Get.bind_of_ok (long_put _ _), Get.bind_of_ok (getBytes_put ha _), Get.bind_of_ok hlast]
  obtain ⟨_, _, _, _⟩ := check
  cases hempty
  rfl

/-- The proof of the password for the challenge that the client is given. -/
def LoginClient.prove (cfg : Config) (pbkdf2HmacSha512 : Pbkdf2) (password random : Bytes) (c : LoginClient) :
    StoreProg Answer := do
  match ← handle cfg (c.draws 2) c.ctx [] .accountGetPassword with
  | .password settings =>
    match clientCheck cfg.primitives pbkdf2HmacSha512 password settings random with
    | some check => handle cfg (c.draws 3) c.ctx (putCheck check) .authCheckPassword
    | none => return .password settings
  | answer => return answer

def sessionPasswordNeeded : Answer := .rpcError 401 "SESSION_PASSWORD_NEEDED"

def LoginClient.loginWithPassword (cfg : Config) (pbkdf2HmacSha512 : Pbkdf2) (password random : Bytes)
    (c : LoginClient) : StoreProg Answer := do
  let answer ← c.login cfg
  if answer = sessionPasswordNeeded then c.prove cfg pbkdf2HmacSha512 password random else return answer

/-! ## The calls of a request -/

/-- A login on its way: the key that logs in, the code it was sent, the account. `strangers` are keys that stay with
other accounts; only they may ask for challenges while an account with a password is logged in to. -/
structure PendingLogin where
  key : Arr 8
  hash : Bytes
  userId : Int64
  hasPassword : Bool
  strangers : List (Arr 8)

/-- The login of a client, from the stores as they are. -/
def LoginClient.pending (c : LoginClient) (s : Stores) (userId : Int64) (strangers : List (Arr 8)) : PendingLogin :=
  { key := c.ctx.authKeyId, hash := c.hash, userId, hasPassword := s.hasPassword userId, strangers }

/-- What all the clients can rely on. -/
structure PendingLogin.Guard (l : PendingLogin) (s : Stores) : Prop where
  hasPassword : s.hasPassword l.userId = l.hasPassword
  strangers : ∀ k ∈ l.strangers, ∀ a, s.authorizations.find k = some a → a.userId ≠ l.userId

/-- The calls that a request can make, where the answers come from states with `G`: on codes with its hash, on logins
with its key, and on the password of the account that its key is logged in to. -/
def Request.Makes (G : Stores → Prop) (r : Request) : StoreCall → Prop
  | .codesSet hash _ | .codesDel hash | .codesConsumeSignUpVerified hash _ => r.codeHash = some hash
  | .codesVerifyLogin hash .. => r.codeHash = some hash
  | .authorizationsBind a => a.authKeyId = r.ctx.authKeyId ∧ (r.method = .authSignIn ∨ r.method = .authSignUp)
  | .authorizationsMarkPasswordPassed k _ => k = r.ctx.authKeyId
  | .passwordsSave userId settings =>
    r.method = .accountGetPassword ∧ settings.hasPassword = true ∧ (∃ s, G s ∧ s.hasPassword userId = true) ∧
      ∃ s a, G s ∧ s.authorizations.find r.ctx.authKeyId = some a ∧ a.userId = userId
  | _ => True

section Makes

variable {P : Primitives} {G : Stores → Prop} {r : Request} {α : Type}

abbrev Making (P : Primitives) (G : Stores → Prop) (r : Request) (p : StoreProg α) : Prop :=
  p.Abides (StoreCall.attempt P) G (r.Makes G)

/-- Reads, and changes of accounts. -/
def Mild (call : StoreCall) : Prop := call.area = none ∨ call.area = some .users

theorem makes_of_mild {call : StoreCall} (h : Mild call) : r.Makes G call := by
  cases call with
  | codesSet | codesDel | codesVerifyLogin | codesConsumeSignUpVerified => rcases h with h | h <;> cases h
  | authorizationsBind | authorizationsMarkPasswordPassed | passwordsSave => rcases h with h | h <;> cases h
  | _ => trivial

theorem making_perform {call : StoreCall} (h : r.Makes G call) :
    Making P G r (Prog.perform call : StoreProg call.Res) :=
  (Prog.only_perform h).abides fun _ => id

theorem making_read {call : StoreCall} (h : call.area = none) :
    Making P G r (Prog.perform call : StoreProg call.Res) :=
  making_perform (makes_of_mild (.inl h))

theorem making_users {call : StoreCall} (h : call.area = some .users) :
    Making P G r (Prog.perform call : StoreProg call.Res) :=
  making_perform (makes_of_mild (.inr h))

theorem making_ite {c : Prop} [Decidable c] {p q : StoreProg α} (hp : Making P G r p) (hq : Making P G r q) :
    Making P G r (if c then p else q) := by
  split
  · exact hp
  · exact hq

theorem making_throw_bind {β : Type} (e : Exn) (f : β → StoreProg α) :
    Making P G r ((throw e : StoreProg β) >>= f) := trivial

/-- What follows the reading of a request may rely on what was read. -/
theorem making_decode_bind {β : Type} {x : Get β} {body : Bytes} {f : β → StoreProg α}
    (hf : ∀ a rest, x body = .ok a rest → Making P G r (f a)) : Making P G r (decode x body >>= f) := by
  unfold decode
  cases hx : x body with
  | ok a rest => exact hf a rest hx
  | error e rest => exact Prog.abides_throw _

theorem making_answering {p : StoreProg Answer} (errors : Exn → Answer) (hp : Making P G r p) :
    Making P G r (answering p errors) :=
  hp.tryCatch fun _ => Prog.abides_pure _

/-! ### Accounts -/

theorem making_resolveCurrentUser (k : Arr 8) : Making P G r (resolveCurrentUser k) := by
  unfold resolveCurrentUser
  refine Prog.Abides.bind (making_read rfl) fun x => ?_
  cases x with
  | none => exact Prog.abides_pure _
  | some authz => exact making_ite (Prog.abides_pure _) (Prog.abides_pure _)

theorem making_loadSelf (id : Int64) : Making P G r (loadSelf id) := by
  unfold loadSelf
  refine making_ite (making_throw_bind _ _) (Prog.Abides.bind (making_read rfl) fun x => ?_)
  cases x with
  | none => exact Prog.abides_throw _
  | some self => exact Prog.abides_pure _

theorem making_checkUsernameAvailable (id : Int64) (username : Bytes) :
    Making P G r (checkUsernameAvailable id username) := by
  unfold checkUsernameAvailable
  refine Prog.Abides.bind (making_read rfl) fun x => ?_
  cases x with
  | none => exact Prog.abides_pure _
  | some existing => exact Prog.abides_pure _

theorem making_resolveGetUsers (k : Arr 8) (inputs : List InputUser) : Making P G r (resolveGetUsers k inputs) := by
  unfold resolveGetUsers
  refine (making_resolveCurrentUser k).bind fun current => ?_
  refine making_ite (Prog.Abides.bind (making_read rfl) fun self => ?_) ?_
  all_goals exact making_ite (Prog.Abides.bind (making_read rfl) fun _ => Prog.abides_pure _) (Prog.abides_pure _)

theorem making_updateProfile (id : Int64) (update : UserProfileUpdate) (now : Int) :
    Making P G r (updateProfile id update now) := by
  unfold updateProfile
  refine Prog.Abides.bind (making_read rfl) fun x => ?_
  cases x with
  | none => exact Prog.abides_throw _
  | some self =>
    refine making_ite (making_throw_bind _ _) (making_ite (making_throw_bind _ _) ?_)
    exact making_ite (Prog.abides_pure _) (making_users rfl)

theorem making_checkUsername (id : Int64) (username : Bytes) : Making P G r (checkUsername id username) := by
  unfold checkUsername
  refine (making_loadSelf id).bind fun self => ?_
  exact making_ite (making_throw_bind _ _) (making_checkUsernameAvailable _ _)

theorem making_checkNewUsername (id : Int64) (normalized : Bytes) :
    Making P G r (checkNewUsername id normalized) := by
  unfold checkNewUsername
  refine making_ite (making_throw_bind _ _) ?_
  exact (making_checkUsernameAvailable _ _).bind fun available =>
    making_ite (Prog.abides_throw _) (Prog.abides_pure _)

theorem making_updateUsername (id : Int64) (username : Bytes) : Making P G r (updateUsername id username) := by
  unfold updateUsername
  refine (making_loadSelf id).bind fun self => ?_
  have hrest : ∀ normalized, Making P G r (if self.username = normalized then pure self
      else StoreProg.usersUpdateUsername self.id normalized : StoreProg User) := fun normalized =>
    making_ite (Prog.abides_pure _) (making_users rfl)
  exact making_ite ((making_checkNewUsername _ _).bind fun _ => hrest _) (hrest _)

theorem making_updateBirthday (id : Int64) (birthday : Birthday) : Making P G r (updateBirthday id birthday) := by
  unfold updateBirthday
  refine Prog.Abides.bind (making_read rfl) fun x => ?_
  cases x with
  | none => exact Prog.abides_throw _
  | some self =>
    exact making_ite (making_ite (making_throw_bind _ _) (making_users rfl)) (making_users rfl)

theorem making_updateStatus (k : Arr 8) (now : Int) : Making P G r (updateStatus k now) := by
  unfold updateStatus
  exact (making_resolveCurrentUser k).bind fun current => making_ite (Prog.abides_pure _) (making_users rfl)

/-! ### Codes and logins -/

theorem making_currentPhoneOwnerId (phone : Bytes) : Making P G r (currentPhoneOwnerId phone) := by
  unfold currentPhoneOwnerId
  refine Prog.Abides.bind (making_read rfl) fun x => ?_
  cases x with
  | none => exact Prog.abides_pure _
  | some u => exact Prog.abides_pure _

section Codes

variable {hash : Bytes} (hhash : r.codeHash = some hash)
include hhash

theorem making_codesDel : Making P G r (codesDel hash) := making_perform hhash

theorem making_sendCode {cfg : Config} {phoneNumber fixedCode : Bytes} {codeTtl : Int} {draw : SendCodeDraw}
    (hdraw : hash = randomHex draw.hash.toList) :
    Making P G r (sendCode cfg.phones phoneNumber fixedCode cfg.otpSender codeTtl draw) := by
  subst hdraw
  unfold sendCode
  refine making_ite (making_throw_bind _ _) ((making_currentPhoneOwnerId _).bind fun owner => ?_)
  refine Prog.Abides.bind (making_perform hhash) fun _ => ?_
  refine making_ite ?_ (Prog.abides_pure _)
  refine Prog.Abides.bind ?_ fun _ => Prog.abides_pure _
  unfold deliverOrRollBack
  refine Prog.Abides.tryCatch (making_read rfl) fun e => ?_
  split
  · exact (making_codesDel hhash).bind fun _ => Prog.abides_throw _
  · exact Prog.abides_throw _

theorem making_finishLoginCode (phone : Bytes) (owner : Int64) (result : LoginCodeVerifyResult) :
    Making P G r (finishLoginCode phone hash owner result) := by
  unfold finishLoginCode
  refine (making_currentPhoneOwnerId _).bind fun after => ?_
  refine making_ite ((making_codesDel hhash).bind fun _ => making_throw_bind _ _) ?_
  cases result with
  | missing => exact Prog.abides_throw _
  | invalid => exact Prog.abides_throw _
  | accepted record => exact making_ite (Prog.abides_pure _) (making_read rfl)

theorem making_verifyLoginCode (phone code : Bytes) : Making P G r (verifyLoginCode phone hash code) := by
  unfold verifyLoginCode
  refine Prog.Abides.bind (making_read rfl) fun x => ?_
  cases x with
  | none => exact Prog.abides_throw _
  | some rec =>
    refine making_ite (making_throw_bind _ _) ((making_currentPhoneOwnerId _).bind fun owner => ?_)
    refine making_ite ((making_codesDel hhash).bind fun _ => making_throw_bind _ _) ?_
    refine making_ite (making_ite (making_throw_bind _ _) (Prog.abides_pure _)) ?_
    exact Prog.Abides.bind (making_perform hhash) fun result => making_finishLoginCode hhash _ _ _

theorem making_signIn {lib : PhoneLibrary} {template : Authorization} {phoneNumber code : Bytes}
    (hkey : template.authKeyId = r.ctx.authKeyId) (hmethod : r.method = .authSignIn) :
    Making P G r (signIn lib template phoneNumber hash code true) := by
  unfold signIn
  refine (making_verifyLoginCode hhash _ _).bind fun x => ?_
  cases x with
  | none => exact Prog.abides_pure _
  | some user =>
    have hneeded : Making P G r (passwordNeeded user.id true) := by
      unfold passwordNeeded
      refine Prog.Abides.bind (making_read rfl) fun x => ?_
      cases x with
      | none => exact Prog.abides_pure _
      | some settings => exact Prog.abides_pure _
    refine hneeded.bind fun needed => Prog.Abides.bind (making_perform ⟨hkey, .inl hmethod⟩) fun _ => ?_
    exact making_ite (making_throw_bind _ _) (Prog.abides_pure _)

theorem making_signUp {lib : PhoneLibrary} {template : Authorization} {phoneNumber firstName lastName : Bytes}
    {accessHash : Int64} (hkey : template.authKeyId = r.ctx.authKeyId) (hmethod : r.method = .authSignUp) :
    Making P G r (signUp lib template phoneNumber hash firstName lastName accessHash) := by
  have hfinish : ∀ draft, Making P G r (finishSignUp template draft) := fun draft => by
    unfold finishSignUp
    refine Prog.Abides.bind (making_users rfl) fun created => ?_
    exact Prog.Abides.bind (making_perform ⟨hkey, .inr hmethod⟩) fun _ => Prog.abides_pure _
  unfold signUp
  refine making_ite (making_throw_bind _ _) (making_ite (making_throw_bind _ _) ?_)
  refine Prog.Abides.bind (making_read rfl) fun x => ?_
  cases x with
  | none => exact Prog.abides_throw _
  | some rec =>
    refine making_ite (making_throw_bind _ _) ((making_currentPhoneOwnerId _).bind fun owner => ?_)
    refine making_ite ((making_codesDel hhash).bind fun _ => making_throw_bind _ _) ?_
    refine Prog.Abides.bind (making_perform hhash) fun x => ?_
    cases x with
    | none => exact Prog.abides_throw _
    | some consumed =>
      refine making_ite (making_throw_bind _ _) ((making_currentPhoneOwnerId _).bind fun owner => ?_)
      exact making_ite (making_throw_bind _ _) (hfinish _)

end Codes

/-! ### Passwords -/

/-- A challenge is stored only for an account with a password. -/
theorem making_getPassword {userId : Int64} {draw : ChallengeDraw} (hmethod : r.method = .accountGetPassword)
    (hkey : ∃ s a, G s ∧ s.authorizations.find r.ctx.authKeyId = some a ∧ a.userId = userId) :
    Making P G r (getPassword P userId draw) := by
  unfold getPassword loadNormalized
  rw [Prog.perform_bind_bind]
  refine Prog.abides_perform_bind trivial fun s found hs hfound => ?_
  cases hpassword : (normalized found).hasPassword with
  | false =>
    simp only [Prog.ret_bind, hpassword, Bool.not_false, if_true]
    exact Prog.abides_pure _
  | true =>
    simp only [Prog.ret_bind, hpassword, Bool.not_true, Bool.false_eq_true, if_false]
    cases hchallenge : withChallenge P (normalized found) draw with
    | error e => exact Prog.abides_throw _
    | ok settings =>
      refine Prog.Abides.bind (making_perform ?_) fun _ => Prog.abides_pure _
      refine ⟨hmethod, (hasPassword_withChallenge hchallenge).trans hpassword, ⟨s, hs, ?_⟩, hkey⟩
      cases StoreCall.exec_of_attempt hfound
      change (normalized (s.passwordsGetByUser userId)).hasPassword = true at hpassword
      rw [hasPassword_normalized, hasPassword_eq] at hpassword
      exact hpassword

theorem making_completeLogin {authz : Authorization} : Making P G r (completeLogin r.ctx.authKeyId authz) := by
  have hrest : Making P G r (do
      let user ← usersById authz.userId
      return Answer.authorization (user.getD {})) := Prog.Abides.bind (making_read rfl) fun _ => Prog.abides_pure _
  exact making_ite (Prog.Abides.bind (making_perform rfl) fun _ => hrest) hrest

theorem making_checkPassword (userId : Int64) (check : PasswordCheck) :
    Making P G r (checkPassword P userId check) := by
  unfold checkPassword loadNormalized
  refine Prog.Abides.bind (Prog.Abides.bind (making_read rfl) fun _ => Prog.abides_pure _) fun settings => ?_
  cases checkSrp P settings check with
  | error e => exact Prog.abides_throw _
  | ok => exact Prog.abides_pure _

/-! ### Every handler -/

theorem making_handle (cfg : Config) (r : Request) :
    Making cfg.primitives G r (handle cfg r.draw r.ctx r.body r.method) := by
  obtain ⟨method, ctx, body, draw⟩ := r
  cases method with
  | authSendCode =>
    refine making_decode_bind fun req _ _ => making_answering _ ?_
    exact (making_sendCode rfl rfl).bind fun _ => Prog.abides_pure _
  | authSignIn =>
    refine making_decode_bind fun req rest hread => making_answering _ ?_
    have hhash : Request.codeHash ⟨.authSignIn, ctx, body, draw⟩ = some req.phoneCodeHash := by
      simp only [Request.codeHash, hread]
    exact (making_signIn hhash rfl rfl).bind fun _ => making_ite (Prog.abides_pure _) (Prog.abides_pure _)
  | authSignUp =>
    refine making_decode_bind fun req rest hread => making_answering _ ?_
    have hhash : Request.codeHash ⟨.authSignUp, ctx, body, draw⟩ = some req.phoneCodeHash := by
      simp only [Request.codeHash, hread]
    exact (making_signUp hhash rfl rfl).bind fun _ => Prog.abides_pure _
  | accountGetPassword =>
    refine making_answering _ (Prog.abides_perform_bind trivial fun s found hs hfound => ?_)
    cases found with
    | none => exact Prog.abides_pure _
    | some authz =>
      refine making_ite (Prog.Abides.bind (making_getPassword rfl ⟨s, ?_⟩) fun _ => Prog.abides_pure _)
        (Prog.abides_pure _)
      obtain ⟨a, ha, rfl⟩ := Option.map_eq_some_iff.mp (Except.ok.inj (StoreCall.exec_of_attempt hfound))
      exact ⟨a, hs, ha, rfl⟩
  | authCheckPassword =>
    refine making_decode_bind fun check _ _ => making_answering _ (Prog.Abides.bind (making_read rfl) fun found => ?_)
    cases found with
    | none => exact Prog.abides_pure _
    | some authz =>
      refine making_ite (Prog.abides_pure _) ((making_checkPassword _ _).bind fun _ => ?_)
      exact making_completeLogin (r := ⟨.authCheckPassword, ctx, body, draw⟩)
  | usersGetUsers =>
    refine making_answering _ (making_decode_bind fun ids _ _ => ?_)
    exact (making_resolveGetUsers _ _).bind fun _ => Prog.abides_pure _
  | accountUpdateStatus =>
    refine making_answering _ (making_decode_bind fun _ _ _ => ?_)
    exact (making_updateStatus _ _).bind fun _ => Prog.abides_pure _
  | accountGetAuthorizations =>
    refine making_answering _ ((making_resolveCurrentUser _).bind fun current => ?_)
    exact making_ite (Prog.Abides.bind (making_read rfl) fun _ => Prog.abides_pure _) (Prog.abides_pure _)
  | accountUpdateProfile =>
    refine making_answering _ (making_decode_bind fun update _ _ => ?_)
    refine (making_resolveCurrentUser _).bind fun current => ?_
    exact (making_updateProfile _ _ _).bind fun _ => Prog.abides_pure _
  | accountCheckUsername =>
    refine making_answering _ (making_decode_bind fun username _ _ => ?_)
    refine (making_resolveCurrentUser _).bind fun current => ?_
    exact (making_checkUsername _ _).bind fun _ => Prog.abides_pure _
  | accountUpdateUsername =>
    refine making_answering _ (making_decode_bind fun username _ _ => ?_)
    refine (making_resolveCurrentUser _).bind fun current => ?_
    exact (making_updateUsername _ _).bind fun _ => Prog.abides_pure _
  | accountUpdateBirthday =>
    refine making_answering _ (making_decode_bind fun birthday _ _ => ?_)
    refine (making_resolveCurrentUser _).bind fun current => ?_
    exact (making_updateBirthday _ _).bind fun _ => Prog.abides_pure _

/-! ### Whole clients -/

/-- The calls that requests can make. -/
abbrev MakingAny (P : Primitives) (G : Stores → Prop) (R : Request → Prop) (p : StoreProg α) : Prop :=
  p.Abides (StoreCall.attempt P) G fun call => ∃ r, R r ∧ r.Makes G call

theorem makingAny_handle {R : Request → Prop} (cfg : Config) {r : Request} (hr : R r) :
    MakingAny cfg.primitives G R (handle cfg r.draw r.ctx r.body r.method) :=
  (making_handle cfg r).mono fun _ h => ⟨r, hr, h⟩

theorem makingAny_session {R : Request → Prop} (cfg : Config) :
    ∀ (last : Answer) {requests : List Request}, (∀ r ∈ requests, R r) →
      MakingAny cfg.primitives G R (session cfg last requests)
  | _, [], _ => Prog.abides_pure _
  | _, r :: requests, h => by
    refine Prog.Abides.bind ?_ fun answer =>
      makingAny_session cfg answer fun r' hr' => h r' (List.mem_cons_of_mem _ hr')
    exact (makingAny_handle cfg (h r List.mem_cons_self)).tryCatch fun _ => Prog.abides_pure _

theorem makingAny_loginWithPassword (cfg : Config) (pbkdf2HmacSha512 : Pbkdf2) (password random : Bytes)
    (c : LoginClient) :
    MakingAny cfg.primitives G (fun r => r.ctx = c.ctx) (c.loginWithPassword cfg pbkdf2HmacSha512 password random) := by
  have hrequest : ∀ (method : Method) (body : Bytes) (draw : HandlerDraw),
      MakingAny cfg.primitives G (fun r => r.ctx = c.ctx) (handle cfg draw c.ctx body method) :=
    fun method body draw => makingAny_handle cfg (r := ⟨method, c.ctx, body, draw⟩) rfl
  refine Prog.Abides.bind (Prog.Abides.bind (hrequest _ _ _) fun answer => ?_) fun answer => ?_
  · cases answer with
    | sentCode n hash => exact hrequest _ _ _
    | _ => exact Prog.abides_pure _
  · split
    · refine Prog.Abides.bind (hrequest _ _ _) fun answer => ?_
      cases answer with
      | password settings =>
        simp only
        split
        · exact hrequest _ _ _
        · exact Prog.abides_pure _
      | _ => exact Prog.abides_pure _
    · exact Prog.abides_pure _

end Makes

/-! ## The other clients -/

/-- A call that is about other keys, other codes and other passwords. -/
def PendingLogin.Spares (l : PendingLogin) : StoreCall → Prop
  | .codesSet hash _ | .codesDel hash | .codesConsumeSignUpVerified hash _ => hash ≠ l.hash
  | .codesVerifyLogin hash .. => hash ≠ l.hash
  | .authorizationsBind a => a.authKeyId ≠ l.key ∧ a.authKeyId ∉ l.strangers
  | .authorizationsMarkPasswordPassed k _ => k ≠ l.key
  | .passwordsSave userId _ => userId ≠ l.userId
  | _ => True

/-- A request of another client: it is made with another key and is not about the code. -/
structure Request.Foreign (l : PendingLogin) (r : Request) : Prop where
  key : r.ctx.authKeyId ≠ l.key
  hash : r.codeHash ≠ some l.hash
  login : r.method = .authSignIn ∨ r.method = .authSignUp → r.ctx.authKeyId ∉ l.strangers
  challenge : r.method = .accountGetPassword → l.hasPassword = true → r.ctx.authKeyId ∈ l.strangers

variable {l : PendingLogin}

/-- **Another client spares the login.** -/
theorem Request.Foreign.spares {r : Request} (hr : r.Foreign l) {call : StoreCall} (h : r.Makes l.Guard call) :
    l.Spares call := by
  cases call with
  | codesSet hash | codesDel hash | codesConsumeSignUpVerified hash | codesVerifyLogin hash =>
    rintro rfl
    exact hr.hash h
  | authorizationsBind a => exact ⟨h.1 ▸ hr.key, h.1 ▸ hr.login h.2⟩
  | authorizationsMarkPasswordPassed k =>
    intro heq
    exact hr.key (h ▸ heq)
  | passwordsSave userId settings =>
    rintro rfl
    obtain ⟨hmethod, -, ⟨s, hs, hpassword⟩, s', a, hs', ha, huser⟩ := h
    -- a key that asks for a challenge of an account with a password is logged in to another one
    have hprotected : l.hasPassword = true := hs.hasPassword.symm.trans hpassword
    exact hs'.strangers _ (hr.challenge hmethod hprotected) a ha huser
  | _ => trivial

end ShuzaGram.Server

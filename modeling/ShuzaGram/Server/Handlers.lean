import ShuzaGram.Auth.SignIn
import ShuzaGram.Mtproto.Messages.Auth
import ShuzaGram.Mtproto.Session
import ShuzaGram.Users.Profile

/-!
# The handlers of the server

`cmd/shuzagram_server/main.cpp`: what answers a request of each method. A handler reads the request
from the body, calls one function over the stores and turns exceptions into errors of the protocol.
The handlers of the login read the request outside of their `try`, so a body they cannot read is an
exception of the handler itself.

The answers are kept as values; their bytes are not part of this module.
-/

namespace ShuzaGram.Server

open Infra Domain Store Mtproto Mtproto.Messages Mtproto.Crypto Auth Users
open StoreProg

/-- What a handler answers. -/
inductive Answer where
  | sentCode (codeLength : Int) (phoneCodeHash : Bytes)
  | signUpRequired
  | authorization (user : User)
  | password (settings : PasswordSettings)
  | users (users : List ResolvedUser)
  | authorizations (list : List Authorization)
  | bool (value : Bool)
  | rpcError (code : Int) (message : String)
deriving DecidableEq

/-- What the server is configured with, and the code outside the repository. -/
structure Config where
  primitives : Primitives
  phones : PhoneLibrary
  /-- The delivery of codes, where one is configured. -/
  otpSender : Option OtpSender

/-- What a handler draws from the random source and reads from the clock. -/
structure HandlerDraw where
  sendCode : SendCodeDraw
  accessHash : Int64
  challenge : ChallengeDraw
  now : Int

/-- Read a request. -/
def decode {α : Type} (x : Get α) (body : Bytes) : StoreProg α :=
  match x body with
  | .ok a _ => return a
  | .error e _ => throw e

def internal : Answer := .rpcError 500 "INTERNAL"

/-- Run the body of a `try`, and answer its exceptions. -/
def answering (body : StoreProg Answer) (errors : Exn → Answer) : StoreProg Answer :=
  tryCatch body fun e => pure (errors e)

/-! ## Logging in -/

/-- The development code, where none is delivered. -/
def fixedCode : Bytes := ascii "12345"

def defaultCodeTtl : Int := 300

def sendCodeErrors : Exn → Answer
  | .phoneNumberInvalid => .rpcError 406 "PHONE_NUMBER_INVALID"
  | _ => internal

/-- `HandleAuthSendCode`. -/
def handleAuthSendCode (cfg : Config) (draw : HandlerDraw) (body : Bytes) : StoreProg Answer := do
  let req ← decode AuthSendCodeRequest.decodeBare body
  answering (do
    let hash ← sendCode cfg.phones req.phoneNumber fixedCode cfg.otpSender defaultCodeTtl draw.sendCode
    let codeLength :=
      match cfg.otpSender with
      | some otp => otp.codeLength
      | none => 5
    return .sentCode codeLength hash) sendCodeErrors

/-- The errors that `auth.signIn` and `auth.signUp` have in common. -/
def loginErrors : Exn → Answer
  | .codeExpired => .rpcError 400 "PHONE_CODE_EXPIRED"
  | .codeInvalid => .rpcError 400 "PHONE_CODE_INVALID"
  | .accountDeleted => .rpcError 406 "PHONE_NUMBER_INVALID"
  | .userNotFound => .rpcError 406 "PHONE_NUMBER_INVALID"
  | .authKeyNotPermanent => .rpcError 401 "AUTH_KEY_PERM_EMPTY"
  | _ => internal

def signInErrors : Exn → Answer
  | .sessionPasswordNeeded => .rpcError 401 "SESSION_PASSWORD_NEEDED"
  | e => loginErrors e

/-- `HandleAuthSignIn`. -/
def handleAuthSignIn (cfg : Config) (ctx : RpcContext) (body : Bytes) : StoreProg Answer := do
  let req ← decode AuthSignInRequest.decodeBare body
  answering (do
    let result ← signIn cfg.phones { authKeyId := ctx.authKeyId } req.phoneNumber req.phoneCodeHash
      req.phoneCode true
    if result.needSignUp then return .signUpRequired else return .authorization result.user) signInErrors

def signUpErrors : Exn → Answer
  | .phoneNumberInvalid => .rpcError 406 "PHONE_NUMBER_INVALID"
  | .firstNameInvalid => .rpcError 400 "FIRSTNAME_INVALID"
  | e => loginErrors e

/-- `HandleAuthSignUp`. -/
def handleAuthSignUp (cfg : Config) (draw : HandlerDraw) (ctx : RpcContext) (body : Bytes) :
    StoreProg Answer := do
  let req ← decode AuthSignUpRequest.decodeBare body
  answering (do
    let created ← signUp cfg.phones { authKeyId := ctx.authKeyId } req.phoneNumber req.phoneCodeHash
      req.firstName req.lastName draw.accessHash
    return .authorization created) signUpErrors

/-! ## The password -/

/-- `HandleAccountGetPassword`: before a login there are only the defaults. -/
def handleAccountGetPassword (cfg : Config) (draw : HandlerDraw) (ctx : RpcContext) : StoreProg Answer :=
  answering (do
    match ← authorizationsByAuthKey ctx.authKeyId with
    | none => return .password defaultPasswordSettings
    | some authz =>
      if authz.userId ≠ 0 then do
        let settings ← getPassword cfg.primitives authz.userId draw.challenge
        return .password settings
      else return .password defaultPasswordSettings) fun _ => internal

def checkPasswordErrors : Exn → Answer
  | .passwordHashInvalid => .rpcError 400 "PASSWORD_HASH_INVALID"
  | .srpIdInvalid => .rpcError 400 "SRP_ID_INVALID"
  | .srpPasswordChanged => .rpcError 400 "SRP_PASSWORD_CHANGED"
  | _ => internal

/-- The end of `HandleAuthCheckPassword`, after the check: a login that waited for it is completed. -/
def completeLogin (authKeyId : Arr 8) (authz : Authorization) : StoreProg Answer := do
  if authz.passwordPending then authorizationsMarkPasswordPassed authKeyId authz.userId
  let user ← usersById authz.userId
  return .authorization (user.getD {})

/-- `HandleAuthCheckPassword`. -/
def handleAuthCheckPassword (cfg : Config) (ctx : RpcContext) (body : Bytes) : StoreProg Answer := do
  let check ← decode AuthCheckPasswordRequest.decodeBare body
  answering (do
    match ← authorizationsByAuthKey ctx.authKeyId with
    | none => return .rpcError 400 "PASSWORD_HASH_INVALID"
    | some authz =>
      if authz.userId = 0 then return .rpcError 400 "PASSWORD_HASH_INVALID"
      checkPassword cfg.primitives authz.userId check
      completeLogin ctx.authKeyId authz) checkPasswordErrors

/-! ## Accounts -/

/-- `HandleUsersGetUsers`. -/
def handleUsersGetUsers (ctx : RpcContext) (body : Bytes) : StoreProg Answer :=
  answering (do
    let ids ← decode UsersGetUsersRequest.decodeBare body
    let resolved ← resolveGetUsers ctx.authKeyId ids
    return .users resolved) fun _ => internal

/-- `HandleAccountUpdateStatus`. -/
def handleAccountUpdateStatus (draw : HandlerDraw) (ctx : RpcContext) (body : Bytes) : StoreProg Answer :=
  answering (do
    let _ ← decode decodeBool body
    updateStatus ctx.authKeyId draw.now
    return .bool true) fun _ => internal

/-- `HandleAccountGetAuthorizations`. -/
def handleAccountGetAuthorizations (ctx : RpcContext) : StoreProg Answer :=
  answering (do
    let current ← resolveCurrentUser ctx.authKeyId
    let list ← if current.authorized then authorizationsListByUser current.userId else pure []
    return .authorizations list) fun _ => internal

def updateProfileErrors : Exn → Answer
  | .firstNameInvalid => .rpcError 400 "FIRSTNAME_INVALID"
  | .aboutTooLong => .rpcError 400 "ABOUT_TOO_LONG"
  | _ => internal

/-- `HandleAccountUpdateProfile`. -/
def handleAccountUpdateProfile (draw : HandlerDraw) (ctx : RpcContext) (body : Bytes) : StoreProg Answer :=
  answering (do
    let update ← decode AccountUpdateProfileRequest.decodeBare body
    let current ← resolveCurrentUser ctx.authKeyId
    let updated ← updateProfile current.userId update draw.now
    return .users [{ user := updated, self := true }]) updateProfileErrors

def usernameErrors : Exn → Answer
  | .usernameInvalid => .rpcError 400 "USERNAME_INVALID"
  | _ => internal

/-- `HandleAccountCheckUsername`. -/
def handleAccountCheckUsername (ctx : RpcContext) (body : Bytes) : StoreProg Answer :=
  answering (do
    let username ← decode getBytes body
    let current ← resolveCurrentUser ctx.authKeyId
    let available ← checkUsername current.userId username
    return .bool available) usernameErrors

def updateUsernameErrors : Exn → Answer
  | .usernameOccupied => .rpcError 400 "USERNAME_OCCUPIED"
  | e => usernameErrors e

/-- `HandleAccountUpdateUsername`. -/
def handleAccountUpdateUsername (ctx : RpcContext) (body : Bytes) : StoreProg Answer :=
  answering (do
    let username ← decode getBytes body
    let current ← resolveCurrentUser ctx.authKeyId
    let updated ← updateUsername current.userId username
    return .users [{ user := updated, self := true }]) updateUsernameErrors

def updateBirthdayErrors : Exn → Answer
  | .birthdayInvalid => .rpcError 400 "BIRTHDAY_INVALID"
  | _ => internal

/-- `HandleAccountUpdateBirthday`. -/
def handleAccountUpdateBirthday (ctx : RpcContext) (body : Bytes) : StoreProg Answer :=
  answering (do
    let birthday ← decode AccountUpdateBirthdayRequest.decodeBare body
    let current ← resolveCurrentUser ctx.authKeyId
    let _ ← updateBirthday current.userId birthday
    return .bool true) updateBirthdayErrors

/-! ## All of them -/

/-- The methods that need a database, less `auth.bindTempAuthKey`. -/
inductive Method where
  | authSendCode
  | authSignIn
  | authSignUp
  | accountGetPassword
  | authCheckPassword
  | usersGetUsers
  | accountUpdateStatus
  | accountGetAuthorizations
  | accountUpdateProfile
  | accountCheckUsername
  | accountUpdateUsername
  | accountUpdateBirthday
deriving DecidableEq

/-- The handler that is registered for a method. -/
def handle (cfg : Config) (draw : HandlerDraw) (ctx : RpcContext) (body : Bytes) : Method → StoreProg Answer
  | .authSendCode => handleAuthSendCode cfg draw body
  | .authSignIn => handleAuthSignIn cfg ctx body
  | .authSignUp => handleAuthSignUp cfg draw ctx body
  | .accountGetPassword => handleAccountGetPassword cfg draw ctx
  | .authCheckPassword => handleAuthCheckPassword cfg ctx body
  | .usersGetUsers => handleUsersGetUsers ctx body
  | .accountUpdateStatus => handleAccountUpdateStatus draw ctx body
  | .accountGetAuthorizations => handleAccountGetAuthorizations ctx
  | .accountUpdateProfile => handleAccountUpdateProfile draw ctx body
  | .accountCheckUsername => handleAccountCheckUsername ctx body
  | .accountUpdateUsername => handleAccountUpdateUsername ctx body
  | .accountUpdateBirthday => handleAccountUpdateBirthday ctx body

/-- The id that the handler of a method is registered under. -/
def Method.typeId : Method → UInt32
  | .authSendCode => authSendCodeTypeId
  | .authSignIn => authSignInTypeId
  | .authSignUp => authSignUpTypeId
  | .accountGetPassword => accountGetPasswordTypeId
  | .authCheckPassword => authCheckPasswordTypeId
  | .usersGetUsers => usersGetUsersTypeId
  | .accountUpdateStatus => accountUpdateStatusTypeId
  | .accountGetAuthorizations => accountGetAuthorizationsTypeId
  | .accountUpdateProfile => accountUpdateProfileTypeId
  | .accountCheckUsername => accountCheckUsernameTypeId
  | .accountUpdateUsername => accountUpdateUsernameTypeId
  | .accountUpdateBirthday => accountUpdateBirthdayTypeId

/-- The methods in the order in which `main` registers them. -/
def Method.all : List Method :=
  [.authSendCode, .authSignIn, .authSignUp, .accountGetPassword, .authCheckPassword, .usersGetUsers,
    .accountUpdateStatus, .accountGetAuthorizations, .accountUpdateProfile, .accountCheckUsername,
    .accountUpdateUsername, .accountUpdateBirthday]

end ShuzaGram.Server

import ShuzaGram.Auth.BindTempAuthKey
import ShuzaGram.Mtproto.ServerExchange
import ShuzaGram.Server.Handlers

/-!
# What the threads of the server do on the connection

`cmd/shuzagram_server/main.cpp`: every registered handler, the lookup of a resumed key, and the saving of
a key after its handshake, as programs over the shared connection and `db_mutex`.

The handlers of the login and of the password take the mutex once they have read the request and hold it
over all their calls, and so does `auth.bindTempAuthKey`. The other handlers of accounts do not take it.
-/

namespace ShuzaGram.Server

open Infra Store Mtproto Mtproto.Messages Mtproto.Crypto Auth

/-- The handler takes `db_mutex`. -/
def Method.locks : Method → Bool
  | .authSendCode | .authSignIn | .authSignUp | .accountGetPassword | .authCheckPassword => true
  | .usersGetUsers | .accountUpdateStatus | .accountGetAuthorizations | .accountUpdateProfile => false
  | .accountCheckUsername | .accountUpdateUsername | .accountUpdateBirthday => false

/-- A reader succeeds. -/
def reads {α : Type} (x : Get α) (body : Bytes) : Bool :=
  match x body with
  | .ok _ _ => true
  | .error _ _ => false

/-- The handler can read its request. -/
def Method.readable (body : Bytes) : Method → Bool
  | .authSendCode => reads AuthSendCodeRequest.decodeBare body
  | .authSignIn => reads AuthSignInRequest.decodeBare body
  | .authSignUp => reads AuthSignUpRequest.decodeBare body
  | .accountGetPassword => true
  | .authCheckPassword => reads AuthCheckPasswordRequest.decodeBare body
  | .usersGetUsers => reads UsersGetUsersRequest.decodeBare body
  | .accountUpdateStatus => reads decodeBool body
  | .accountGetAuthorizations => true
  | .accountUpdateProfile => reads AccountUpdateProfileRequest.decodeBare body
  | .accountCheckUsername => reads getBytes body
  | .accountUpdateUsername => reads getBytes body
  | .accountUpdateBirthday => reads AccountUpdateBirthdayRequest.decodeBare body

/-- The thread of a request: reading it makes no call, so that the mutex is taken before the first one. -/
def methodThread (cfg : Config) (draw : HandlerDraw) (ctx : RpcContext) (body : Bytes) (m : Method) : DbProg Answer :=
  if m.locks && m.readable body then lockGuard (onDb (handle cfg draw ctx body m))
  else onDb (handle cfg draw ctx body m)

/-- `messages::AuthBindTempAuthKeyRequest`, with what the context adds. -/
def decodeBindRequest (ctx : RpcContext) : Get BindTempAuthKeyRequest := do
  let permAuthKeyId ← long
  let nonce ← long
  let expiresAt ← int32
  let encryptedMessage ← getBytes
  return {
    tempAuthKeyId := ctx.authKeyId
    tempSessionId := ctx.sessionId
    permAuthKeyId
    nonce
    expiresAt
    encryptedMessage }

def bindTempAuthKeyErrors : Exn → Answer
  | .expiresAtInvalid => .rpcError 400 "EXPIRES_AT_INVALID"
  | .tempAuthKeyEmpty => .rpcError 400 "TEMP_AUTH_KEY_EMPTY"
  | .encryptedMessageInvalid => .rpcError 400 "ENCRYPTED_MESSAGE_INVALID"
  | .tempAuthKeyAlreadyBound => .rpcError 400 "TEMP_AUTH_KEY_ALREADY_BOUND"
  | _ => internal

/-- `HandleAuthBindTempAuthKey`. -/
def handleAuthBindTempAuthKey (openInner : OpenBindAuthKeyInner) (ctx : RpcContext) (body : Bytes) (now₁ now₂ : Int) :
    DbProg Answer :=
  match decodeBindRequest ctx body with
  | .error e _ => throw e
  | .ok req _ =>
    tryCatch (do
      let _ ← lockGuard (bindTempAuthKey openInner req now₁ now₂)
      return .bool true) fun e => pure (bindTempAuthKeyErrors e)

/-- The lookup of the resolver: what it throws is taken for an unknown key. -/
def lookUpThread (id : Arr 8) : DbProg (Option AuthKeyData) :=
  tryCatch (lockGuard (Prog.perform (DbCall.authKeysGet id))) fun _ => pure none

/-- The key of a completed handshake. -/
def authKeyDataOf (P : Primitives) (result : ServerExchangeResult) : AuthKeyData :=
  { id := authKeyId P result.authKey
    value := result.authKey
    serverSalt := result.serverSalt
    expiresAt := result.expiresAt.toInt }

/-- The saving of a key by the success callback, which catches everything. -/
def saveThread (P : Primitives) (result : ServerExchangeResult) : DbProg Unit :=
  tryCatch (lockGuard (Prog.perform (DbCall.authKeysSave (authKeyDataOf P result)))) fun _ => pure ()

/-- What a thread may be doing: a request of a method, `auth.bindTempAuthKey`, `help.getConfig`, a lookup,
or the saving of a key. -/
inductive Job where
  | request (method : Method) (ctx : RpcContext) (body : Bytes) (draw : HandlerDraw)
  | bindTempAuthKey (ctx : RpcContext) (body : Bytes) (now₁ now₂ : Int)
  | getConfig
  | lookUp (id : Arr 8)
  | save (result : ServerExchangeResult)

/-- What a thread may do on the connection. -/
def Job.Takes (cfg : Config) (openInner : OpenBindAuthKeyInner) : Job → List Mutex.Step → Prop
  | .request method ctx body draw => Store.Takes (methodThread cfg draw ctx body method)
  | .bindTempAuthKey ctx body now₁ now₂ => Store.Takes (handleAuthBindTempAuthKey openInner ctx body now₁ now₂)
  | .getConfig => (· = [])
  | .lookUp id => Store.Takes (lookUpThread id)
  | .save result => Store.Takes (saveThread cfg.primitives result)

end ShuzaGram.Server

import ShuzaGram.Server.Handlers

/-!
# The bytes of the answers

What the handlers of `cmd/shuzagram_server/main.cpp` write. A list of users is written with any encoding of
a user, of which `EncodeUser` of `messages/users.hpp` is one.
-/

namespace ShuzaGram.Server

open Infra Domain Store Mtproto Mtproto.Messages

/-- The methods about accounts that need no password. -/
inductive AccountMethod where
  | getUsers
  | updateStatus
  | getAuthorizations
  | updateProfile
  | checkUsername
  | updateUsername
  | updateBirthday
deriving DecidableEq

def AccountMethod.method : AccountMethod → Method
  | .getUsers => .usersGetUsers
  | .updateStatus => .accountUpdateStatus
  | .getAuthorizations => .accountGetAuthorizations
  | .updateProfile => .accountUpdateProfile
  | .checkUsername => .accountCheckUsername
  | .updateUsername => .accountUpdateUsername
  | .updateBirthday => .accountUpdateBirthday

/-- `EncodeUser`: the user, whether it is the caller, and the clock. -/
abbrev EncodeUser := User → Bool → Int → Bytes

/-- `EncodeRpcError`. -/
def encodeRpcError (code : Int) (message : String) : Bytes := RpcError.encode (Int32.ofInt code) (ascii message)

/-- The bytes of an answer; `vector` says whether accounts are written as a vector, or one alone. -/
def Answer.encode (encodeUser : EncodeUser) (vector : Bool) (ctx : RpcContext) (now : Int) : Answer → Bytes
  | .sentCode codeLength phoneCodeHash => AuthSentCode.encode (Int32.ofInt codeLength) phoneCodeHash
  | .signUpRequired => AuthAuthorizationSignUpRequired.encode
  | .authorization user => AuthAuthorization.encode user
  | .password settings => AccountPassword.encode settings
  | .users list =>
    let users := list.flatMap fun r => encodeUser r.user r.self now
    if vector then putVectorHeader list.length ++ users else users
  | .authorizations list => encodeAccountAuthorizations list ctx.authKeyId now
  | .bool value => encodeBool value
  | .rpcError code message => encodeRpcError code message

/-- `users.getUsers` writes a vector, the updates write the account alone. -/
def AccountMethod.encode (encodeUser : EncodeUser) (ctx : RpcContext) (now : Int) (m : AccountMethod) :
    Answer → Bytes := Answer.encode encodeUser (m = .getUsers) ctx now

/-- A handler with the bytes it returns; `now` is the clock it reads for them. -/
def respond (cfg : Config) (encodeUser : EncodeUser) (draw : HandlerDraw) (ctx : RpcContext) (body : Bytes)
    (now : Int) (m : AccountMethod) : StoreProg Bytes := do
  let answer ← handle cfg draw ctx body m.method
  return m.encode encodeUser ctx now answer

end ShuzaGram.Server

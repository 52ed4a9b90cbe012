import ShuzaGram.Mtproto.Messages.Help
import ShuzaGram.Server.Responses
import ShuzaGram.Server.Threads

/-!
# The registry of the server

`cmd/shuzagram_server/main.cpp`: the handlers as the session calls them, from the bytes of a request to the
bytes of its answer, and which of them are registered.

The world `W` is everything the handlers share: the database, the mutex, the other threads, the clock. How it
answers a call of a store is arbitrary.
-/

namespace ShuzaGram.Server

open Infra Domain Store Mtproto Mtproto.Messages Mtproto.Crypto Auth Users

/-- The bytes that a method returns for an answer. -/
def Method.encode (m : Method) : RpcContext → Int → Answer → Bytes := Answer.encode encodeUser (m = .usersGetUsers)

/-! ## The handlers -/

def authBindTempAuthKeyTypeId : UInt32 := 0xcdd42a05

/-- What `main` registers a handler for. -/
inductive RegisteredMethod where
  | helpGetConfig
  | authBindTempAuthKey
  | method (m : Method)
deriving DecidableEq

namespace RegisteredMethod

def typeId : RegisteredMethod → UInt32
  | .helpGetConfig => helpGetConfigTypeId
  | .authBindTempAuthKey => authBindTempAuthKeyTypeId
  | .method m => m.typeId

def all : List RegisteredMethod := .helpGetConfig :: .authBindTempAuthKey :: Method.all.map .method

end RegisteredMethod

/-- The stores that `main` could open. -/
structure OpenStores where
  authKeys : Bool
  tempKeys : Bool
  users : Bool
  authorizations : Bool
  passwords : Bool

/-- The condition under which `main` registers a handler. -/
def OpenStores.registers (stores : OpenStores) : RegisteredMethod → Bool
  | .helpGetConfig => true
  | .authBindTempAuthKey => stores.authKeys && stores.tempKeys
  | .method .authSendCode | .method .authSignIn | .method .authSignUp | .method .accountGetPassword
  | .method .authCheckPassword => stores.users && stores.authorizations && stores.passwords
  | .method _ => stores.users && stores.authorizations

/-- A server process, in a world that answers the calls of its stores. -/
structure ServerProcess (W : Type) where
  cfg : Config
  openInner : OpenBindAuthKeyInner
  stores : OpenStores
  dcId : Int32
  advertiseIp : Bytes
  port : Int32
  exec : (call : DbCall) → W → Except Exn call.Res × W
  /-- The random source, and the clock that a handler reads before its calls. -/
  draw : W → HandlerDraw
  clock : W → Int

namespace ServerProcess

variable {W : Type}

/-- Run a handler and write its answer; `now` is the clock for the answer. -/
def runHandler (srv : ServerProcess W) (p : DbProg Answer) (encode : W → Answer → Bytes) (w : W) :
    Except Exn Bytes × W :=
  let o := p.exec srv.exec w
  (o.result.map (encode o.state), o.state)

/-- The handler that is registered for a method. -/
def handler (srv : ServerProcess W) : RegisteredMethod → RpcHandler W
  | .helpGetConfig => fun _ _ _ w =>
    let now := srv.clock w
    (.ok (HelpConfig.encode
      { dc := srv.dcId, ipAddress := srv.advertiseIp, port := srv.port, date := now, expires := now + 3600 }), w)
  | .authBindTempAuthKey => fun _ body ctx w =>
    let p := handleAuthBindTempAuthKey srv.openInner ctx body (srv.draw w).now (srv.clock w)
    srv.runHandler p (fun _ => Answer.encode encodeUser false ctx 0) w
  | .method m => fun _ body ctx w =>
    let draw := srv.draw w
    -- `account.updateProfile` reads the clock once, the others again for their answer
    let now := fun w' => if m = .accountUpdateProfile then draw.now else srv.clock w'
    srv.runHandler (methodThread srv.cfg draw ctx body m) (fun w' => m.encode ctx (now w')) w

/-- The registry that `main` fills. -/
def registry (srv : ServerProcess W) : RpcHandlerRegistry W := fun id =>
  (RegisteredMethod.all.find? fun m => m.typeId = id && srv.stores.registers m).map srv.handler

end ServerProcess

end ShuzaGram.Server

import ShuzaGram.Store.AuthIdentityTx
import ShuzaGram.Store.Statements

/-!
# Logging in and out, statement by statement

`Bind`, `RevokeByHash` and `RevokeByUserExcept` of `store/postgres/authorization_store.cpp` as sessions of the
database, each under `WithAuthIdentityTx`. The variable that a revocation returns lives outside of its
transaction, so that it survives an attempt that failed.
-/

namespace ShuzaGram.Store

open Infra Infra.Transactions Domain Mtproto.Crypto

/-- Parts of a transaction; the variable of the session holds the authorizations that it returns. -/
abbrev StmtTx := Tx Stmt (List Authorization) Stmt.Res Exn

def sql (stmt : Stmt) : StmtTx stmt.Res := Prog.perform (Call.sql stmt)

def assign (returned : List Authorization) : StmtTx Unit := Prog.perform (Call.assign returned)

/-- `result[0]`. -/
def firstRow {α : Type} : List α → StmtTx α
  | [] => throw (.runtimeError "no rows")
  | row :: _ => pure row

/-- `LockUserForUpdate`: there is no account under an id that is not positive. -/
def lockUserForUpdate (userId : Int64) : StmtTx Unit := if userId ≤ 0 then pure () else sql (.lockUser userId)

/-- The loop of `LockPermanentAuthIdentities`. -/
def lockIdentities : List Int32 → StmtTx Unit
  | [] => pure ()
  | lockKey :: lockKeys => do
    sql (.lockIdentity lockKey)
    lockIdentities lockKeys

/-- `LockPermanentAuthIdentities`. -/
def lockPermanentAuthIdentities (permIds : List (Arr 8)) : StmtTx Unit :=
  if permIds = [] then pure ()
  else do
    let lockKeys ← sql (.identityKeys permIds)
    lockIdentities lockKeys

/-! ## Bind -/

/-- The checks of `Bind`; gives the layer of the key. -/
def bindChecks (userId : Int64) (authKeyId : Arr 8) : StmtTx Int := do
  lockUserForUpdate userId
  match ← sql (.selectUser userId) with
  | [] => throw .userNotFound
  | live :: _ => if !live then throw .accountDeleted
  lockPermanentAuthIdentities [authKeyId]
  match ← sql (.selectAuthKey authKeyId) with
  | [] => throw .authKeyNotFound
  | key :: _ =>
    if key.expiresAt ≠ 0 then throw .authKeyNotPermanent
    let layer := key.layer
    let observation := key.layerObservationId
    if layer < 0 ∨ observation < 0 ∨ (observation > 0 ∧ layer = 0) then
      throw (.storeError s!"authorization auth-key layer invariant violation: auth key has layer {layer} observation {observation}")
    return layer

/-- The baseline of the update delivery. -/
def bindStates (userId : Int64) (authKeyId : Arr 8) (now : Int) : StmtTx Unit := do
  sql (.insertWatermark userId)
  let currentPts ← firstRow (← sql (.selectWatermark userId))
  sql (.insertRetention userId)
  let retainedFloor ← firstRow (← sql (.selectRetention userId))
  if retainedFloor > currentPts then
    throw (.storeError s!"authorization update baseline invariant violation: user {userId} retained floor {retainedFloor} exceeds contiguous watermark {currentPts}")
  let affected ← sql (.upsertUpdateState authKeyId userId currentPts retainedFloor now)
  if affected ≠ 1 then
    throw (.storeError s!"authorization update baseline invariant violation: auth key user {userId} has pts or observed_pts outside contiguous watermark {currentPts}")
  sql (.deleteOtherStates authKeyId userId)

/-- The transaction of `Bind`, at the time `now`. -/
def bindTx (P : Primitives) (a : Authorization) (now : Int) : StmtTx Unit := do
  let hash := if a.hash = 0 then authorizationHash P a.authKeyId else a.hash
  let layer ← bindChecks a.userId a.authKeyId
  bindStates a.userId a.authKeyId now
  sql (.upsertAuthorization { a with hash, layer, createdAt := now, activeAt := now })

/-! ## Revocations -/

/-- The transaction of `RevokeByHash`. The first lookup gives a candidate, which may have another owner by the time
the locks are there. -/
def revokeByHashTx (userId hash : Int64) : StmtTx Unit := do
  assign []
  match ← sql (.selectByHash userId hash) with
  | [] => return
  | candidate :: _ =>
    lockPermanentAuthIdentities [candidate]
    match ← sql (.lockAuthKeys [candidate]) with
    | [] => return
    | _ :: _ =>
      match ← sql (.revalidateByHash candidate userId hash) with
      | [] => return
      | a :: _ =>
        sql (.deleteStates [candidate])
        let deleted ← sql (.deleteAuthorizations [candidate])
        if deleted ≠ 1 then
          throw (.storeError s!"revoke authorization by hash: deleted {deleted} of 1 locked target")
        assign [a]

/-- The transaction of `RevokeByUserExcept`. What it returns is put together before anything is deleted. -/
def revokeByUserExceptTx (userId : Int64) (keep : Arr 8) : StmtTx Unit := do
  assign []
  let candidates ← sql (.selectByUserExcept userId keep)
  if candidates = [] then return
  lockPermanentAuthIdentities candidates
  let _ ← sql (.lockAuthKeys candidates)
  let out ← sql (.revalidateByUser userId keep candidates)
  assign out
  if out = [] then return
  let targets := out.map Authorization.authKeyId
  sql (.deleteStates targets)
  let deleted ← sql (.deleteAuthorizations targets)
  if deleted ≠ out.length then
    throw (.storeError s!"revoke authorizations by user: deleted {deleted} of {out.length} locked targets")

/-! ## Sessions -/

/-- A call of the store. -/
inductive LoginCall where
  | bind (a : Authorization)
  | revokeByHash (userId hash : Int64)
  | revokeByUserExcept (userId : Int64) (keep : Arr 8)

namespace LoginCall

/-- The name that `WithAuthIdentityTx` is given. -/
def op : LoginCall → String
  | bind _ => "bind authorization"
  | revokeByHash .. => "revoke authorization by hash"
  | revokeByUserExcept .. => "revoke authorizations by user"

def tx (P : Primitives) : LoginCall → Int → StmtTx Unit
  | bind a, now => bindTx P a now
  | revokeByHash userId hash, _ => revokeByHashTx userId hash
  | revokeByUserExcept userId keep, _ => revokeByUserExceptTx userId keep

end LoginCall

/-- The sessions of the calls, under `WithAuthIdentityTx`. -/
def loginSystem {ι : Type} (P : Primitives) (hashint8 : HashInt8) (calls : ι → LoginCall) :
    System ι Stores RowWrite Lock Stmt (List Authorization) Stmt.Res Exn Int where
  engine := engine hashint8
  body i now := (calls i).tx P now
  attempts := authIdentityTxMaxAttempts
  again := retries
  gaveUp i := notStabilized (calls i).op

end ShuzaGram.Store

import ShuzaGram.Infra.Transactions
import ShuzaGram.Store.AuthorizationStore

/-!
# Statements

The statements of the transactions that log keys in and out, as `Bind`, `RevokeByHash` and
`RevokeByUserExcept` of `store/postgres/authorization_store.cpp` send them, at READ COMMITTED. The locks are
the row locks of the database and two kinds of advisory locks, all of them held to the end of a transaction.

The order of the rows of an answer is open, except for a `SELECT` with an `ORDER BY` and no lock.
-/

namespace ShuzaGram.Store

open Infra Infra.Transactions Domain

/-- A row, by its primary key. -/
inductive Row where
  | user (id : Int64)
  | authKey (id : Arr 8)
  | watermark (userId : Int64)
  | retention (userId : Int64)
  | updateState (key : Arr 8 × Int64)
  | authorization (authKeyId : Arr 8)
deriving DecidableEq

inductive Lock where
  /-- The advisory lock of `LockUserForUpdate`. -/
  | user (id : Int64)
  /-- The advisory lock of `LockPermanentAuthIdentities`, on a hash of the key. -/
  | identity (lockKey : Int32)
  | row (row : Row)
deriving DecidableEq

inductive RowWrite where
  | putWatermark (userId : Int64) (pts : Int)
  | putRetention (userId : Int64) (pts : Int)
  | putUpdateState (key : Arr 8 × Int64) (state : UpdateState)
  | dropUpdateState (key : Arr 8 × Int64)
  | putAuthorization (authKeyId : Arr 8) (a : Authorization)
  | dropAuthorization (authKeyId : Arr 8)

namespace RowWrite

def row : RowWrite → Row
  | putWatermark userId _ => .watermark userId
  | putRetention userId _ => .retention userId
  | putUpdateState key _ | dropUpdateState key => .updateState key
  | putAuthorization authKeyId _ | dropAuthorization authKeyId => .authorization authKeyId

def apply : RowWrite → Stores → Stores
  | putWatermark userId pts, s => { s with watermarks := s.watermarks.upsert userId pts }
  | putRetention userId pts, s => { s with retention := s.retention.upsert userId pts }
  | putUpdateState key state, s => { s with updateStates := s.updateStates.upsert key state }
  | dropUpdateState key, s => { s with updateStates := s.updateStates.erase key }
  | putAuthorization authKeyId a, s => { s with authorizations := s.authorizations.upsert authKeyId a }
  | dropAuthorization authKeyId, s => { s with authorizations := s.authorizations.erase authKeyId }

end RowWrite

/-- `hashint8` of the database, cut to an `integer`. -/
abbrev HashInt8 := Int64 → Int32

/-- The advisory lock of a permanent key. -/
def identityLock (hashint8 : HashInt8) (authKeyId : Arr 8) : Lock := .identity (hashint8 (authKeyIdToInt64 authKeyId))

/-- The lock that guards a change. The rows of a key are guarded by its identity, the others by their row lock. -/
def RowWrite.guard (hashint8 : HashInt8) : RowWrite → Lock
  | putWatermark userId _ => .row (.watermark userId)
  | putRetention userId _ => .row (.retention userId)
  | putUpdateState key _ | dropUpdateState key => identityLock hashint8 key.1
  | putAuthorization authKeyId _ | dropAuthorization authKeyId => identityLock hashint8 authKeyId

/-- The statements, one constructor for each text. -/
inductive Stmt where
  | lockUser (userId : Int64)
  | selectUser (userId : Int64)
  | identityKeys (permIds : List (Arr 8))
  | lockIdentity (lockKey : Int32)
  | selectAuthKey (authKeyId : Arr 8)
  | insertWatermark (userId : Int64)
  | selectWatermark (userId : Int64)
  | insertRetention (userId : Int64)
  | selectRetention (userId : Int64)
  | upsertUpdateState (authKeyId : Arr 8) (userId : Int64) (pts floor now : Int)
  | deleteOtherStates (authKeyId : Arr 8) (userId : Int64)
  | upsertAuthorization (a : Authorization)
  | selectByHash (userId hash : Int64)
  | selectByUserExcept (userId : Int64) (keep : Arr 8)
  | lockAuthKeys (authKeyIds : List (Arr 8))
  | revalidateByHash (authKeyId : Arr 8) (userId hash : Int64)
  | revalidateByUser (userId : Int64) (keep : Arr 8) (authKeyIds : List (Arr 8))
  | deleteStates (authKeyIds : List (Arr 8))
  | deleteAuthorizations (authKeyIds : List (Arr 8))

/-- The rows of an answer, or the number of rows that were affected where the source asks for it. -/
@[reducible] def Stmt.Res : Stmt → Type
  | selectUser .. => List Bool
  | identityKeys .. => List Int32
  | selectAuthKey .. => List AuthKeyRow
  | selectWatermark .. | selectRetention .. => List Int
  | upsertUpdateState .. | deleteAuthorizations .. => Nat
  | selectByHash .. | selectByUserExcept .. | lockAuthKeys .. => List (Arr 8)
  | revalidateByHash .. | revalidateByUser .. => List Authorization
  | _ => Unit

/-- Others have changed the row. -/
def Touched (since : List RowWrite) (row : Row) : Prop := ∃ w ∈ since, w.row = row

/-- The rows under the keys, as `RowToAuthorization` reads them. -/
def authorizationsAt (s : Stores) (keys : List (Arr 8)) : List Authorization :=
  keys.filterMap fun k => (s.authorizations.find k).map fun a => Stores.rowToAuthorization (k, a)

/-- A `SELECT` without a lock: it answers from its snapshot. -/
def Selects {κ ρ : Type} (p : κ → ρ → Prop) (seen : κ → Option ρ) (keys : List κ) : Prop :=
  Finds p seen seen (fun _ => False) keys

/-- The state that `Bind` stores for a key and an account, if it accepts the old one. -/
def baselineState (old : Option UpdateState) (pts floor now : Int) : Option UpdateState :=
  match old with
  | none => some { pts, qts := 0, date := now, seq := 0, observedPts := floor }
  | some old =>
    if 0 ≤ old.pts ∧ old.pts ≤ pts ∧ old.observedPts ≤ pts then
      some
        { pts := max old.pts pts, qts := max old.qts 0, date := max old.date now, seq := max old.seq 0,
          observedPts := max old.observedPts floor }
    else none

/-- What a statement may answer, write and lock. -/
def Stmt.Does (hashint8 : HashInt8) :
    (stmt : Stmt) → (seen : Stores) → (since : List RowWrite) → (now : Stores) → stmt.Res → List RowWrite →
      List Lock → Prop
  | lockUser userId, _, _, _, _, ws, ls => ws = [] ∧ ls = [.user userId]
  | selectUser userId, seen, since, now, r, ws, ls =>
    ∃ keys, Finds (fun k _ => k = userId) seen.users.find now.users.find (Touched since ∘ .user) keys ∧
      r = keys.filterMap (fun k => (now.users.find k).map fun u => !u.deleted) ∧ ws = [] ∧ ls = keys.map (.row ∘ .user)
  | identityKeys permIds, _, _, _, r, ws, ls =>
    r = (permIds.map fun id => hashint8 (authKeyIdToInt64 id)).dedup.mergeSort ∧ ws = [] ∧ ls = []
  | lockIdentity lockKey, _, _, _, _, ws, ls => ws = [] ∧ ls = [.identity lockKey]
  | selectAuthKey authKeyId, seen, since, now, r, ws, ls =>
    ∃ keys, Finds (fun k _ => k = authKeyId) seen.authKeys.find now.authKeys.find (Touched since ∘ .authKey) keys ∧
      r = keys.filterMap now.authKeys.find ∧ ws = [] ∧ ls = keys.map (.row ∘ .authKey)
  -- a conflict with a row that is not in the snapshot counts
  | insertWatermark userId, _, _, now, _, ws, ls =>
    match now.watermarks.find userId with
    | none => ws = [.putWatermark userId 0] ∧ ls = [.row (.watermark userId)]
    | some _ => ws = [] ∧ ls = []
  | selectWatermark userId, seen, since, now, r, ws, ls =>
    ∃ keys, Finds (fun k _ => k = userId) seen.watermarks.find now.watermarks.find (Touched since ∘ .watermark) keys ∧
      r = keys.filterMap now.watermarks.find ∧ ws = [] ∧ ls = keys.map (.row ∘ .watermark)
  | insertRetention userId, _, _, now, _, ws, ls =>
    match now.retention.find userId with
    | none => ws = [.putRetention userId 0] ∧ ls = [.row (.retention userId)]
    | some _ => ws = [] ∧ ls = []
  | selectRetention userId, seen, since, now, r, ws, ls =>
    ∃ keys, Finds (fun k _ => k = userId) seen.retention.find now.retention.find (Touched since ∘ .retention) keys ∧
      r = keys.filterMap now.retention.find ∧ ws = [] ∧ ls = keys.map (.row ∘ .retention)
  | upsertUpdateState authKeyId userId pts floor t, _, _, now, r, ws, ls =>
    ls = [.row (.updateState (authKeyId, userId))] ∧
      match baselineState (now.updateStates.find (authKeyId, userId)) pts floor t with
      | some state => r = 1 ∧ ws = [.putUpdateState (authKeyId, userId) state]
      | none => r = 0 ∧ ws = []
  | deleteOtherStates authKeyId userId, seen, since, now, _, ws, ls =>
    ∃ keys, Finds (fun k _ => k.1 = authKeyId ∧ k.2 ≠ userId) seen.updateStates.find now.updateStates.find
        (Touched since ∘ .updateState) keys ∧
      ws = keys.map .dropUpdateState ∧ ls = keys.map (.row ∘ .updateState)
  | upsertAuthorization a, _, _, _, _, ws, ls =>
    ws = [.putAuthorization a.authKeyId a] ∧ ls = [.row (.authorization a.authKeyId)]
  | selectByHash userId hash, seen, _, _, r, ws, ls =>
    Selects (fun _ a => a.userId = userId ∧ a.hash = hash) seen.authorizations.find r ∧ ws = [] ∧ ls = []
  | selectByUserExcept userId keep, seen, _, _, r, ws, ls =>
    Selects (fun k a => a.userId = userId ∧ k ≠ keep) seen.authorizations.find r ∧
      r.Pairwise (fun k k' => authKeyIdToInt64 k ≤ authKeyIdToInt64 k') ∧ ws = [] ∧ ls = []
  | lockAuthKeys authKeyIds, seen, since, now, r, ws, ls =>
    Finds (fun k _ => k ∈ authKeyIds) seen.authKeys.find now.authKeys.find (Touched since ∘ .authKey) r ∧
      ws = [] ∧ ls = r.map (.row ∘ .authKey)
  | revalidateByHash authKeyId userId hash, seen, since, now, r, ws, ls =>
    ∃ keys, Finds (fun k a => k = authKeyId ∧ a.userId = userId ∧ a.hash = hash) seen.authorizations.find
        now.authorizations.find (Touched since ∘ .authorization) keys ∧
      r = authorizationsAt now keys ∧ ws = [] ∧ ls = keys.map (.row ∘ .authorization)
  | revalidateByUser userId keep authKeyIds, seen, since, now, r, ws, ls =>
    ∃ keys, Finds (fun k a => k ∈ authKeyIds ∧ a.userId = userId ∧ k ≠ keep) seen.authorizations.find
        now.authorizations.find (Touched since ∘ .authorization) keys ∧
      r = authorizationsAt now keys ∧ ws = [] ∧ ls = keys.map (.row ∘ .authorization)
  | deleteStates authKeyIds, seen, since, now, _, ws, ls =>
    ∃ keys, Finds (fun k _ => k.1 ∈ authKeyIds) seen.updateStates.find now.updateStates.find
        (Touched since ∘ .updateState) keys ∧
      ws = keys.map .dropUpdateState ∧ ls = keys.map (.row ∘ .updateState)
  | deleteAuthorizations authKeyIds, seen, since, now, r, ws, ls =>
    ∃ keys, Finds (fun k _ => k ∈ authKeyIds) seen.authorizations.find now.authorizations.find
        (Touched since ∘ .authorization) keys ∧
      r = keys.length ∧ ws = keys.map .dropAuthorization ∧ ls = keys.map (.row ∘ .authorization)

/-- The database. -/
def engine (hashint8 : HashInt8) : Engine Stores RowWrite Lock Stmt Stmt.Res where
  write := RowWrite.apply
  guard := RowWrite.guard hashint8
  stmt := Stmt.Does hashint8

end ShuzaGram.Store

import ShuzaGram.Mtproto.Crypto.AesIge
import ShuzaGram.Store.Tables

/-!
# Authorizations

`store/postgres/authorization_store.cpp`: which account an auth key is logged in to. `bind` is the
login itself, together with the baseline of the key's update delivery, in one transaction.
-/

namespace ShuzaGram.Store

open Infra Domain Mtproto.Crypto

/-- `AuthorizationHash`: never 0, which stands for "not set". -/
def authorizationHash (P : Primitives) (authKeyId : Arr 8) : Int64 :=
  let hash := (UInt64.ofNat (ofLE ((P.sha256 authKeyId.toList).toList.take 8))).toInt64
  if hash = 0 then 1 else hash

/-- `AuthKeyIDToInt64`. -/
def authKeyIdToInt64 (id : Arr 8) : Int64 := (UInt64.ofNat (ofLE id.toList)).toInt64

namespace Stores

variable (P : Primitives)

/-- The checks of `Bind` on the account and on the key; gives the layer of the key. -/
def bindGuard (s : Stores) (userId : Int64) (authKeyId : Arr 8) : Except Exn Int := do
  match s.users.find userId with
  | none => throw .userNotFound
  | some u => if u.deleted then throw .accountDeleted
  match s.authKeys.find authKeyId with
  | none => throw .authKeyNotFound
  | some key =>
    if key.expiresAt ≠ 0 then throw .authKeyNotPermanent
    let layer := key.layer
    let observation := key.layerObservationId
    if layer < 0 ∨ observation < 0 ∨ (observation > 0 ∧ layer = 0) then
      throw (.storeError s!"authorization auth-key layer invariant violation: auth key has layer {layer} observation {observation}")
    return layer

/-- The part of `Bind` that moves the update delivery of the key to the account's watermark. -/
def bindBaseline (s : Stores) (userId : Int64) (authKeyId : Arr 8) : Except Exn Stores := do
  let currentPts := (s.watermarks.find userId).getD 0
  let retainedFloor := (s.retention.find userId).getD 0
  if retainedFloor > currentPts then
    throw (.storeError s!"authorization update baseline invariant violation: user {userId} retained floor {retainedFloor} exceeds contiguous watermark {currentPts}")
  let now := s.moment.now
  let state : UpdateState ←
    match s.updateStates.find (authKeyId, userId) with
    | none => pure { pts := currentPts, qts := 0, date := now, seq := 0, observedPts := retainedFloor }
    | some old =>
      if 0 ≤ old.pts ∧ old.pts ≤ currentPts ∧ old.observedPts ≤ currentPts then
        pure
          { pts := max old.pts currentPts, qts := max old.qts 0, date := max old.date now,
            seq := max old.seq 0, observedPts := max old.observedPts retainedFloor }
      else
        throw (.storeError s!"authorization update baseline invariant violation: auth key user {userId} has pts or observed_pts outside contiguous watermark {currentPts}")
  return { s with
    watermarks := s.watermarks.upsert userId currentPts
    retention := s.retention.upsert userId retainedFloor
    -- one account per key: the states of the others go
    updateStates := (s.updateStates.upsert (authKeyId, userId) state).eraseBy fun r =>
      r.1.1 = authKeyId && r.1.2 ≠ userId }

/-- `Bind`. -/
def authorizationsBind (a : Authorization) (s : Stores) : Except Exn (Unit × Stores) := do
  let hash := if a.hash = 0 then authorizationHash P a.authKeyId else a.hash
  let layer ← s.bindGuard a.userId a.authKeyId
  let s ← s.bindBaseline a.userId a.authKeyId
  let row := { a with hash, layer, createdAt := s.moment.now, activeAt := s.moment.now }
  return ((), { s with authorizations := s.authorizations.upsert a.authKeyId row })

/-- The baseline is no part of the login. -/
theorem bindBaseline_eq_ok {s s' : Stores} {userId : Int64} {authKeyId : Arr 8}
    (h : s.bindBaseline userId authKeyId = .ok s') :
    ∃ w r u, s' = { s with watermarks := w, retention := r, updateStates := u } := by
  unfold bindBaseline at h
  simp only [bind, Except.bind, pure, Except.pure, throw, throwThe, MonadExceptOf.throw] at h
  split at h
  · cases h
  · split at h
    · cases h
      exact ⟨_, _, _, rfl⟩
    · split at h
      · cases h
        exact ⟨_, _, _, rfl⟩
      · cases h

/-- The row of a login. -/
def authorizationRow (P : Primitives) (a : Authorization) (layer now : Int) : Authorization :=
  { a with
    hash := if a.hash = 0 then authorizationHash P a.authKeyId else a.hash
    layer
    createdAt := now
    activeAt := now }

/-- What `Bind` does where it does not throw: the checks, the baseline, and the row. -/
theorem authorizationsBind_inv {a : Authorization} {s s' : Stores} (h : authorizationsBind P a s = .ok ((), s')) :
    ∃ layer s₁, s.bindGuard a.userId a.authKeyId = .ok layer ∧ s.bindBaseline a.userId a.authKeyId = .ok s₁ ∧
      s' = { s₁ with
        authorizations := s₁.authorizations.upsert a.authKeyId (authorizationRow P a layer s₁.moment.now) } := by
  unfold authorizationsBind at h
  simp only [bind, Except.bind, pure, Except.pure] at h
  split at h
  · cases h
  · next layer hguard =>
    split at h
    · cases h
    · next s₁ hbase =>
      cases h
      exact ⟨layer, s₁, hguard, hbase, rfl⟩

/-- A login that went through: the key was permanent, the account live, and the key has the row. -/
theorem authorizationsBind_eq_ok {a : Authorization} {s s' : Stores}
    (h : authorizationsBind P a s = .ok ((), s')) :
    (s.users.find a.userId).isSome ∧
      ∃ w r u row, s' =
          { s with
            watermarks := w, retention := r, updateStates := u
            authorizations := s.authorizations.upsert a.authKeyId row } ∧
        row.userId = a.userId ∧ row.passwordPending = a.passwordPending := by
  obtain ⟨layer, s₁, hguard, hbase, rfl⟩ := authorizationsBind_inv P h
  obtain ⟨w, r, u, rfl⟩ := bindBaseline_eq_ok hbase
  refine ⟨?_, w, r, u, _, rfl, rfl, rfl⟩
  unfold bindGuard at hguard
  cases hu : s.users.find a.userId with
  | none =>
    rw [hu] at hguard
    cases hguard
  | some row => rfl

/-- `RowToAuthorization`; the key of the table is the key of the row. -/
def rowToAuthorization (row : Arr 8 × Authorization) : Authorization := { row.2 with authKeyId := row.1 }

/-- `ByAuthKey`. -/
def authorizationsByAuthKey (s : Stores) (authKeyId : Arr 8) : Option Authorization :=
  (s.authorizations.find authKeyId).map fun a => rowToAuthorization (authKeyId, a)

/-- `ListByUser`: the last active first, then by descending key. -/
def authorizationsListByUser (s : Stores) (userId : Int64) : List Authorization :=
  ((s.authorizations.rows.filter fun r => r.2.userId = userId).mergeSort fun a b =>
    b.2.activeAt < a.2.activeAt ||
      (a.2.activeAt = b.2.activeAt && authKeyIdToInt64 b.1 ≤ authKeyIdToInt64 a.1)).map rowToAuthorization

/-- `MarkPasswordPassed`. -/
def authorizationsMarkPasswordPassed (authKeyId : Arr 8) (expectedUserId : Int64) (s : Stores) :
    Except Exn (Unit × Stores) :=
  match s.authorizations.find authKeyId with
  | none => .error .authorizationStateChanged
  | some a =>
    if a.userId = expectedUserId ∧ a.passwordPending then
      let row := { a with passwordPending := false, createdAt := s.moment.now, activeAt := s.moment.now }
      .ok ((), { s with authorizations := s.authorizations.upsert authKeyId row })
    else .error .authorizationStateChanged

end Stores

end ShuzaGram.Store

import ShuzaGram.Domain.Types
import ShuzaGram.Errors
import ShuzaGram.Store.CodeStore

/-!
# The stores

What the stores of a server hold: the login codes, which live in memory, and the tables of the
database. The schema of the database is not part of the repository. What the source relies on is in
the model: the primary keys, the unique phones and user names of live accounts. A write that another
constraint refuses, or a lost connection, is the `fault` of a `Moment`.
-/

namespace ShuzaGram.Store

open Infra Domain

/-- A row of `auth_keys`; 0 as expiry is a permanent key. -/
structure AuthKeyRow where
  body : Bytes := []
  serverSalt : Int64 := 0
  expiresAt : Int := 0
  layer : Int := 0
  layerObservationId : Int := 0
deriving DecidableEq

/-- A row of `update_states`. -/
structure UpdateState where
  pts : Int
  qts : Int
  date : Int
  seq : Int
  observedPts : Int
deriving DecidableEq

/-- A row of `peer_usernames`, under the user name in lower case. -/
structure PeerUsername where
  peerType : Bytes
  peerId : Int64
  username : Bytes
  collectible : Bool
  active : Bool
  editable : Bool
deriving DecidableEq

/-- A row of `account_passwords`; the `current_algo_*` columns are `algo`. -/
structure PasswordRow where
  hasRecovery : Bool := false
  hasSecureValues : Bool := false
  hasPassword : Bool := false
  hint : Bytes := []
  secureRandom : Bytes := []
  algo : PasswordAlgo := {}
  srpId : Int64 := 0
  srpVerifier : Bytes := []
  srpBSecret : Bytes := []
  srpB : Bytes := []
deriving DecidableEq

/-- What the outside world contributes to one call of a store: the clock, the next value of the id
sequence of `users`, the error of a write the database refuses and that of a read it does not answer, the
outcome of a delivery. -/
structure Moment where
  now : Int
  newUserId : Int64
  fault : Option String := none
  unread : Option String := none
  delivery : Except Exn Unit := .ok ()

structure Stores where
  codes : Codes
  users : Table Int64 User
  peerUsernames : Table Bytes PeerUsername
  /-- The `collectible_usernames` that are not burned. -/
  reservedUsernames : List Bytes
  accountPasswords : Table Int64 PasswordRow
  authKeys : Table (Arr 8) AuthKeyRow
  authorizations : Table (Arr 8) Authorization
  updateStates : Table (Arr 8 × Int64) UpdateState
  /-- `contiguous_pts` of `user_update_watermarks`. -/
  watermarks : Table Int64 Int
  /-- `retained_through_pts` of `user_update_retention`. -/
  retention : Table Int64 Int
  moment : Moment

/-- Nothing stored yet. -/
def Stores.empty (moment : Moment) : Stores where
  codes := .empty
  users := .empty
  peerUsernames := .empty
  reservedUsernames := []
  accountPasswords := .empty
  authKeys := .empty
  authorizations := .empty
  updateStates := .empty
  watermarks := .empty
  retention := .empty
  moment := moment

/-- The stores at another moment. -/
def atMoment (m : Moment) (s : Stores) : Stores := { s with moment := m }

@[simp] theorem authKeys_atMoment (m : Moment) (s : Stores) : (atMoment m s).authKeys = s.authKeys := rfl

/-! ## What a change touches -/

/-- The parts of the stores that are changed together. -/
inductive Area where
  | codes
  | users
  | passwords
  | authorizations
deriving DecidableEq

/-- `s'` is `s` with changes in one area at most. -/
structure Stores.Agree (touched : Option Area) (s s' : Stores) : Prop where
  codes : touched ≠ some .codes → s'.codes = s.codes
  users : touched ≠ some .users → s'.users = s.users
  passwords : touched ≠ some .passwords → s'.accountPasswords = s.accountPasswords
  authorizations : touched ≠ some .authorizations → s'.authorizations = s.authorizations
  authKeys : s'.authKeys = s.authKeys
  moment : s'.moment = s.moment

theorem Stores.Agree.refl (touched : Option Area) (s : Stores) : Stores.Agree touched s s :=
  ⟨fun _ => rfl, fun _ => rfl, fun _ => rfl, fun _ => rfl, rfl, rfl⟩

/-! ## Transactions -/

/-- A transaction that changes the database: what throws is rolled back. -/
def write {α : Type} (tx : Stores → Except Exn (α × Stores)) (s : Stores) : Except Exn α × Stores :=
  match s.moment.fault with
  | some state => (.error (.sqlError state), s)
  | none =>
    match tx s with
    | .ok (a, s') => (.ok a, s')
    | .error e => (.error e, s)

/-- A write leaves the stores alone, or it is a transaction that went through. -/
theorem write_cases {α : Type} (tx : Stores → Except Exn (α × Stores)) (s : Stores) :
    (∃ e, write tx s = (.error e, s)) ∨ ∃ a s', tx s = .ok (a, s') ∧ write tx s = (.ok a, s') := by
  unfold write
  cases s.moment.fault with
  | some state => exact .inl ⟨_, rfl⟩
  | none =>
    cases h : tx s with
    | error e => exact .inl ⟨e, rfl⟩
    | ok p => exact .inr ⟨p.1, p.2, rfl, rfl⟩

end ShuzaGram.Store

import ShuzaGram.Domain.Phone
import ShuzaGram.Store.Tables

/-!
# Accounts

`store/postgres/user_store.cpp`: the table `users` and the registry `peer_usernames`. A transaction
is a function on the stores that throws or gives the stores it commits.
-/

namespace ShuzaGram.Store

open Infra Domain

/-! ## Texts -/

/-- `s.find_first_not_of(" \t\n\r\f\v")` to the last such character. -/
def trimAsciiSpace (s : Bytes) : Bytes :=
  ((s.dropWhile isSpace).reverse.dropWhile isSpace).reverse

/-- `TrimUsername`. -/
def trimUsername (username : Bytes) : Bytes :=
  trimAsciiSpace (if username.head? = some 64 then username.drop 1 else username)

/-- `ToLower`, and `lower` of the database on ASCII texts. -/
def toLower (s : Bytes) : Bytes := s.map fun c => if 65 ≤ c && c ≤ 90 then c + 32 else c

/-! ## Reading -/

/-- `RowToUser`. What depends on the viewer has no column. `premium_expires_at` is only ever written from an `int`,
so the cast to one changes nothing. The snapshot of a collectible is kept as it was before
`EncodeEmojiStatusCollectible`: `DecodeEmojiStatusCollectible` throws only on a row that the check constraints of
`users` exclude, and a read that throws is `StoreCall.attempt`. -/
def rowToUser (row : Int64 × User) : User :=
  { row.2 with
    id := row.1
    contact := false
    mutualContact := false
    closeFriend := false
    restrictionReasons := []
    photoId := 0
    photoDcId := 0
    photoStripped := []
    photoPersonal := false
    photoHasVideo := false
    status := {} }.deletedTombstone

@[simp] theorem id_rowToUser (r : Int64 × User) : (rowToUser r).id = r.1 := by
  rw [rowToUser, User.deletedTombstone]
  split <;> rfl

/-- The live account with the phone; the empty phone is nobody's. -/
def phoneOwner (users : Table Int64 User) (phone : Bytes) : Option User :=
  if phone = [] then none
  else (users.findBy fun r => r.2.phone = phone && !r.2.deleted).map rowToUser

theorem phone_of_phoneOwner {users : Table Int64 User} {phone : Bytes} {u : User}
    (h : phoneOwner users phone = some u) : u.phone = phone := by
  unfold phoneOwner at h
  split at h
  · cases h
  · obtain ⟨⟨id, r⟩, hfind, rfl⟩ := Option.map_eq_some_iff.mp h
    have hrow := (Table.findBy_eq_some hfind).2
    simp only [Bool.and_eq_true, decide_eq_true_eq, Bool.not_eq_true'] at hrow
    simp [rowToUser, User.deletedTombstone, hrow.1, hrow.2]

namespace Stores

/-- `ByID`. -/
def usersById (s : Stores) (id : Int64) : Option User :=
  (s.users.find id).map fun r => rowToUser (id, r)

/-- `ByIDs`, ordered by id. -/
def usersByIds (s : Stores) (ids : List Int64) : List User :=
  ((s.users.rows.filter fun r => ids.contains r.1).mergeSort fun a b => a.1 ≤ b.1).map rowToUser

/-- `ByPhone`. -/
def usersByPhone (s : Stores) (phone : Bytes) : Option User := phoneOwner s.users phone

/-- `ByUsername`. -/
def usersByUsername (s : Stores) (username : Bytes) : Option User :=
  let username := trimUsername username
  if username = [] then none
  else
    (s.users.findBy fun r =>
      toLower r.2.username = toLower username && r.2.username ≠ [] && !r.2.deleted).map rowToUser

/-- The account exists and is not deleted. -/
def Live (s : Stores) (id : Int64) : Prop := ∃ r, s.users.find id = some r ∧ r.deleted = false

/-! ## Writing -/

def peerTypeUser : Bytes := ascii "user"

/-- `ReplacePeerUsernameTx`: the editable name of a peer is replaced; the empty name clears it. -/
def replacePeerUsername (s : Stores) (peerType : Bytes) (peerId : Int64) (username usernameLower : Bytes) :
    Except Exn Stores := do
  if usernameLower ≠ [] then
    match s.peerUsernames.find usernameLower with
    | some owner =>
      if !(owner.peerType = peerType && owner.peerId = peerId) || owner.collectible then
        throw .usernameOccupied
    | none => if s.reservedUsernames.contains usernameLower then throw .usernameOccupied
  let kept := s.peerUsernames.eraseBy fun r => r.2.peerType = peerType && r.2.peerId = peerId && r.2.editable
  if usernameLower = [] then return { s with peerUsernames := kept }
  if (kept.find usernameLower).isSome then throw .usernameOccupied
  let row : PeerUsername :=
    { peerType, peerId, username, collectible := false, active := true, editable := true }
  return { s with peerUsernames := kept.upsert usernameLower row }

/-- SQLSTATE of a unique violation. -/
def uniqueViolation : String := "23505"

/-- Whether a live account other than `id` has the user name. -/
def usernameTaken (s : Stores) (id : Int64) (username : Bytes) : Bool :=
  username ≠ [] && s.users.rows.any fun r =>
    r.1 ≠ id && !r.2.deleted && toLower r.2.username = toLower username

/-- Whether a live account has the phone. -/
def phoneTaken (s : Stores) (phone : Bytes) : Bool :=
  phone ≠ [] && s.users.rows.any fun r => !r.2.deleted && r.2.phone = phone

/-- `Create`; the columns that are not named keep their defaults. -/
def usersCreate (user : User) (s : Stores) : Except Exn (User × Stores) := do
  let id := s.moment.newUserId
  let username := trimUsername user.username
  let row : User :=
    { accessHash := user.accessHash, phone := user.phone, firstName := user.firstName,
      lastName := user.lastName, username, countryCode := user.countryCode,
      premiumUntil := if user.premiumUntil > 0 then user.premiumUntil else 0 }
  if (s.users.find id).isSome then throw (.sqlError uniqueViolation)
  if s.phoneTaken user.phone then throw (.sqlError uniqueViolation)
  if s.usernameTaken id username then throw .usernameOccupied
  let s := { s with users := s.users.upsert id row }
  let usernameLower := toLower username
  let s ← if usernameLower ≠ [] then replacePeerUsername s peerTypeUser id username usernameLower else pure s
  return (rowToUser (id, row), s)

/-- An `UPDATE users … WHERE id = $1 AND deleted_at IS NULL RETURNING *`; `none` where no row matched. -/
def updateLive (s : Stores) (id : Int64) (f : User → User) : Option (User × Stores) :=
  match s.users.find id with
  | none => none
  | some r =>
    if r.deleted then none else some (rowToUser (id, f r), { s with users := s.users.upsert id (f r) })

/-- `UpdateLastSeen`; no row is no error. -/
def usersUpdateLastSeen (id : Int64) (lastSeenAt : Int) (s : Stores) : Except Exn (Unit × Stores) :=
  match s.updateLive id fun r => { r with lastSeenAt := max r.lastSeenAt lastSeenAt } with
  | none => .ok ((), s)
  | some (_, s') => .ok ((), s')

/-- An update of a live row that throws `UserNotFoundError` where there is none. -/
def updateOrThrow (id : Int64) (f : User → User) (s : Stores) : Except Exn (User × Stores) :=
  match s.updateLive id f with
  | none => .error .userNotFound
  | some r => .ok r

/-- `UpdateProfile`. -/
def usersUpdateProfile (id : Int64) (firstName lastName about : Bytes) :
    Stores → Except Exn (User × Stores) :=
  updateOrThrow id fun r => { r with firstName, lastName, about }

/-- `UpdateBirthday`. -/
def usersUpdateBirthday (id : Int64) (birthday : Birthday) : Stores → Except Exn (User × Stores) :=
  updateOrThrow id fun r => { r with birthday }

/-- `UpdateUsername`. -/
def usersUpdateUsername (id : Int64) (username : Bytes) (s : Stores) : Except Exn (User × Stores) := do
  let username := trimUsername username
  match s.users.find id with
  | none => throw .usernameNotOccupied
  | some r =>
    if r.deleted then throw .usernameNotOccupied
    let s ← replacePeerUsername s peerTypeUser id username (toLower username)
    if s.usernameTaken id username then throw .usernameOccupied
    match s.updateLive id fun r => { r with username } with
    | none => throw .usernameNotOccupied
    | some r => return r

/-! ## What the transactions do -/

theorem replacePeerUsername_eq_ok {s s' : Stores} {peerType : Bytes} {peerId : Int64}
    {username usernameLower : Bytes}
    (h : s.replacePeerUsername peerType peerId username usernameLower = .ok s') :
    ∃ t, s' = { s with peerUsernames := t } := by
  unfold replacePeerUsername at h
  simp only [bind, Except.bind, pure, Except.pure, throw, throwThe, MonadExceptOf.throw] at h
  repeat' split at h
  all_goals first | cases h; exact ⟨_, rfl⟩ | cases h

/-- What `Create` does where it does not throw: the row is new, and the registry has its name if it has one. -/
theorem usersCreate_inv {s s' : Stores} {user u : User} (h : usersCreate user s = .ok (u, s')) :
    ∃ row t, s.users.find s.moment.newUserId = none ∧ row.deleted = false ∧ row.username = trimUsername user.username ∧
      s.usernameTaken s.moment.newUserId row.username = false ∧ u.id = s.moment.newUserId ∧ u.phone = user.phone ∧
      s' = { s with users := s.users.upsert s.moment.newUserId row, peerUsernames := t } ∧
      (toLower row.username = [] ∧ t = s.peerUsernames ∨
        replacePeerUsername { s with users := s.users.upsert s.moment.newUserId row } peerTypeUser s.moment.newUserId
          row.username (toLower row.username) = .ok s') := by
  unfold usersCreate at h
  simp only [bind, Except.bind, pure, Except.pure, throw, throwThe, MonadExceptOf.throw] at h
  split at h
  · cases h
  · next hfresh =>
    split at h
    · cases h
    · split at h
      · cases h
      · next hfree =>
        split at h
        · split at h
          · cases h
          · next s'' hreplace =>
            cases h
            obtain ⟨t, rfl⟩ := replacePeerUsername_eq_ok hreplace
            exact ⟨_, t, by simpa using hfresh, rfl, rfl, by simpa using hfree, rfl, rfl, rfl, .inr hreplace⟩
        · next hlower =>
          cases h
          exact ⟨_, s.peerUsernames, by simpa using hfresh, rfl, rfl, by simpa using hfree, rfl, rfl, rfl,
            .inl ⟨by simpa using hlower, rfl⟩⟩

/-- An account is created under a new id, with the phone it was asked for. -/
theorem usersCreate_eq_ok {s s' : Stores} {user u : User} (h : usersCreate user s = .ok (u, s')) :
    s.users.find s.moment.newUserId = none ∧ u.id = s.moment.newUserId ∧ u.phone = user.phone ∧
      ∃ row t, s' = { s with users := s.users.upsert s.moment.newUserId row, peerUsernames := t } := by
  obtain ⟨row, t, hfresh, -, -, -, hid, hphone, hstate, -⟩ := usersCreate_inv h
  exact ⟨hfresh, hid, hphone, row, t, hstate⟩

theorem not_live_of_deleted {s : Stores} {id : Int64} {r : User} (hfind : s.users.find id = some r)
    (hdeleted : r.deleted = true) : ¬s.Live id := by
  rintro ⟨r', hr', hlive⟩
  rw [hfind] at hr'
  cases hr'
  rw [hdeleted] at hlive
  cases hlive

/-- An update of a live row: nothing happens, or it is the change of that row. -/
theorem updateLive_cases (s : Stores) (id : Int64) (f : User → User) :
    (s.updateLive id f = none ∧ ¬s.Live id) ∨ ∃ r, s.users.find id = some r ∧ r.deleted = false ∧
      s.updateLive id f = some (rowToUser (id, f r), { s with users := s.users.upsert id (f r) }) := by
  unfold updateLive
  cases hfind : s.users.find id with
  | none =>
    refine .inl ⟨rfl, ?_⟩
    rintro ⟨r, hr, -⟩
    rw [hfind] at hr
    cases hr
  | some r =>
    simp only
    cases hdel : r.deleted with
    | true => exact .inl ⟨rfl, not_live_of_deleted hfind hdel⟩
    | false => exact .inr ⟨r, rfl, hdel, rfl⟩

theorem updateLive_eq_some {s s' : Stores} {id : Int64} {f : User → User} {u : User}
    (h : s.updateLive id f = some (u, s')) :
    ∃ r, s.users.find id = some r ∧ r.deleted = false ∧ u = rowToUser (id, f r) ∧
      s' = { s with users := s.users.upsert id (f r) } := by
  rcases updateLive_cases s id f with ⟨hnone, -⟩ | ⟨r, hfind, hlive, hsome⟩
  · rw [hnone] at h
    cases h
  · rw [hsome] at h
    cases h
    exact ⟨r, hfind, hlive, rfl, rfl⟩

/-- What `UpdateUsername` does where it does not throw: the registry first, then the row, which is live. -/
theorem usersUpdateUsername_eq_ok {s s' : Stores} {id : Int64} {username : Bytes} {u : User}
    (h : usersUpdateUsername id username s = .ok (u, s')) :
    ∃ r t, s.users.find id = some r ∧ r.deleted = false ∧
      replacePeerUsername s peerTypeUser id (trimUsername username) (toLower (trimUsername username)) =
        .ok { s with peerUsernames := t } ∧
      s.usernameTaken id (trimUsername username) = false ∧
      s' = { s with
        users := s.users.upsert id { r with username := trimUsername username }
        peerUsernames := t } := by
  unfold usersUpdateUsername at h
  simp only [bind, Except.bind, pure, Except.pure, throw, throwThe, MonadExceptOf.throw] at h
  split at h
  · cases h
  · split at h
    · cases h
    · split at h
      · cases h
      · next s'' hreplace =>
        obtain ⟨t, rfl⟩ := replacePeerUsername_eq_ok hreplace
        split at h
        · cases h
        · next hfree =>
          split at h
          · cases h
          · next hupdate =>
            cases h
            obtain ⟨r, hfind, hlive, -, hstate⟩ := updateLive_eq_some hupdate
            exact ⟨r, t, hfind, hlive, hreplace, Bool.eq_false_iff.mpr hfree, hstate⟩

end Stores

end ShuzaGram.Store

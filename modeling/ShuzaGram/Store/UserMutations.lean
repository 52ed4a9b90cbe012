import ShuzaGram.Store.UserStore

/-!
# Every change of an account

The operations of `IUserStore` that change accounts: those that the server calls, and the rest of
`store/postgres/user_store.cpp`.
-/

namespace ShuzaGram.Store

open Infra Domain

namespace Stores

/-- `SetPremiumUntil`; an expiry that is not positive is none. -/
def usersSetPremiumUntil (id : Int64) (untilTime : Int) : Stores → Except Exn (User × Stores) :=
  updateOrThrow id fun r => { r with premiumUntil := if untilTime > 0 then untilTime else 0 }

/-- `SetVerified`. -/
def usersSetVerified (id : Int64) (verified : Bool) : Stores → Except Exn (User × Stores) :=
  updateOrThrow id fun r => { r with verified }

/-- `SetSupport`. -/
def usersSetSupport (id : Int64) (support : Bool) : Stores → Except Exn (User × Stores) :=
  updateOrThrow id fun r => { r with support }

/-- Whether a live account other than `id` has the phone. -/
def phoneTakenByOther (s : Stores) (id : Int64) (phone : Bytes) : Bool :=
  phone ≠ [] && s.users.rows.any fun r => r.1 ≠ id && !r.2.deleted && r.2.phone = phone

/-- `UpdatePhone`. -/
def usersUpdatePhone (id : Int64) (phone : Bytes) (s : Stores) : Except Exn (User × Stores) :=
  match s.updateLive id fun r => { r with phone } with
  | none => .error .userNotFound
  | some r => if s.phoneTakenByOther id phone then .error .phoneNumberOccupied else .ok r

/-- `SetScamFake`, once the flags are checked; the row is looked up by its id alone. -/
def usersSetScamFake (id : Int64) (scam fake : Bool) (s : Stores) : Except Exn (User × Stores) :=
  match s.users.find id with
  | none => .error .userNotFound
  | some r =>
    if r.scam = scam ∧ r.fake = fake then .ok (rowToUser (id, r), s)
    else
      let row := { r with scam, fake }
      .ok (rowToUser (id, row), { s with users := s.users.upsert id row })

/-- The `limit` live accounts whose premium expired first. -/
def expiredPremium (s : Stores) (now : Int) (limit : Nat) : List Int64 :=
  let expired := s.users.rows.filter fun r => r.2.premiumUntil ≠ 0 && !r.2.deleted && r.2.premiumUntil ≤ now
  ((expired.mergeSort fun a b => a.2.premiumUntil ≤ b.2.premiumUntil).take limit).map Prod.fst

/-- `SweepExpiredPremium`, for a positive limit. -/
def usersSweepExpiredPremium (now : Int) (limit : Nat) (s : Stores) : Except Exn (List User × Stores) :=
  let ids := s.expiredPremium now limit
  let users := s.users.modifyBy (fun r => ids.contains r.1) fun r => { r with premiumUntil := 0 }
  .ok ((users.rows.filter fun r => ids.contains r.1).map rowToUser, { s with users })

/-- `UpdateEmojiStatus`, for a status without a collectible. -/
def usersUpdateEmojiStatus (id : Int64) (status : UserEmojiStatus) : Stores → Except Exn (User × Stores) :=
  updateOrThrow id fun r =>
    { r with
      emojiStatusDocumentId := status.documentId
      emojiStatusUntil := status.untilTime
      emojiStatusCollectible := {} }

/-- `UpdatePersonalChannel`. -/
def usersUpdatePersonalChannel (id channelId : Int64) : Stores → Except Exn (User × Stores) :=
  updateOrThrow id fun r => { r with personalChannelId := channelId }

/-- `UpdateColor`. -/
def usersUpdateColor (id : Int64) (forProfile : Bool) (color : PeerColor) : Stores → Except Exn (User × Stores) :=
  updateOrThrow id fun r => if forProfile then { r with profileColor := color } else { r with color }

end Stores

/-- The operations of `IUserStore` that change accounts. -/
inductive UserMutation where
  | setPremiumUntil (id : Int64) (untilTime : Int)
  | setVerified (id : Int64) (verified : Bool)
  | setSupport (id : Int64) (support : Bool)
  | updateLastSeen (id : Int64) (lastSeenAt : Int)
  | updateProfile (id : Int64) (firstName lastName about : Bytes)
  | updateUsername (id : Int64) (username : Bytes)
  | updatePhone (id : Int64) (phone : Bytes)
  | setScamFake (id : Int64) (scam fake : Bool)
  | sweepExpiredPremium (now limit : Int)
  | updateEmojiStatus (id : Int64) (status : UserEmojiStatus)
  | updateBirthday (id : Int64) (birthday : Birthday)
  | updatePersonalChannel (id channelId : Int64)
  | updateColor (id : Int64) (forProfile : Bool) (color : PeerColor)

namespace UserMutation

/-- What an operation returns. -/
@[reducible] def Res : UserMutation → Type
  | updateLastSeen .. => Unit
  | sweepExpiredPremium .. => List User
  | _ => User

/-- Some operations refuse their arguments before they open a transaction. -/
def exec : (op : UserMutation) → Stores → Except Exn op.Res × Stores
  | setPremiumUntil id untilTime, s => write (Stores.usersSetPremiumUntil id untilTime) s
  | setVerified id verified, s => write (Stores.usersSetVerified id verified) s
  | setSupport id support, s => write (Stores.usersSetSupport id support) s
  | updateLastSeen id t, s => write (Stores.usersUpdateLastSeen id t) s
  | updateProfile id f l a, s => write (Stores.usersUpdateProfile id f l a) s
  | updateUsername id username, s => write (Stores.usersUpdateUsername id username) s
  | updatePhone id phone, s => write (Stores.usersUpdatePhone id phone) s
  | setScamFake id scam fake, s =>
    if scam && fake then (.error .peerModerationFlagsInvalid, s) else write (Stores.usersSetScamFake id scam fake) s
  | sweepExpiredPremium now limit, s =>
    if limit ≤ 0 then (.ok [], s) else write (Stores.usersSweepExpiredPremium now limit.toNat) s
  | updateEmojiStatus id status, s =>
    if !status.valid then (.error .starGiftCollectibleInvalid, s)
    else if !status.collectible.isEmpty then
      (.error (.notImplemented "UpdateEmojiStatus with a collectible snapshot (needs the star-gift module)"), s)
    else write (Stores.usersUpdateEmojiStatus id status) s
  | updateBirthday id birthday, s => write (Stores.usersUpdateBirthday id birthday) s
  | updatePersonalChannel id channelId, s => write (Stores.usersUpdatePersonalChannel id channelId) s
  | updateColor id forProfile color, s => write (Stores.usersUpdateColor id forProfile color) s

/-- The account that an operation names. -/
def userId : UserMutation → Option Int64
  | setPremiumUntil id _ | setVerified id _ | setSupport id _ | updateLastSeen id _ | updateProfile id _ _ _ => some id
  | updateUsername id _ | updatePhone id _ | setScamFake id _ _ | updateEmojiStatus id _ | updateBirthday id _ => some id
  | updatePersonalChannel id _ | updateColor id _ _ => some id
  | sweepExpiredPremium .. => none

end UserMutation

end ShuzaGram.Store

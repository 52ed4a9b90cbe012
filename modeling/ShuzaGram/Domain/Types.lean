import ShuzaGram.Infra.Bytes
import Mathlib.Tactic.Common

/-!
# Domain types

`domain/user.hpp`, `domain/authorization.hpp` and `domain/password.hpp`, with the fields that the
modelled functions read or write. Times are seconds of the Unix clock.
-/

namespace ShuzaGram.Domain

open Infra

structure Birthday where
  day : Int
  month : Int
  year : Int
deriving DecidableEq

def Birthday.zero : Birthday := { day := 0, month := 0, year := 0 }

/-- `Birthday::IsSet`. -/
def Birthday.isSet (b : Birthday) : Bool := b.day ≠ 0 && b.month ≠ 0

/-- `ValidBirthday`. -/
def validBirthday (b : Birthday) : Bool :=
  !(b.month < 1 || b.month > 12 || b.day < 1 || b.day > 31) &&
    !(b.year ≠ 0 && (b.year < 1900 || b.year > 2100))

/-- `PeerColor`; an explicit color 0 is not an unset one. -/
structure PeerColor where
  hasColor : Bool := false
  color : Int32 := 0
  backgroundEmojiId : Int64 := 0
deriving DecidableEq

/-- `PeerColor::Empty`. -/
def PeerColor.isEmpty (c : PeerColor) : Bool := !c.hasColor && c.backgroundEmojiId = 0

structure EmojiStatusCollectible where
  collectibleId : Int64 := 0
  documentId : Int64 := 0
  title : Bytes := []
  slug : Bytes := []
  patternDocumentId : Int64 := 0
  centerColor : Int32 := 0
  edgeColor : Int32 := 0
  patternColor : Int32 := 0
  textColor : Int32 := 0
deriving DecidableEq

namespace EmojiStatusCollectible

/-- `EmojiStatusCollectible::Empty`. -/
def isEmpty (c : EmojiStatusCollectible) : Bool := c = {}

/-- `EmojiStatusCollectible::Valid`. -/
def valid (c : EmojiStatusCollectible) : Bool :=
  !(c.collectibleId ≤ 0 || c.documentId ≤ 0 || c.patternDocumentId ≤ 0 || c.title = [] || c.slug = []) &&
    [c.centerColor, c.edgeColor, c.patternColor, c.textColor].all fun color => !(color < 0 || color > 0xffffff)

end EmojiStatusCollectible

/-- `UserEmojiStatus`; `untilTime` is `until`. -/
structure UserEmojiStatus where
  documentId : Int64 := 0
  untilTime : Int32 := 0
  collectible : EmojiStatusCollectible := {}
deriving DecidableEq

namespace UserEmojiStatus

/-- `UserEmojiStatus::Empty`. -/
def isEmpty (s : UserEmojiStatus) : Bool := s.documentId = 0 && s.collectible.isEmpty

/-- `UserEmojiStatus::Valid`. -/
def valid (s : UserEmojiStatus) : Bool :=
  if s.untilTime < 0 then false
  else if s.isEmpty then s.untilTime = 0
  else if s.documentId ≤ 0 then false
  else if s.collectible.isEmpty then true
  else s.collectible.valid && s.documentId = s.collectible.documentId

end UserEmojiStatus

structure UserRestrictionReason where
  platform : Bytes
  reason : Bytes
  text : Bytes
deriving DecidableEq

inductive UserStatusKind where
  | unknown
  | online
  | offline
  | recently
  | lastWeek
  | lastMonth
  | empty
deriving DecidableEq

structure UserStatus where
  kind : UserStatusKind := .unknown
  expires : Int32 := 0
  wasOnline : Int32 := 0
deriving DecidableEq

/-- `User`, less the fields that nothing reads. -/
structure User where
  id : Int64 := 0
  accessHash : Int64 := 0
  phone : Bytes := []
  firstName : Bytes := []
  lastName : Bytes := []
  about : Bytes := []
  username : Bytes := []
  countryCode : Bytes := []
  verified : Bool := false
  scam : Bool := false
  fake : Bool := false
  support : Bool := false
  contact : Bool := false
  mutualContact : Bool := false
  closeFriend : Bool := false
  restrictionReasons : List UserRestrictionReason := []
  bot : Bool := false
  botInfoVersion : Int32 := 0
  premiumUntil : Int := 0
  emojiStatusDocumentId : Int64 := 0
  emojiStatusUntil : Int32 := 0
  emojiStatusCollectible : EmojiStatusCollectible := {}
  birthday : Birthday := Birthday.zero
  personalChannelId : Int64 := 0
  linkedCommunityId : Int64 := 0
  color : PeerColor := {}
  profileColor : PeerColor := {}
  photoId : Int64 := 0
  photoDcId : Int32 := 0
  photoStripped : Bytes := []
  photoPersonal : Bool := false
  photoHasVideo : Bool := false
  lastSeenAt : Int := 0
  status : UserStatus := {}
  deleted : Bool := false
deriving DecidableEq

/-- `User::PremiumActiveAt`. -/
def User.premiumActiveAt (u : User) (now : Int) : Bool :=
  !u.bot && u.premiumUntil > 0 && u.premiumUntil > now

/-- `User::EmojiStatus`. -/
def User.emojiStatus (u : User) : UserEmojiStatus where
  documentId := u.emojiStatusDocumentId
  untilTime := u.emojiStatusUntil
  collectible := u.emojiStatusCollectible

/-- `User::EmojiStatusActiveAt`. -/
def User.emojiStatusActiveAt (u : User) (now : Int) : Bool :=
  if !u.premiumActiveAt now || !u.emojiStatus.valid || u.emojiStatusDocumentId = 0 then false
  else u.emojiStatusUntil = 0 || u.emojiStatusUntil.toInt > now

/-- `User::DeletedTombstone`: of a deleted user only the identity is left. -/
def User.deletedTombstone (u : User) : User :=
  if !u.deleted then u
  else { id := u.id, accessHash := u.accessHash, deleted := true, status := { kind := .empty } }

structure UserProfileUpdate where
  firstName : Option Bytes
  lastName : Option Bytes
  about : Option Bytes
deriving DecidableEq

structure Authorization where
  authKeyId : Arr 8
  userId : Int64 := 0
  hash : Int64 := 0
  layer : Int := 0
  deviceModel : Bytes := []
  platform : Bytes := []
  systemVersion : Bytes := []
  apiId : Int := 0
  appVersion : Bytes := []
  ip : Bytes := []
  passwordPending : Bool := false
  createdAt : Int := 0
  activeAt : Int := 0
deriving DecidableEq

structure PasswordAlgo where
  salt1 : Bytes := []
  salt2 : Bytes := []
  g : Int := 0
  p : Bytes := []
deriving DecidableEq

structure PasswordSettings where
  hasRecovery : Bool := false
  hasSecureValues : Bool := false
  hasPassword : Bool := false
  hint : Bytes := []
  secureRandom : Bytes := []
  newAlgo : PasswordAlgo := {}
  currentAlgo : Option PasswordAlgo := none
  srpId : Int64 := 0
  srpVerifier : Bytes := []
  srpBSecret : Bytes := []
  srpB : Bytes := []
deriving DecidableEq

/-- `PasswordCheck`; `empty` is the proof of an account without a password. -/
structure PasswordCheck where
  empty : Bool := false
  srpId : Int64 := 0
  a : Bytes := []
  m1 : Bytes := []
deriving DecidableEq

end ShuzaGram.Domain

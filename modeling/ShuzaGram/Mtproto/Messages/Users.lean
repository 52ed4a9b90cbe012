import ShuzaGram.Domain.Types
import ShuzaGram.Infra.Flags
import ShuzaGram.Mtproto.TlBuffer

/-!
# Users on the wire

What `messages/users.hpp` writes: `user#b1b8cc83` and the constructors nested in it. A field stands on the
wire exactly when its flag is set, and the flags are set in one place, the fields written in another.
-/

namespace ShuzaGram.Mtproto.Messages

open Infra Domain

def userStatusEmptyTypeId : UInt32 := 0x009d5c5d
def userStatusOnlineTypeId : UInt32 := 0xedb93949
def userStatusOfflineTypeId : UInt32 := 0x8c703f
def userStatusRecentlyTypeId : UInt32 := 0x7b197dc8
def userStatusLastWeekTypeId : UInt32 := 0x541a1d1a
def userStatusLastMonthTypeId : UInt32 := 0x65899777

/-- `EncodeUserStatus`; a time that is not there leaves only `recently`. -/
def encodeUserStatus (status : UserStatus) : Bytes :=
  let recently := putId userStatusRecentlyTypeId ++ putUint32 0
  match status.kind with
  | .online =>
    if status.expires > 0 then putId userStatusOnlineTypeId ++ putInt32 status.expires else recently
  | .offline =>
    if status.wasOnline > 0 then putId userStatusOfflineTypeId ++ putInt32 status.wasOnline else recently
  | .lastWeek => putId userStatusLastWeekTypeId ++ putUint32 0
  | .lastMonth => putId userStatusLastMonthTypeId ++ putUint32 0
  | .empty => putId userStatusEmptyTypeId
  | .recently | .unknown => recently

def userProfilePhotoEmptyTypeId : UInt32 := 0x4f11bae1
def userProfilePhotoTypeId : UInt32 := 0x82d1f706

/-- The flags of a `userProfilePhoto`. -/
def photoFlags (u : User) : UInt32 :=
  flagWord [(u.photoHasVideo, 0), (u.photoStripped ≠ [], 1), (u.photoPersonal, 2)]

/-- `EncodeUserProfilePhoto`. -/
def encodeUserProfilePhoto (u : User) : Bytes :=
  if u.photoId = 0 then putId userProfilePhotoEmptyTypeId
  else
    putId userProfilePhotoTypeId ++ (putUint32 (photoFlags u) ++ (putLong u.photoId ++
      ((if u.photoStripped ≠ [] then putBytes u.photoStripped else []) ++ putInt32 u.photoDcId)))

def peerColorTypeId : UInt32 := 0xb54b5acf

/-- The flags of a `peerColor`; the color 0 is not written. -/
def peerColorFlags (color : PeerColor) : UInt32 :=
  flagWord [(color.hasColor && color.color ≠ 0, 0), (color.backgroundEmojiId ≠ 0, 1)]

/-- `EncodePeerColorIfPresent`. -/
def encodePeerColorIfPresent (color : PeerColor) : Bytes :=
  let flags := peerColorFlags color
  if color.isEmpty then []
  else
    putId peerColorTypeId ++ (putUint32 flags ++ ((if HasFlag flags 0 then putInt32 color.color else []) ++
      (if HasFlag flags 1 then putLong color.backgroundEmojiId else [])))

def emojiStatusEmptyTypeId : UInt32 := 0x2de11aae
def emojiStatusTypeId : UInt32 := 0xe7ff068a
def emojiStatusCollectibleTypeId : UInt32 := 0x7184603b

/-- `EncodeEmojiStatus`. -/
def encodeEmojiStatus (status : UserEmojiStatus) : Bytes :=
  let flags := putUint32 (if status.untilTime ≠ 0 then 1 else 0)
  let untilTime := if status.untilTime ≠ 0 then putInt32 status.untilTime else []
  let c := status.collectible
  if !status.valid || status.isEmpty then putId emojiStatusEmptyTypeId
  else if !c.isEmpty then
    putId emojiStatusCollectibleTypeId ++ (flags ++ (putLong c.collectibleId ++ (putLong c.documentId ++
      (putBytes c.title ++ (putBytes c.slug ++ (putLong c.patternDocumentId ++ (putInt32 c.centerColor ++
        (putInt32 c.edgeColor ++ (putInt32 c.patternColor ++ (putInt32 c.textColor ++ untilTime))))))))))
  else putId emojiStatusTypeId ++ (flags ++ (putLong status.documentId ++ untilTime))

def restrictionReasonTypeId : UInt32 := 0xd072acb4

def encodeRestrictionReason (r : UserRestrictionReason) : Bytes :=
  putId restrictionReasonTypeId ++ (putBytes r.platform ++ (putBytes r.reason ++ putBytes r.text))

/-- `ValidRestrictionReasons`: a reason without one of its texts is dropped. -/
def validRestrictionReasons (u : User) : List UserRestrictionReason :=
  u.restrictionReasons.filter fun r => !(r.platform = [] || r.reason = [] || r.text = [])

def userTypeId : UInt32 := 0xb1b8cc83

/-! ## Flags -/

namespace UserFlag

def accessHash : Fin 32 := 0
def firstName : Fin 32 := 1
def lastName : Fin 32 := 2
def username : Fin 32 := 3
def phone : Fin 32 := 4
def photo : Fin 32 := 5
def status : Fin 32 := 6
def self : Fin 32 := 10
def contact : Fin 32 := 11
def mutualContact : Fin 32 := 12
def deleted : Fin 32 := 13
/-- Also the flag of `bot_info_version`. -/
def bot : Fin 32 := 14
def verified : Fin 32 := 17
/-- Also the flag of `restriction_reason`. -/
def restricted : Fin 32 := 18
def support : Fin 32 := 23
def scam : Fin 32 := 24
def fake : Fin 32 := 26
def premium : Fin 32 := 28
def emojiStatus : Fin 32 := 30

end UserFlag

namespace UserFlag2

def closeFriend : Fin 32 := 2
def color : Fin 32 := 8
def profileColor : Fin 32 := 9
def botBusiness : Fin 32 := 11
def linkedCommunity : Fin 32 := 21

end UserFlag2

/-- `flags` of `EncodeUser`. -/
def userFlags (u : User) (isSelf : Bool) (now : Int) : UInt32 :=
  flagWord
    [(isSelf, UserFlag.self), (u.contact, UserFlag.contact), (u.mutualContact, UserFlag.mutualContact),
      (u.bot, UserFlag.bot), (u.verified, UserFlag.verified),
      (validRestrictionReasons u ≠ [], UserFlag.restricted), (u.support, UserFlag.support),
      (u.scam, UserFlag.scam), (u.fake, UserFlag.fake), (u.premiumActiveAt now, UserFlag.premium),
      (u.accessHash ≠ 0, UserFlag.accessHash), (u.firstName ≠ [], UserFlag.firstName),
      (u.lastName ≠ [], UserFlag.lastName), (u.username ≠ [], UserFlag.username),
      (!u.bot && u.phone ≠ [], UserFlag.phone), (true, UserFlag.photo), (!u.bot, UserFlag.status),
      (u.emojiStatusActiveAt now, UserFlag.emojiStatus)]

/-- `flags2` of `EncodeUser`. -/
def userFlags2 (u : User) : UInt32 :=
  flagWord
    [(u.closeFriend, UserFlag2.closeFriend), (u.bot, UserFlag2.botBusiness), (!u.color.isEmpty, UserFlag2.color),
      (!u.profileColor.isEmpty, UserFlag2.profileColor), (u.linkedCommunityId ≠ 0, UserFlag2.linkedCommunity)]

/-! ## `EncodeUser` -/

/-- What a set flag writes. -/
def putFlagged (flags : UInt32) (k : Fin 32) (bytes : Bytes) : Bytes := if HasFlag flags k then bytes else []

/-- The fields of a user behind its id, each under its flag. -/
def encodeUserFields (flags flags2 : UInt32) (u : User) : Bytes :=
  putFlagged flags UserFlag.accessHash (putLong u.accessHash) ++
  (putFlagged flags UserFlag.firstName (putBytes u.firstName) ++
  (putFlagged flags UserFlag.lastName (putBytes u.lastName) ++
  (putFlagged flags UserFlag.username (putBytes u.username) ++
  (putFlagged flags UserFlag.phone (putBytes u.phone) ++
  (putFlagged flags UserFlag.photo (encodeUserProfilePhoto u) ++
  (putFlagged flags UserFlag.status (encodeUserStatus u.status) ++
  (putFlagged flags UserFlag.bot (putInt32 (if u.botInfoVersion > 0 then u.botInfoVersion else 1)) ++
  (putFlagged flags UserFlag.restricted (putVector encodeRestrictionReason (validRestrictionReasons u)) ++
  (putFlagged flags UserFlag.emojiStatus (encodeEmojiStatus u.emojiStatus) ++
  (putFlagged flags2 UserFlag2.color (encodePeerColorIfPresent u.color) ++
  (putFlagged flags2 UserFlag2.profileColor (encodePeerColorIfPresent u.profileColor) ++
  putFlagged flags2 UserFlag2.linkedCommunity (putLong u.linkedCommunityId))))))))))))

/-- `EncodeUser`; of a deleted user only the id is written. -/
def encodeUser (u : User) (isSelf : Bool) (now : Int) : Bytes :=
  if u.deleted then putId userTypeId ++ (putUint32 (flagBit UserFlag.deleted) ++ (putUint32 0 ++ putLong u.id))
  else
    let flags := userFlags u isSelf now
    let flags2 := userFlags2 u
    putId userTypeId ++ (putUint32 flags ++ (putUint32 flags2 ++ (putLong u.id ++ encodeUserFields flags flags2 u)))

end ShuzaGram.Mtproto.Messages

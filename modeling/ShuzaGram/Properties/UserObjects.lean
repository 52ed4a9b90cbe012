import ShuzaGram.Infra.Parses
import ShuzaGram.Mtproto.Messages.Users
import ShuzaGram.Server.Responses

/-!
# Users parse back

The users that `users.getUsers` answers with have no lengths: a client finds its way through the vector by
the flags alone. A reader of `user#b1b8cc83` here takes every field exactly when its flag is set, in the order
of the schema, and what it reads is compared with what a client is meant to see.

The schema has fields that this server never sets. How a client reads those is a parameter.
-/

namespace ShuzaGram.Mtproto.Messages

open Infra Domain

/-! ## Fields under a flag -/

section Flagged

variable {α : Type} {flags : UInt32} {k : Fin 32} {x : Get α} {bs : Bytes} {a : α}

theorem parses_id (id : UInt32) : Parses uint32 (putId id) id := uint32_put id

/-- A field is read exactly when it was written. -/
theorem parses_flagged (hx : HasFlag flags k → Parses x bs a) :
    Parses (flagged flags (flagBit k) x) (putFlagged flags k bs) (if HasFlag flags k then some a else none) :=
  Parses.optional hx

theorem parses_flagged_unset (h : ¬ HasFlag flags k) : Parses (flagged flags (flagBit k) x) [] none := by
  rw [flagged, if_neg h]
  exact Parses.pure none

end Flagged

/-! ## Presence -/

/-- A `UserStatus` on the wire. -/
inductive StatusView where
  | empty
  | online (expires : Int32)
  | offline (wasOnline : Int32)
  | recently (byMe : Bool)
  | lastWeek (byMe : Bool)
  | lastMonth (byMe : Bool)
deriving DecidableEq

def readUserStatus : Get StatusView := do
  let id ← uint32
  if id = userStatusEmptyTypeId then return .empty
  else if id = userStatusOnlineTypeId then do
    let expires ← int32
    return .online expires
  else if id = userStatusOfflineTypeId then do
    let wasOnline ← int32
    return .offline wasOnline
  else if id = userStatusRecentlyTypeId then do
    let flags ← uint32
    return .recently (HasFlag flags 0)
  else if id = userStatusLastWeekTypeId then do
    let flags ← uint32
    return .lastWeek (HasFlag flags 0)
  else if id = userStatusLastMonthTypeId then do
    let flags ← uint32
    return .lastMonth (HasFlag flags 0)
  else throw (.unexpectedId id)

/-- What a client is to see of a presence: a time only where there is one. -/
def statusView (s : UserStatus) : StatusView :=
  match s.kind with
  | .online => if s.expires > 0 then .online s.expires else .recently false
  | .offline => if s.wasOnline > 0 then .offline s.wasOnline else .recently false
  | .lastWeek => .lastWeek false
  | .lastMonth => .lastMonth false
  | .empty => .empty
  | .recently | .unknown => .recently false

theorem parses_recently :
    Parses readUserStatus (putId userStatusRecentlyTypeId ++ putUint32 0) (.recently false) := by
  refine Parses.bind (parses_id _) ?_
  rw [if_neg (by decide), if_neg (by decide), if_neg (by decide), if_pos rfl]
  exact Parses.map (g := fun flags => StatusView.recently (HasFlag flags 0)) (uint32_put 0)

theorem parses_encodeUserStatus (s : UserStatus) : Parses readUserStatus (encodeUserStatus s) (statusView s) := by
  unfold encodeUserStatus statusView
  cases s.kind with
  | unknown => exact parses_recently
  | recently => exact parses_recently
  | online =>
    dsimp only
    by_cases h : s.expires > 0
    · rw [if_pos h, if_pos h]
      refine Parses.bind (parses_id _) ?_
      rw [if_neg (by decide), if_pos rfl]
      exact Parses.map (int32_put s.expires)
    · rw [if_neg h, if_neg h]
      exact parses_recently
  | offline =>
    dsimp only
    by_cases h : s.wasOnline > 0
    · rw [if_pos h, if_pos h]
      refine Parses.bind (parses_id _) ?_
      rw [if_neg (by decide), if_neg (by decide), if_pos rfl]
      exact Parses.map (int32_put s.wasOnline)
    · rw [if_neg h, if_neg h]
      exact parses_recently
  | lastWeek =>
    refine Parses.bind (parses_id _) ?_
    rw [if_neg (by decide), if_neg (by decide), if_neg (by decide), if_neg (by decide), if_pos rfl]
    exact Parses.map (g := fun flags => StatusView.lastWeek (HasFlag flags 0)) (uint32_put 0)
  | lastMonth =>
    refine Parses.bind (parses_id _) ?_
    rw [if_neg (by decide), if_neg (by decide), if_neg (by decide), if_neg (by decide), if_neg (by decide), if_pos rfl]
    exact Parses.map (g := fun flags => StatusView.lastMonth (HasFlag flags 0)) (uint32_put 0)
  | empty =>
    refine Parses.bind_last (parses_id _) ?_
    rw [if_pos rfl]
    exact Parses.pure _

/-! ## Photos -/

/-- A `UserProfilePhoto` on the wire. -/
inductive PhotoView where
  | empty
  | photo (hasVideo personal : Bool) (photoId : Int64) (strippedThumb : Option Bytes) (dcId : Int32)
deriving DecidableEq

def readUserProfilePhoto : Get PhotoView := do
  let id ← uint32
  if id = userProfilePhotoEmptyTypeId then return .empty
  else if id = userProfilePhotoTypeId then do
    let flags ← uint32
    let photoId ← long
    let strippedThumb ← flagged flags (flagBit 1) getBytes
    let dcId ← int32
    return .photo (HasFlag flags 0) (HasFlag flags 2) photoId strippedThumb dcId
  else throw (.unexpectedId id)

/-- What a client is to see of a photo. -/
def photoView (u : User) : PhotoView :=
  if u.photoId = 0 then .empty
  else
    .photo u.photoHasVideo u.photoPersonal u.photoId (if u.photoStripped ≠ [] then some u.photoStripped else none)
      u.photoDcId

theorem parses_encodeUserProfilePhoto {u : User} (h : FitsString u.photoStripped) :
    Parses readUserProfilePhoto (encodeUserProfilePhoto u) (photoView u) := by
  have hvideo : HasFlag (photoFlags u) 0 ↔ u.photoHasVideo = true := by simp [photoFlags, hasFlag_flagWord]
  have hthumb : HasFlag (photoFlags u) 1 ↔ u.photoStripped ≠ [] := by simp [photoFlags, hasFlag_flagWord]
  have hpersonal : HasFlag (photoFlags u) 2 ↔ u.photoPersonal = true := by simp [photoFlags, hasFlag_flagWord]
  unfold encodeUserProfilePhoto photoView
  by_cases hid : u.photoId = 0
  · rw [if_pos hid, if_pos hid]
    refine Parses.bind_last (parses_id _) ?_
    rw [if_pos rfl]
    exact Parses.pure _
  · rw [if_neg hid, if_neg hid]
    refine Parses.bind (parses_id _) ?_
    rw [if_neg (by decide), if_pos rfl]
    refine Parses.bind (uint32_put _) (Parses.bind (long_put _) ?_)
    simp only [← hthumb]
    refine Parses.bind (parses_flagged fun _ => getBytes_put h) ?_
    have hmap := Parses.map (g := fun dcId => PhotoView.photo (HasFlag (photoFlags u) 0) (HasFlag (photoFlags u) 2)
      u.photoId (if HasFlag (photoFlags u) 1 then some u.photoStripped else none) dcId) (int32_put u.photoDcId)
    simp only [hvideo, hpersonal, Bool.decide_eq_true] at hmap ⊢
    exact hmap

/-! ## Colors -/

/-- A `peerColor` on the wire. -/
structure ColorView where
  color : Option Int32
  backgroundEmojiId : Option Int64
deriving DecidableEq

def readPeerColor : Get ColorView := do
  consumeId peerColorTypeId
  let flags ← uint32
  let color ← flagged flags (flagBit 0) int32
  let backgroundEmojiId ← flagged flags (flagBit 1) long
  return { color, backgroundEmojiId }

/-- What a client is to see of a color that is set; the color 0 is the one that is shown without any. -/
def colorView (c : PeerColor) : ColorView where
  color := if c.hasColor ∧ c.color ≠ 0 then some c.color else none
  backgroundEmojiId := if c.backgroundEmojiId ≠ 0 then some c.backgroundEmojiId else none

theorem parses_encodePeerColor {c : PeerColor} (h : ¬ c.isEmpty) :
    Parses readPeerColor (encodePeerColorIfPresent c) (colorView c) := by
  have hcolor : HasFlag (peerColorFlags c) 0 ↔ c.hasColor ∧ c.color ≠ 0 := by
    simp [peerColorFlags, hasFlag_flagWord]
  have hemoji : HasFlag (peerColorFlags c) 1 ↔ c.backgroundEmojiId ≠ 0 := by
    simp [peerColorFlags, hasFlag_flagWord]
  unfold encodePeerColorIfPresent colorView
  simp only [if_neg h, ← hcolor, ← hemoji]
  refine Parses.bind (consumeId_put _) (Parses.bind (uint32_put _) ?_)
  refine Parses.bind (parses_flagged fun _ => int32_put c.color) ?_
  exact Parses.map (parses_flagged fun _ => long_put c.backgroundEmojiId)

/-! ## Emoji statuses -/

/-- An `EmojiStatus` on the wire. -/
inductive EmojiStatusView where
  | empty
  | status (documentId : Int64) (untilTime : Option Int32)
  | collectible (c : EmojiStatusCollectible) (untilTime : Option Int32)
deriving DecidableEq

def readEmojiStatus : Get EmojiStatusView := do
  let id ← uint32
  if id = emojiStatusEmptyTypeId then return .empty
  else if id = emojiStatusTypeId then do
    let flags ← uint32
    let documentId ← long
    let untilTime ← flagged flags (flagBit 0) int32
    return .status documentId untilTime
  else if id = emojiStatusCollectibleTypeId then do
    let flags ← uint32
    let collectibleId ← long
    let documentId ← long
    let title ← getBytes
    let slug ← getBytes
    let patternDocumentId ← long
    let centerColor ← int32
    let edgeColor ← int32
    let patternColor ← int32
    let textColor ← int32
    let untilTime ← flagged flags (flagBit 0) int32
    return .collectible
      { collectibleId, documentId, title, slug, patternDocumentId, centerColor, edgeColor, patternColor, textColor }
      untilTime
  else throw (.unexpectedId id)

/-- What a client is to see of an emoji status that is set. -/
def emojiStatusView (s : UserEmojiStatus) : EmojiStatusView :=
  let untilTime := if s.untilTime ≠ 0 then some s.untilTime else none
  if s.collectible.isEmpty then .status s.documentId untilTime else .collectible s.collectible untilTime

/-- The texts of a collectible can be written. -/
structure CollectibleFits (c : EmojiStatusCollectible) : Prop where
  title : FitsString c.title
  slug : FitsString c.slug

theorem parses_encodeEmojiStatus {s : UserEmojiStatus} (hvalid : s.valid) (hset : ¬ s.isEmpty)
    (h : CollectibleFits s.collectible) : Parses readEmojiStatus (encodeEmojiStatus s) (emojiStatusView s) := by
  have huntil : HasFlag (if s.untilTime ≠ 0 then 1 else 0) 0 ↔ s.untilTime ≠ 0 := by
    by_cases hs : s.untilTime ≠ 0
    · rw [if_pos hs]
      exact ⟨fun _ => hs, fun _ => by decide⟩
    · rw [if_neg hs]
      exact ⟨fun hc => absurd hc (by decide), fun hc => absurd hc hs⟩
  have hwritten : ¬ (!s.valid || s.isEmpty) := by simp [hvalid, hset]
  unfold encodeEmojiStatus emojiStatusView
  simp only [if_neg hwritten]
  generalize hflags : (if s.untilTime ≠ 0 then (1 : UInt32) else 0) = flags at huntil
  simp only [← huntil]
  by_cases hc : s.collectible.isEmpty
  · rw [if_neg (by simp [hc]), if_pos hc]
    refine Parses.bind (parses_id _) ?_
    rw [if_neg (by decide), if_pos rfl]
    refine Parses.bind (uint32_put flags) (Parses.bind (long_put s.documentId) ?_)
    exact Parses.map (parses_flagged fun _ => int32_put s.untilTime)
  · rw [if_pos (by simp [hc]), if_neg hc]
    refine Parses.bind (parses_id _) ?_
    rw [if_neg (by decide), if_neg (by decide), if_pos rfl]
    refine Parses.bind (uint32_put flags) (Parses.bind (long_put _) (Parses.bind (long_put _) ?_))
    refine Parses.bind (getBytes_put h.title) (Parses.bind (getBytes_put h.slug) (Parses.bind (long_put _) ?_))
    refine Parses.bind (int32_put _) (Parses.bind (int32_put _) ?_)
    refine Parses.bind (int32_put _) (Parses.bind (int32_put _) ?_)
    exact Parses.map (parses_flagged fun _ => int32_put s.untilTime)

/-! ## Restrictions -/

def readRestrictionReason : Get UserRestrictionReason := do
  consumeId restrictionReasonTypeId
  let platform ← getBytes
  let reason ← getBytes
  let text ← getBytes
  return { platform, reason, text }

structure ReasonFits (r : UserRestrictionReason) : Prop where
  platform : FitsString r.platform
  reason : FitsString r.reason
  text : FitsString r.text

theorem parses_encodeRestrictionReason {r : UserRestrictionReason} (h : ReasonFits r) :
    Parses readRestrictionReason (encodeRestrictionReason r) r := by
  refine Parses.bind (consumeId_put _) (Parses.bind (getBytes_put h.platform) (Parses.bind (getBytes_put h.reason) ?_))
  exact Parses.map (g := fun text => { r with text }) (getBytes_put h.text)

/-! ## Users -/

/-- A `user#b1b8cc83` on the wire. -/
structure UserView where
  id : Int64
  self : Bool := false
  contact : Bool := false
  mutualContact : Bool := false
  deleted : Bool := false
  bot : Bool := false
  verified : Bool := false
  restricted : Bool := false
  support : Bool := false
  scam : Bool := false
  fake : Bool := false
  premium : Bool := false
  closeFriend : Bool := false
  botBusiness : Bool := false
  accessHash : Option Int64 := none
  firstName : Option Bytes := none
  lastName : Option Bytes := none
  username : Option Bytes := none
  phone : Option Bytes := none
  photo : Option PhotoView := none
  status : Option StatusView := none
  botInfoVersion : Option Int32 := none
  restrictionReasons : Option (List UserRestrictionReason) := none
  emojiStatus : Option EmojiStatusView := none
  color : Option ColorView := none
  profileColor : Option ColorView := none
  linkedCommunityId : Option Int64 := none
deriving DecidableEq

/-- How a client reads the fields that this server never sets, by the word of their flag and its bit. -/
structure UnsetFields where
  flags : Fin 32 → Get Unit
  flags2 : Fin 32 → Get Unit

/-- A client reads a user by the schema. -/
def readUser (unset : UnsetFields) : Get UserView := do
  consumeId userTypeId
  let flags ← uint32
  let flags2 ← uint32
  let id ← long
  let accessHash ← flagged flags (flagBit UserFlag.accessHash) long
  let firstName ← flagged flags (flagBit UserFlag.firstName) getBytes
  let lastName ← flagged flags (flagBit UserFlag.lastName) getBytes
  let username ← flagged flags (flagBit UserFlag.username) getBytes
  let phone ← flagged flags (flagBit UserFlag.phone) getBytes
  let photo ← flagged flags (flagBit UserFlag.photo) readUserProfilePhoto
  let status ← flagged flags (flagBit UserFlag.status) readUserStatus
  let botInfoVersion ← flagged flags (flagBit UserFlag.bot) int32
  let restrictionReasons ← flagged flags (flagBit UserFlag.restricted) (getVector readRestrictionReason)
  -- bot_inline_placeholder, lang_code
  let _ ← flagged flags (flagBit 19) (unset.flags 19)
  let _ ← flagged flags (flagBit 22) (unset.flags 22)
  let emojiStatus ← flagged flags (flagBit UserFlag.emojiStatus) readEmojiStatus
  -- usernames, stories_max_id
  let _ ← flagged flags2 (flagBit 0) (unset.flags2 0)
  let _ ← flagged flags2 (flagBit 5) (unset.flags2 5)
  let color ← flagged flags2 (flagBit UserFlag2.color) readPeerColor
  let profileColor ← flagged flags2 (flagBit UserFlag2.profileColor) readPeerColor
  -- bot_active_users, bot_verification_icon, send_paid_messages_stars
  let _ ← flagged flags2 (flagBit 12) (unset.flags2 12)
  let _ ← flagged flags2 (flagBit 14) (unset.flags2 14)
  let _ ← flagged flags2 (flagBit 15) (unset.flags2 15)
  let linkedCommunityId ← flagged flags2 (flagBit UserFlag2.linkedCommunity) long
  return {
    id, accessHash, firstName, lastName, username, phone, photo, status, botInfoVersion, restrictionReasons,
    emojiStatus, color, profileColor, linkedCommunityId
    self := HasFlag flags UserFlag.self
    contact := HasFlag flags UserFlag.contact
    mutualContact := HasFlag flags UserFlag.mutualContact
    deleted := HasFlag flags UserFlag.deleted
    bot := HasFlag flags UserFlag.bot
    verified := HasFlag flags UserFlag.verified
    restricted := HasFlag flags UserFlag.restricted
    support := HasFlag flags UserFlag.support
    scam := HasFlag flags UserFlag.scam
    fake := HasFlag flags UserFlag.fake
    premium := HasFlag flags UserFlag.premium
    closeFriend := HasFlag flags2 UserFlag2.closeFriend
    botBusiness := HasFlag flags2 UserFlag2.botBusiness }

/-- What two words of flags let a client see of a user. -/
def flaggedView (flags flags2 : UInt32) (u : User) : UserView where
  id := u.id
  self := HasFlag flags UserFlag.self
  contact := HasFlag flags UserFlag.contact
  mutualContact := HasFlag flags UserFlag.mutualContact
  deleted := HasFlag flags UserFlag.deleted
  bot := HasFlag flags UserFlag.bot
  verified := HasFlag flags UserFlag.verified
  restricted := HasFlag flags UserFlag.restricted
  support := HasFlag flags UserFlag.support
  scam := HasFlag flags UserFlag.scam
  fake := HasFlag flags UserFlag.fake
  premium := HasFlag flags UserFlag.premium
  closeFriend := HasFlag flags2 UserFlag2.closeFriend
  botBusiness := HasFlag flags2 UserFlag2.botBusiness
  accessHash := if HasFlag flags UserFlag.accessHash then some u.accessHash else none
  firstName := if HasFlag flags UserFlag.firstName then some u.firstName else none
  lastName := if HasFlag flags UserFlag.lastName then some u.lastName else none
  username := if HasFlag flags UserFlag.username then some u.username else none
  phone := if HasFlag flags UserFlag.phone then some u.phone else none
  photo := if HasFlag flags UserFlag.photo then some (photoView u) else none
  status := if HasFlag flags UserFlag.status then some (statusView u.status) else none
  botInfoVersion :=
    if HasFlag flags UserFlag.bot then some (if u.botInfoVersion > 0 then u.botInfoVersion else 1) else none
  restrictionReasons := if HasFlag flags UserFlag.restricted then some (validRestrictionReasons u) else none
  emojiStatus := if HasFlag flags UserFlag.emojiStatus then some (emojiStatusView u.emojiStatus) else none
  color := if HasFlag flags2 UserFlag2.color then some (colorView u.color) else none
  profileColor := if HasFlag flags2 UserFlag2.profileColor then some (colorView u.profileColor) else none
  linkedCommunityId := if HasFlag flags2 UserFlag2.linkedCommunity then some u.linkedCommunityId else none

/-- Every text of a user that is written can be, and so can the count of its restrictions. -/
structure UserFits (u : User) : Prop where
  firstName : FitsString u.firstName
  lastName : FitsString u.lastName
  username : FitsString u.username
  phone : FitsString u.phone
  photoStripped : FitsString u.photoStripped
  collectible : CollectibleFits u.emojiStatusCollectible
  reasons : ∀ r ∈ u.restrictionReasons, ReasonFits r
  reasonCount : FitsVector (validRestrictionReasons u).length

/-- The flags are ones that the fields of the user go with. -/
structure FlagsFit (flags flags2 : UInt32) (u : User) : Prop where
  emojiStatus : HasFlag flags UserFlag.emojiStatus → u.emojiStatus.valid ∧ ¬ u.emojiStatus.isEmpty
  color : HasFlag flags2 UserFlag2.color → ¬ u.color.isEmpty
  profileColor : HasFlag flags2 UserFlag2.profileColor → ¬ u.profileColor.isEmpty
  unset : ∀ k ∈ [19, 22], ¬ HasFlag flags k
  unset2 : ∀ k ∈ [0, 5, 12, 14, 15], ¬ HasFlag flags2 k

/-- **A user is read field by field,** each field exactly where its flag is set. -/
theorem parses_encodeUserFields (unset : UnsetFields) {flags flags2 : UInt32} {u : User} (h : FlagsFit flags flags2 u)
    (hu : UserFits u) :
    Parses (readUser unset)
      (putId userTypeId ++ (putUint32 flags ++ (putUint32 flags2 ++ (putLong u.id ++ encodeUserFields flags flags2 u))))
      (flaggedView flags flags2 u) := by
  have hreasons : ∀ r ∈ validRestrictionReasons u, Parses readRestrictionReason (encodeRestrictionReason r) (id r) :=
    fun r hr => parses_encodeRestrictionReason (hu.reasons r (List.mem_of_mem_filter hr))
  have hvector : Parses (getVector readRestrictionReason)
      (putVector encodeRestrictionReason (validRestrictionReasons u)) (validRestrictionReasons u) := by
    have hmap := parses_getVector hu.reasonCount hreasons
    rwa [List.map_id] at hmap
  -- Field by field in the order of the schema; what this server never sets is skipped by its flag.
  refine Parses.bind (consumeId_put _) ?_
  refine Parses.bind (uint32_put _) ?_
  refine Parses.bind (uint32_put _) ?_
  refine Parses.bind (long_put _) ?_
  refine Parses.bind (parses_flagged fun _ => long_put _) ?_
  refine Parses.bind (parses_flagged fun _ => getBytes_put hu.firstName) ?_
  refine Parses.bind (parses_flagged fun _ => getBytes_put hu.lastName) ?_
  refine Parses.bind (parses_flagged fun _ => getBytes_put hu.username) ?_
  refine Parses.bind (parses_flagged fun _ => getBytes_put hu.phone) ?_
  refine Parses.bind (parses_flagged fun _ => parses_encodeUserProfilePhoto hu.photoStripped) ?_
  refine Parses.bind (parses_flagged fun _ => parses_encodeUserStatus u.status) ?_
  refine Parses.bind (parses_flagged fun _ => int32_put _) ?_
  refine Parses.bind (parses_flagged fun _ => hvector) ?_
  refine Parses.bind_nil (parses_flagged_unset (h.unset 19 (by simp))) ?_
  refine Parses.bind_nil (parses_flagged_unset (h.unset 22 (by simp))) ?_
  refine Parses.bind (parses_flagged fun hset =>
    parses_encodeEmojiStatus (h.emojiStatus hset).1 (h.emojiStatus hset).2 hu.collectible) ?_
  refine Parses.bind_nil (parses_flagged_unset (h.unset2 0 (by simp))) ?_
  refine Parses.bind_nil (parses_flagged_unset (h.unset2 5 (by simp))) ?_
  refine Parses.bind (parses_flagged fun hset => parses_encodePeerColor (h.color hset)) ?_
  refine Parses.bind (parses_flagged fun hset => parses_encodePeerColor (h.profileColor hset)) ?_
  refine Parses.bind_nil (parses_flagged_unset (h.unset2 12 (by simp))) ?_
  refine Parses.bind_nil (parses_flagged_unset (h.unset2 14 (by simp))) ?_
  refine Parses.bind_nil (parses_flagged_unset (h.unset2 15 (by simp))) ?_
  exact Parses.map (parses_flagged fun _ => long_put u.linkedCommunityId)

/-! ## What a client is to see -/

/-- A text, where there is one. -/
def shownText (s : Bytes) : Option Bytes := if s ≠ [] then some s else none

/-- What a client is to see of a user: of a deleted one only the id, of a bot neither phone nor presence. -/
def userView (u : User) (isSelf : Bool) (now : Int) : UserView :=
  if u.deleted then { id := u.id, deleted := true }
  else
    { id := u.id
      self := isSelf
      contact := u.contact
      mutualContact := u.mutualContact
      bot := u.bot
      verified := u.verified
      restricted := validRestrictionReasons u ≠ []
      support := u.support
      scam := u.scam
      fake := u.fake
      premium := u.premiumActiveAt now
      closeFriend := u.closeFriend
      botBusiness := u.bot
      accessHash := if u.accessHash ≠ 0 then some u.accessHash else none
      firstName := shownText u.firstName
      lastName := shownText u.lastName
      username := shownText u.username
      phone := if u.bot then none else shownText u.phone
      photo := some (photoView u)
      status := if u.bot then none else some (statusView u.status)
      botInfoVersion := if u.bot then some (if u.botInfoVersion > 0 then u.botInfoVersion else 1) else none
      restrictionReasons := if validRestrictionReasons u ≠ [] then some (validRestrictionReasons u) else none
      emojiStatus := if u.emojiStatusActiveAt now then some (emojiStatusView u.emojiStatus) else none
      color := if u.color.isEmpty then none else some (colorView u.color)
      profileColor := if u.profileColor.isEmpty then none else some (colorView u.profileColor)
      linkedCommunityId := if u.linkedCommunityId ≠ 0 then some u.linkedCommunityId else none }

/-- An emoji status that is active is one that can be written. -/
theorem emojiStatus_of_active {u : User} {now : Int} (h : u.emojiStatusActiveAt now = true) :
    u.emojiStatus.valid ∧ ¬ u.emojiStatus.isEmpty := by
  unfold User.emojiStatusActiveAt at h
  split at h
  · cases h
  · next hactive =>
    simp only [Bool.or_eq_true, Bool.not_eq_true', decide_eq_true_eq, not_or] at hactive
    obtain ⟨⟨-, hvalid⟩, hdocument⟩ := hactive
    refine ⟨by simpa using hvalid, fun hempty => ?_⟩
    simp only [UserEmojiStatus.isEmpty, Bool.and_eq_true, decide_eq_true_eq] at hempty
    exact hdocument hempty.1

theorem flagsFit_userFlags (u : User) (isSelf : Bool) (now : Int) :
    FlagsFit (userFlags u isSelf now) (userFlags2 u) u where
  emojiStatus h := by
    have hactive : u.emojiStatusActiveAt now = true := by simpa +decide [userFlags, hasFlag_flagWord] using h
    exact emojiStatus_of_active hactive
  color h := by simpa +decide [userFlags2, hasFlag_flagWord] using h
  profileColor h := by simpa +decide [userFlags2, hasFlag_flagWord] using h
  unset := by simp +decide [userFlags, hasFlag_flagWord]
  unset2 := by simp +decide [userFlags2, hasFlag_flagWord]

/-- The flags let a client see what it is meant to. -/
theorem flaggedView_userFlags {u : User} (h : u.deleted = false) (isSelf : Bool) (now : Int) :
    flaggedView (userFlags u isSelf now) (userFlags2 u) u = userView u isSelf now := by
  unfold flaggedView userView shownText
  rw [h]
  simp +decide only [userFlags, userFlags2, hasFlag_flagWord]
  cases u.bot <;> cases u.color.isEmpty <;> cases u.profileColor.isEmpty <;> simp +decide

/-- Of a deleted user there is nothing behind the id. -/
theorem encodeUserFields_deleted (u : User) : encodeUserFields (flagBit UserFlag.deleted) 0 u = [] := by
  simp +decide [encodeUserFields, putFlagged]

theorem flagsFit_deleted (u : User) : FlagsFit (flagBit UserFlag.deleted) 0 u where
  emojiStatus h := by simp +decide at h
  color h := by simp at h
  profileColor h := by simp at h
  unset := by simp +decide
  unset2 := by simp

theorem flaggedView_deleted {u : User} (h : u.deleted = true) (isSelf : Bool) (now : Int) :
    flaggedView (flagBit UserFlag.deleted) 0 u = userView u isSelf now := by
  unfold flaggedView userView
  rw [h]
  simp +decide

theorem parses_encodeUser (unset : UnsetFields) {u : User} (hu : UserFits u) (isSelf : Bool) (now : Int) :
    Parses (readUser unset) (encodeUser u isSelf now) (userView u isSelf now) := by
  unfold encodeUser
  by_cases hdeleted : u.deleted
  · rw [if_pos hdeleted, ← flaggedView_deleted hdeleted isSelf now]
    have h := parses_encodeUserFields unset (flagsFit_deleted u) hu
    rwa [encodeUserFields_deleted, List.append_nil] at h
  · rw [if_neg hdeleted, ← flaggedView_userFlags (Bool.not_eq_true _ ▸ hdeleted) isSelf now]
    exact parses_encodeUserFields unset (flagsFit_userFlags u isSelf now) hu

/-- A bot is told apart by its version, which is never 0. -/
theorem one_le_botInfoVersion {u : User} {isSelf : Bool} {now : Int} {v : Int32}
    (h : (userView u isSelf now).botInfoVersion = some v) : 1 ≤ v := by
  unfold userView at h
  split at h
  · cases h
  · dsimp only at h
    split at h
    · split at h
      · next hpos =>
        cases h
        rw [gt_iff_lt, Int32.lt_iff_toInt_lt] at hpos
        rw [Int32.le_iff_toInt_le]
        exact hpos
      · cases h
        decide
    · cases h

end ShuzaGram.Mtproto.Messages

namespace ShuzaGram.Server

open Infra Domain Mtproto Mtproto.Messages Users

/-- A client reads the answer of `users.getUsers`. -/
def readUsers (unset : UnsetFields) : Get (List UserView) := getVector (readUser unset)

/-- **The answer of `users.getUsers` parses back:** a client finds every user, whole and in its place, and no
byte is left. -/
theorem readUsers_encode (unset : UnsetFields) (ctx : RpcContext) (now : Int) (list : List ResolvedUser)
    (hcount : FitsVector list.length) (hfits : ∀ r ∈ list, UserFits r.user) :
    readUsers unset (AccountMethod.getUsers.encode encodeUser ctx now (.users list)) =
        .ok (list.map fun r => userView r.user r.self now) [] ∧
      ∀ r ∈ list, ∀ v, (userView r.user r.self now).botInfoVersion = some v → 1 ≤ v := by
  refine ⟨?_, fun r _ v => one_le_botInfoVersion⟩
  have hparses := parses_getVector hcount fun r hr => parses_encodeUser unset (hfits r hr) r.self now
  exact hparses.whole

/-- An account with nothing but an id and a name. -/
def sampleUser : User := { id := 1780243201, accessHash := 77, firstName := ascii "Ann", phone := ascii "15551234567" }

theorem userFits_sampleUser : UserFits sampleUser where
  firstName := by decide
  lastName := by decide
  username := by decide
  phone := by decide
  photoStripped := by decide
  collectible := ⟨by decide, by decide⟩
  reasons := by simp [sampleUser]
  reasonCount := by decide

/-- A gift worn as an emoji status. -/
def sampleGift : EmojiStatusCollectible where
  collectibleId := 5
  documentId := 90
  title := ascii "Star"
  slug := ascii "star-5"
  patternDocumentId := 91
  centerColor := 0xffcc00
  edgeColor := 0x332200

/-- A premium account with all that a profile can show; its second restriction has no text, and is not shown. -/
def premiumUser : User :=
  { sampleUser with
    id := 1780243202
    lastName := ascii "Lee"
    username := ascii "annlee"
    contact := true
    restrictionReasons :=
      [{ platform := ascii "ios", reason := ascii "terms", text := ascii "Not shown here." },
        { platform := ascii "all", reason := ascii "terms", text := [] }]
    premiumUntil := 2000
    emojiStatusDocumentId := 90
    emojiStatusUntil := 1500
    emojiStatusCollectible := sampleGift
    linkedCommunityId := 12
    color := { hasColor := true, color := 3 }
    profileColor := { backgroundEmojiId := 44 }
    photoId := 8
    photoDcId := 2
    photoStripped := [1, 2, 3]
    photoHasVideo := true
    status := { kind := .offline, wasOnline := 900 } }

/-- A bot that states no version. -/
def sampleBot : User := { sampleUser with id := 1780243203, bot := true }

def deletedUser : User := { premiumUser with id := 1780243204, deleted := true }

theorem userFits_premiumUser : UserFits premiumUser where
  firstName := by decide
  lastName := by decide
  username := by decide
  phone := by decide
  photoStripped := by decide
  collectible := ⟨by decide, by decide⟩
  reasons := by
    intro r hr
    simp only [premiumUser, List.mem_cons, List.not_mem_nil, or_false] at hr
    rcases hr with rfl | rfl
    · exact ⟨by decide, by decide, by decide⟩
    · exact ⟨by decide, by decide, by decide⟩
  reasonCount := by decide

theorem userFits_sampleBot : UserFits sampleBot := { userFits_sampleUser with }

theorem userFits_deletedUser : UserFits deletedUser := { userFits_premiumUser with }

def sampleContext : RpcContext := { authKeyId := Arr.zero 8, sessionId := 1 }

def skipNothing : UnsetFields := { flags := fun _ => pure (), flags2 := fun _ => pure () }

/-- Four users in one answer, each with its own fields: the premium one shows its gift, the bot a version, the
deleted one nothing. -/
theorem readUsers_encode_sampleUsers :
    readUsers skipNothing (AccountMethod.getUsers.encode encodeUser sampleContext 1000
        (.users [{ user := sampleUser, self := true }, { user := premiumUser, self := false },
          { user := sampleBot, self := false }, { user := deletedUser, self := false }])) =
      .ok [userView sampleUser true 1000, userView premiumUser false 1000, userView sampleBot false 1000,
        { id := 1780243204, deleted := true }] [] ∧
      (userView premiumUser false 1000).emojiStatus = some (.collectible sampleGift (some 1500)) ∧
      (userView sampleBot false 1000).botInfoVersion = some 1 := by
  refine ⟨?_, by decide, by decide⟩
  refine (readUsers_encode skipNothing sampleContext 1000 _ (by decide) ?_).1
  intro r hr
  simp only [List.mem_cons, List.not_mem_nil, or_false] at hr
  rcases hr with rfl | rfl | rfl | rfl
  · exact userFits_sampleUser
  · exact userFits_premiumUser
  · exact userFits_sampleBot
  · exact userFits_deletedUser

/-- The count of `2 ^ 31` users is written as a negative one, and a client reads no user at all. -/
theorem readUsers_of_length (unset : UnsetFields) (ctx : RpcContext) (now : Int) {list : List ResolvedUser}
    (h : list.length = 2 ^ 31) :
    ∃ rest, readUsers unset (AccountMethod.getUsers.encode encodeUser ctx now (.users list)) = .ok [] rest := by
  refine ⟨list.flatMap fun r => encodeUser r.user r.self now, ?_⟩
  have hcount : (Int32.ofNat list.length).toInt.toNat = 0 := by
    rw [h]
    decide
  show getVector (readUser unset) (putVectorHeader list.length ++ _) = _
  rw [getVector, vectorHeader_bind_put, hcount]
  rfl

/-- A vector of too many users does not parse back. -/
theorem readUsers_encode_replicate :
    ¬ ∀ list : List ResolvedUser, (∀ r ∈ list, UserFits r.user) →
      readUsers skipNothing (AccountMethod.getUsers.encode encodeUser sampleContext 1000 (.users list)) =
        .ok (list.map fun r => userView r.user r.self 1000) [] := by
  intro hall
  have hlen : (List.replicate (2 ^ 31) ({ user := sampleUser, self := true } : ResolvedUser)).length = 2 ^ 31 :=
    List.length_replicate
  have hfits : ∀ r ∈ List.replicate (2 ^ 31) ({ user := sampleUser, self := true } : ResolvedUser),
      UserFits r.user := by
    intro r hr
    rw [List.eq_of_mem_replicate hr]
    exact userFits_sampleUser
  generalize List.replicate (2 ^ 31) ({ user := sampleUser, self := true } : ResolvedUser) = list at hlen hfits
  obtain ⟨rest, hread⟩ := readUsers_of_length skipNothing sampleContext 1000 hlen
  have hmap := (hall list hfits).symm.trans hread
  injection hmap with hnil _
  rw [List.map_eq_nil_iff] at hnil
  rw [hnil] at hlen
  exact absurd hlen (by decide)

end ShuzaGram.Server

import ShuzaGram.Auth.CheckPassword
import ShuzaGram.Mtproto.Messages.Account

/-!
# Accounts as their owners see and change them

`users/get_users.cpp`, `users/update_profile.cpp`, `users/username.cpp`, `users/update_birthday.cpp`
and `account/update_status.cpp`.
-/

namespace ShuzaGram.Users

open Infra Domain Store Auth
open StoreProg
open Mtproto.Messages (InputUser)

/-! ## Looking accounts up -/

/-- `ResolvedUser`. -/
structure ResolvedUser where
  user : User
  self : Bool
deriving DecidableEq

/-- The inputs that `ResolveGetUsers` keeps. -/
def keptInputs (authorized : Bool) (inputs : List InputUser) : List InputUser :=
  inputs.filter fun
    | .empty => false
    | .self => authorized
    | .byId userId _ => authorized && userId ≠ 0

/-- The ids asked for, each once, in the order of their first mention. -/
def uniqueIds (inputs : List InputUser) : List Int64 :=
  inputs.foldl (fun ids input =>
    match input with
    | .byId userId _ => if ids.contains userId then ids else ids ++ [userId]
    | _ => ids) []

/-- What one input gives, from the caller's own account and the accounts by id. -/
def resolveInput (currentUserId : Int64) (selfUser : Option User) (found : List User) :
    InputUser → Option ResolvedUser
  | .empty => none
  | .self => selfUser.map fun user => { user, self := true }
  | .byId userId accessHash =>
    match found.find? fun u => u.id ≠ 0 && u.id = userId with
    | none => none
    | some user =>
      if accessHash ≠ 0 ∧ accessHash ≠ user.accessHash then none
      else some { user, self := user.id = currentUserId }

/-- `ResolveGetUsers`. -/
def resolveGetUsers (authKeyId : Arr 8) (inputs : List InputUser) : StoreProg (List ResolvedUser) := do
  let current ← resolveCurrentUser authKeyId
  let kept := keptInputs current.authorized inputs
  let selfUser ← if kept.contains .self then usersById current.userId else pure none
  let ids := uniqueIds kept
  let found ← if ids ≠ [] then usersByIds ids else pure []
  return kept.filterMap (resolveInput current.userId selfUser found)

/-! ## Profiles -/

/-- `Utf8RuneCount`: the bytes that do not continue a character. -/
def utf8RuneCount (s : Bytes) : Nat := s.countP fun c => c &&& 0xC0 ≠ 0x80

def maxProfileNameRunes : Nat := 64
def maxProfileAboutRunes : Nat := 70
def maxProfileAboutRunesPremium : Nat := 140

/-- `UpdateProfile`. -/
def updateProfile (userId : Int64) (update : UserProfileUpdate) (now : Int) : StoreProg User := do
  match ← usersById userId with
  | none => throw .userNotFound
  | some self =>
    let firstName := (update.firstName.map trimAsciiSpace).getD self.firstName
    let lastName := (update.lastName.map trimAsciiSpace).getD self.lastName
    let about := (update.about.map trimAsciiSpace).getD self.about
    if firstName = [] ∨ utf8RuneCount firstName > maxProfileNameRunes ∨
        utf8RuneCount lastName > maxProfileNameRunes then
      throw .firstNameInvalid
    let aboutLimit := if self.premiumActiveAt now then maxProfileAboutRunesPremium else maxProfileAboutRunes
    if utf8RuneCount about > aboutLimit then throw .aboutTooLong
    if firstName = self.firstName ∧ lastName = self.lastName ∧ about = self.about then return self
    usersUpdateProfile userId firstName lastName about

/-! ## User names -/

def minUsernameLen : Nat := 5
def maxUsernameLen : Nat := 32

/-- `LoadSelf`. -/
def loadSelf (userId : Int64) : StoreProg User := do
  if userId = 0 then throw .userNotFound
  match ← usersById userId with
  | none => throw .userNotFound
  | some self => return self

/-- `NormalizeUsername`. -/
def normalizeUsername (username : Bytes) : Bytes :=
  let s := trimAsciiSpace username
  let s := if s.head? = some 64 then s.drop 1 else s
  trimAsciiSpace s

def isLetter (c : UInt8) : Bool := (97 ≤ c && c ≤ 122) || (65 ≤ c && c ≤ 90)

/-- `ValidUsername`: letters, and after the first character also digits and `_` (95). -/
def validUsername (username : Bytes) : Bool :=
  minUsernameLen ≤ username.length && username.length ≤ maxUsernameLen &&
    (username.take 1).all isLetter &&
    (username.drop 1).all fun c => isLetter c || isDigit c || c = 95

/-- `CheckUsernameAvailable`. -/
def checkUsernameAvailable (selfId : Int64) (username : Bytes) : StoreProg Bool := do
  match ← usersByUsername username with
  | none => return true
  | some existing => return existing.id = selfId

/-- `CheckUsername`. -/
def checkUsername (userId : Int64) (username : Bytes) : StoreProg Bool := do
  let self ← loadSelf userId
  let normalized := normalizeUsername username
  if !validUsername normalized then throw .usernameInvalid
  checkUsernameAvailable self.id normalized

/-- The checks that `UpdateUsername` makes of a name that is not empty. -/
def checkNewUsername (selfId : Int64) (normalized : Bytes) : StoreProg Unit := do
  if !validUsername normalized then throw .usernameInvalid
  let available ← checkUsernameAvailable selfId normalized
  if !available then throw .usernameOccupied

/-- `UpdateUsername`. -/
def updateUsername (userId : Int64) (username : Bytes) : StoreProg User := do
  let self ← loadSelf userId
  let normalized := normalizeUsername username
  if normalized ≠ [] then checkNewUsername self.id normalized
  if self.username = normalized then return self
  usersUpdateUsername self.id normalized

/-! ## The rest -/

/-- `UpdateBirthday`. -/
def updateBirthday (userId : Int64) (birthday : Birthday) : StoreProg User := do
  match ← usersById userId with
  | none => throw .userNotFound
  | some self =>
    if birthday.isSet then
      if !validBirthday birthday then throw .birthdayInvalid
      usersUpdateBirthday self.id birthday
    else usersUpdateBirthday self.id Birthday.zero

/-- `UpdateStatus` of `account/update_status.cpp`. -/
def updateStatus (authKeyId : Arr 8) (now : Int) : StoreProg Unit := do
  let current ← resolveCurrentUser authKeyId
  if !current.authorized ∨ current.userId = 0 then return ()
  usersUpdateLastSeen current.userId now

end ShuzaGram.Users

import ShuzaGram.Domain.Types
import ShuzaGram.Mtproto.Messages.Invoke

/-!
# Requests about accounts

The requests of `messages/account.hpp` and `messages/users.hpp`, with the Booleans of
`messages/bool.hpp`, as they are read from the wire, and the Booleans and the authorizations that are
written to it.
-/

namespace ShuzaGram.Mtproto.Messages

open Infra Domain

def usersGetUsersTypeId : UInt32 := 0x0d91a548
def accountUpdateStatusTypeId : UInt32 := 0x6628562c
def accountGetAuthorizationsTypeId : UInt32 := 0xe320c158
def accountUpdateProfileTypeId : UInt32 := 0x78515775
def accountCheckUsernameTypeId : UInt32 := 0x2714d86c
def accountUpdateUsernameTypeId : UInt32 := 0x3e0bdd7c
def accountUpdateBirthdayTypeId : UInt32 := 0xcc6e0c11

def boolFalseTypeId : UInt32 := 0xbc799737
def boolTrueTypeId : UInt32 := 0x997275b5

def decodeBool : Get Bool := do
  let id ← peekId
  if id = boolTrueTypeId then do
    consumeId id
    return true
  else if id = boolFalseTypeId then do
    consumeId id
    return false
  else throw (.unexpectedId id)

/-! ## `messages/users.hpp` -/

/-- `InputUser`; the kind `SelfUser` is `self`. -/
inductive InputUser where
  | empty
  | self
  | byId (userId accessHash : Int64)
deriving DecidableEq

def inputUserEmptyTypeId : UInt32 := 0xb98886cf
def inputUserSelfTypeId : UInt32 := 0xf7c1b13f
def inputUserTypeId : UInt32 := 0xf21158c6
def inputUserFromMessageTypeId : UInt32 := 0x1da448e2

def InputUser.decode : Get InputUser := do
  let id ← peekId
  if id = inputUserEmptyTypeId then do
    consumeId id
    return .empty
  else if id = inputUserSelfTypeId then do
    consumeId id
    return .self
  else if id = inputUserTypeId then do
    consumeId id
    let userId ← long
    let accessHash ← long
    return .byId userId accessHash
  else if id = inputUserFromMessageTypeId then throw (.notImplemented "inputUserFromMessage")
  else throw (.unexpectedId id)

/-- `UsersGetUsersRequest::DecodeBare`. A negative count is an enormous `reserve`, which throws. -/
def UsersGetUsersRequest.decodeBare : Get (List InputUser) := do
  let count ← vectorHeader
  if count < 0 then throw .lengthError
  getTimes InputUser.decode count.toInt.toNat

/-! ## `messages/account.hpp` -/

/-- A field that stands in the buffer only if its flag is set. -/
def flagged {α : Type} (flags bit : UInt32) (x : Get α) : Get (Option α) := do
  if flags &&& bit ≠ 0 then do
    let a ← x
    return some a
  else return none

/-- `AccountUpdateProfileRequest::DecodeBare`; a field that is absent is left unchanged later. -/
def AccountUpdateProfileRequest.decodeBare : Get UserProfileUpdate := do
  let flags ← uint32
  let firstName ← flagged flags 1 getBytes
  let lastName ← flagged flags 2 getBytes
  let about ← flagged flags 4 getBytes
  return { firstName, lastName, about }

/-- `DecodeBirthday`. -/
def decodeBirthday : Get Birthday := do
  let flags ← uint32
  let day ← int32
  let month ← int32
  let year ← flagged flags 1 int32
  return { day := day.toInt, month := month.toInt, year := (year.map Int32.toInt).getD 0 }

/-- `AccountUpdateBirthdayRequest::DecodeBare`; an absent birthday is the zero one. -/
def AccountUpdateBirthdayRequest.decodeBare : Get Birthday := do
  let flags ← uint32
  let birthday ← flagged flags 1 decodeBirthday
  return birthday.getD Birthday.zero

/-! ## What is written -/

/-- `EncodeBool`. -/
def encodeBool (value : Bool) : Bytes := putId (if value then boolTrueTypeId else boolFalseTypeId)

def authorizationTypeId : UInt32 := 0xad01d61d
def accountAuthorizationsTypeId : UInt32 := 0x4bff8ea0

/-- `EncodeAuthorization`; a time that was never set is not written as 1970. -/
def encodeAuthorization (a : Authorization) (current : Bool) (now : Int) : Bytes :=
  let flags : UInt32 := (if current then 1 else 0) ||| 2
  let created := if a.createdAt = 0 then now else a.createdAt
  let active := if a.activeAt = 0 then created else a.activeAt
  putId authorizationTypeId ++ putUint32 flags ++ putLong a.hash ++ putBytes a.deviceModel ++
    putBytes a.platform ++ putBytes a.systemVersion ++ putInt32 (Int32.ofInt a.apiId) ++ putBytes [] ++
    putBytes a.appVersion ++ putInt32 (Int32.ofInt created) ++ putInt32 (Int32.ofInt active) ++ putBytes a.ip ++
    putBytes (ascii "Unknown") ++ putBytes (ascii "Unknown")

/-- `EncodeAccountAuthorizations`. -/
def encodeAccountAuthorizations (list : List Authorization) (currentAuthKeyId : Arr 8) (now : Int) : Bytes :=
  putId accountAuthorizationsTypeId ++ putInt32 0 ++ putVectorHeader list.length ++
    list.flatMap fun a => encodeAuthorization a (a.authKeyId = currentAuthKeyId) now

end ShuzaGram.Mtproto.Messages

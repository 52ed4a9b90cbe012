import ShuzaGram.Mtproto.Messages.Invoke
import ShuzaGram.Mtproto.Messages.Users

/-!
# Requests of a login

The requests of `messages/auth.hpp` and `messages/password.hpp` as they are read from the wire, behind
the constructor id of the method, and the answers to them as they are written.
-/

namespace ShuzaGram.Mtproto.Messages

open Infra Domain

def authSendCodeTypeId : UInt32 := 0xa677244f
def authSignInTypeId : UInt32 := 0x8d52a951
def authSignUpTypeId : UInt32 := 0xaac7b717
def accountGetPasswordTypeId : UInt32 := 0x548a30f5
def authCheckPasswordTypeId : UInt32 := 0xd18b4d16

/-- A count as `size_t`: a negative one becomes enormous. -/
def sizeT (count : Int32) : Nat := (count.toInt % 2 ^ 64).toNat

def skipBytes : Get Unit := do let _ ← getBytes

/-- `CodeSettings::DecodeBare`; nothing of it is kept. -/
def CodeSettings.decodeBare : Get Unit := do
  let flags ← uint32
  if flags &&& 64 ≠ 0 then do
    let count ← vectorHeader
    skipTimes skipBytes (sizeT count)
  if flags &&& 256 ≠ 0 then do
    skipBytes
    let _ ← consumeN 4

structure AuthSendCodeRequest where
  phoneNumber : Bytes
  apiId : Int32
  apiHash : Bytes
deriving DecidableEq

def AuthSendCodeRequest.decodeBare : Get AuthSendCodeRequest := do
  let phoneNumber ← getBytes
  let apiId ← int32
  let apiHash ← getBytes
  CodeSettings.decodeBare
  return { phoneNumber, apiId, apiHash }

structure AuthSignInRequest where
  phoneNumber : Bytes
  phoneCodeHash : Bytes
  phoneCode : Bytes := []
deriving DecidableEq

/-- A login by e-mail is refused after the other fields were read. -/
def AuthSignInRequest.decodeBare : Get AuthSignInRequest := do
  let flags ← uint32
  let phoneNumber ← getBytes
  let phoneCodeHash ← getBytes
  let phoneCode ← if flags &&& 1 ≠ 0 then getBytes else pure []
  if flags &&& 2 ≠ 0 then throw (.notImplemented "auth.signIn with email_verification")
  return { phoneNumber, phoneCodeHash, phoneCode }

structure AuthSignUpRequest where
  phoneNumber : Bytes
  phoneCodeHash : Bytes
  firstName : Bytes
  lastName : Bytes
deriving DecidableEq

def AuthSignUpRequest.decodeBare : Get AuthSignUpRequest := do
  let _ ← uint32
  let phoneNumber ← getBytes
  let phoneCodeHash ← getBytes
  let firstName ← getBytes
  let lastName ← getBytes
  return { phoneNumber, phoneCodeHash, firstName, lastName }

def inputCheckPasswordEmptyTypeId : UInt32 := 0x9880f658
def inputCheckPasswordSrpTypeId : UInt32 := 0xd27ff082

/-- `AuthCheckPasswordRequest::DecodeBare`. -/
def AuthCheckPasswordRequest.decodeBare : Get PasswordCheck := do
  let id ← peekId
  if id = inputCheckPasswordEmptyTypeId then do
    consumeId id
    return { empty := true }
  else do
    consumeId inputCheckPasswordSrpTypeId
    let srpId ← long
    let a ← getBytes
    let m1 ← getBytes
    return { srpId, a, m1 }

/-! ## What is written -/

def authSentCodeTypeAppTypeId : UInt32 := 0x3dbb5986
def authSentCodeTypeId : UInt32 := 0x5e002502
def authAuthorizationSignUpRequiredTypeId : UInt32 := 0x44747e9a
def authAuthorizationTypeId : UInt32 := 0x2ea2c0d4

/-- `AuthSentCodeTypeApp::Encode`. -/
def AuthSentCodeTypeApp.encode (length : Int32) : Bytes := putId authSentCodeTypeAppTypeId ++ putInt32 length

/-- `AuthSentCode::Encode`; none of its flags is set. -/
def AuthSentCode.encode (codeLength : Int32) (phoneCodeHash : Bytes) : Bytes :=
  putId authSentCodeTypeId ++ (putUint32 0 ++ (AuthSentCodeTypeApp.encode codeLength ++ putBytes phoneCodeHash))

/-- `AuthAuthorizationSignUpRequired::Encode`. -/
def AuthAuthorizationSignUpRequired.encode : Bytes := putId authAuthorizationSignUpRequiredTypeId ++ putUint32 0

/-- The flags of `MinimalSelfUser::Encode`. -/
def MinimalSelfUser.flags (user : User) : UInt32 :=
  flagWord
    [(true, UserFlag.self), (true, UserFlag.accessHash), (user.firstName ≠ [], UserFlag.firstName),
      (user.lastName ≠ [], UserFlag.lastName), (user.phone ≠ [], UserFlag.phone)]

/-- `MinimalSelfUser::Encode`: what a client needs to show the account that has just logged in. -/
def MinimalSelfUser.encode (user : User) : Bytes :=
  let flags := MinimalSelfUser.flags user
  putId userTypeId ++ (putUint32 flags ++ (putUint32 0 ++ (putLong user.id ++ (putLong user.accessHash ++
    (putFlagged flags UserFlag.firstName (putBytes user.firstName) ++
      (putFlagged flags UserFlag.lastName (putBytes user.lastName) ++
        putFlagged flags UserFlag.phone (putBytes user.phone)))))))

/-- `AuthAuthorization::Encode`. -/
def AuthAuthorization.encode (user : User) : Bytes :=
  putId authAuthorizationTypeId ++ (putUint32 0 ++ MinimalSelfUser.encode user)

def passwordKdfAlgoModPowTypeId : UInt32 := 0x3a912d4a
def passwordKdfAlgoUnknownTypeId : UInt32 := 0xd45ab096
def securePasswordKdfAlgoUnknownTypeId : UInt32 := 0x004a8537
def accountPasswordTypeId : UInt32 := 0x957b50fb

/-- `EncodePasswordAlgo`; without a modulus there is no algorithm. -/
def encodePasswordAlgo (algo : PasswordAlgo) : Bytes :=
  if algo.p = [] then putId passwordKdfAlgoUnknownTypeId
  else
    putId passwordKdfAlgoModPowTypeId ++ (putBytes algo.salt1 ++ (putBytes algo.salt2 ++
      (putInt32 (Int32.ofInt algo.g) ++ putBytes algo.p)))

/-- `EncodeSecurePasswordAlgoUnknown`. -/
def encodeSecurePasswordAlgoUnknown : Bytes := putId securePasswordKdfAlgoUnknownTypeId

/-- The flags of `AccountPassword::Encode`. -/
def AccountPassword.flags (settings : PasswordSettings) : UInt32 :=
  flagWord
    [(settings.hasRecovery, 0), (settings.hasSecureValues, 1), (settings.hasPassword, 2), (settings.hint ≠ [], 3)]

/-- `AccountPassword::Encode`. -/
def AccountPassword.encode (settings : PasswordSettings) : Bytes :=
  putId accountPasswordTypeId ++ (putUint32 (AccountPassword.flags settings) ++
    ((if settings.hasPassword then
        encodePasswordAlgo (settings.currentAlgo.getD settings.newAlgo) ++ (putBytes settings.srpB ++
          putLong settings.srpId)
      else []) ++
    ((if settings.hint ≠ [] then putBytes settings.hint else []) ++
    (encodePasswordAlgo settings.newAlgo ++ (encodeSecurePasswordAlgoUnknown ++ putBytes settings.secureRandom)))))

end ShuzaGram.Mtproto.Messages

import ShuzaGram.Domain.Phone
import ShuzaGram.OtpDelivery.Signature
import ShuzaGram.Store.Calls

/-!
# Logging in

`auth/sign_in.cpp`: sending a code, signing in with it, and signing up where the phone has no account
yet. What a function draws from the random source and reads from the clock is an argument of it.
-/

namespace ShuzaGram.Auth

open Infra Domain Store
open StoreProg

variable (lib : PhoneLibrary)

/-! ## Sending a code -/

/-- `RandomHex` on the bytes it drew. -/
def randomHex (bytes : Bytes) : Bytes := OtpDelivery.hexEncode bytes

/-- `RandomDigits` on the stream it draws from. -/
def randomDigits (n : Int) (bytes : Nat → UInt8) : Bytes :=
  let len := if n > 0 then n.toNat else 6
  (List.range len).map fun i => 48 + bytes i % 10

/-- `CurrentPhoneOwnerId`: 0 if nobody owns the phone. -/
def currentPhoneOwnerId (phone : Bytes) : StoreProg Int64 := do
  let owner ← usersByPhone phone
  match owner with
  | some u => return u.id
  | none => return 0

/-- What `SendCode` draws and reads. -/
structure SendCodeDraw where
  hash : Arr 8
  digits : Nat → UInt8
  deliveryId : Arr 16
  now : Int

/-- The codes are delivered, with this many digits. -/
structure OtpSender where
  codeLength : Int

/-- The delivery in `SendCode`. -/
def deliverOrRollBack (hash : Bytes) (request : DeliveryRequest) : StoreProg Unit :=
  try
    otpDeliver request
  catch
    | .deliveryFailed reason => do
      -- a code that nobody received must not stay usable
      codesDel hash
      throw (.deliveryFailed reason)
    | e => throw e

/-- `SendCode`; `sender` is none without a webhook. -/
def sendCode (phoneNumber fixedCode : Bytes) (sender : Option OtpSender) (codeTtl : Int)
    (draw : SendCodeDraw) : StoreProg Bytes := do
  let phone := normalizePhone lib phoneNumber
  if !validPhone lib phone then throw .phoneNumberInvalid
  let hash := randomHex draw.hash.toList
  let issuedUserId ← currentPhoneOwnerId phone
  let code :=
    match sender with
    | some otp => randomDigits otp.codeLength draw.digits
    | none => fixedCode
  codesSet hash { issuedUserId, phone, code }
  if sender.isSome then
    let request : DeliveryRequest :=
      { deliveryId := OtpDelivery.newDeliveryId draw.deliveryId
        purpose := ascii "login_sms"
        channel := ascii "sms"
        recipient := phone
        code
        expiresAt := draw.now + codeTtl }
    deliverOrRollBack hash request
  return hash

/-! ## Signing in -/

def defaultMaxAttempts : Int := 5

/-- The end of `VerifyLoginCode`, after the code was compared: the phone must still have the owner it
had before, and the account is read again. -/
def finishLoginCode (phone hash : Bytes) (beforeOwner : Int64) (result : LoginCodeVerifyResult) :
    StoreProg (Option User) := do
  let afterOwner ← currentPhoneOwnerId phone
  if beforeOwner ≠ afterOwner then
    codesDel hash
    throw .codeInvalid
  match result with
  | .missing => throw .codeExpired
  | .invalid => throw .codeInvalid
  | .accepted _ =>
    if afterOwner = 0 then return none
    usersByPhone phone

/-- `VerifyLoginCode`: the account that the code logs in to, or none where it has still to be made. -/
def verifyLoginCode (phone hash code : Bytes) : StoreProg (Option User) := do
  match ← codesGet hash with
  | none => throw .codeExpired
  | some rec =>
    if rec.phone ≠ phone then throw .codeInvalid
    let beforeOwner ← currentPhoneOwnerId phone
    if rec.issuedUserId ≠ beforeOwner then
      codesDel hash
      throw .codeInvalid
    if rec.signUpVerified then
      -- an earlier call accepted the code, and the sign-up still needs the record
      if beforeOwner ≠ 0 ∨ rec.code ≠ code then throw .codeInvalid
      return none
    let keepForSignUp := beforeOwner == 0
    let result ← codesVerifyLogin hash phone code keepForSignUp defaultMaxAttempts
    finishLoginCode phone hash beforeOwner result

structure SignInResult where
  needSignUp : Bool
  user : User
deriving DecidableEq

/-- Whether the login has to wait for the password; never so without a password store. -/
def passwordNeeded (userId : Int64) (passwords : Bool) : StoreProg Bool := do
  if !passwords then return false
  match ← passwordsGetByUser userId with
  | some settings => return settings.hasPassword
  | none => return false

/-- `SignIn`; `passwords` is whether there is a password store. -/
def signIn (authTemplate : Authorization) (phoneNumber hash code : Bytes) (passwords : Bool) :
    StoreProg SignInResult := do
  let phone := normalizePhone lib phoneNumber
  match ← verifyLoginCode phone hash code with
  | none => return { needSignUp := true, user := {} }
  | some user =>
    let needed ← passwordNeeded user.id passwords
    authorizationsBind { authTemplate with userId := user.id, passwordPending := needed }
    if needed then throw .sessionPasswordNeeded
    return { needSignUp := false, user }

/-! ## Signing up -/

/-- The end of `SignUp`: the account is created and logged in to. -/
def finishSignUp (authTemplate : Authorization) (draft : User) : StoreProg User := do
  let created ← usersCreate draft
  authorizationsBind { authTemplate with userId := created.id }
  return created

/-- `SignUp`; the access hash comes from the random source. -/
def signUp (authTemplate : Authorization) (phoneNumber hash firstName lastName : Bytes)
    (accessHash : Int64) : StoreProg User := do
  let phone := normalizePhone lib phoneNumber
  if !validPhone lib phone then throw .phoneNumberInvalid
  if firstName = [] then throw .firstNameInvalid
  match ← codesGet hash with
  | none => throw .codeExpired
  | some rec =>
    if rec.phone ≠ phone ∨ !rec.signUpVerified ∨ rec.issuedUserId ≠ 0 then throw .codeInvalid
    if (← currentPhoneOwnerId phone) ≠ 0 then
      codesDel hash
      throw .codeInvalid
    match ← codesConsumeSignUpVerified hash phone with
    | none => throw .codeExpired
    | some consumed =>
      if consumed.issuedUserId ≠ 0 ∨ !consumed.signUpVerified then throw .codeInvalid
      if (← currentPhoneOwnerId phone) ≠ 0 then throw .codeInvalid
      finishSignUp authTemplate { phone, firstName, lastName, accessHash }

end ShuzaGram.Auth

import ShuzaGram.Infra.Prog
import ShuzaGram.Store.AuthorizationStore
import ShuzaGram.Store.PasswordStore
import ShuzaGram.Store.UserStore

/-!
# Calls of the stores

The functions of the server reach the stores through their interfaces only, so they are programs
over the calls of those interfaces. Every call is one step: the code store holds its mutex, and a
database call is one transaction.
-/

namespace ShuzaGram.Store

open Infra Domain Mtproto.Crypto

/-- `otpdelivery::Request`. -/
structure DeliveryRequest where
  deliveryId : Bytes
  purpose : Bytes
  channel : Bytes
  recipient : Bytes
  code : Bytes
  expiresAt : Int
deriving DecidableEq

/-- The calls of `ICodeStore`, `IUserStore`, `IAuthorizationStore`, `IPasswordStore` and
`WebhookSender` that the server makes. -/
inductive StoreCall where
  | codesSet (hash : Bytes) (code : PhoneCode)
  | codesGet (hash : Bytes)
  | codesDel (hash : Bytes)
  | codesVerifyLogin (hash phone code : Bytes) (keepForSignUp : Bool) (defaultMaxAttempts : Int)
  | codesConsumeSignUpVerified (hash phone : Bytes)
  | usersById (id : Int64)
  | usersByIds (ids : List Int64)
  | usersByPhone (phone : Bytes)
  | usersByUsername (username : Bytes)
  | usersCreate (user : User)
  | usersUpdateLastSeen (id : Int64) (lastSeenAt : Int)
  | usersUpdateProfile (id : Int64) (firstName lastName about : Bytes)
  | usersUpdateUsername (id : Int64) (username : Bytes)
  | usersUpdateBirthday (id : Int64) (birthday : Birthday)
  | authorizationsBind (a : Authorization)
  | authorizationsByAuthKey (authKeyId : Arr 8)
  | authorizationsListByUser (userId : Int64)
  | authorizationsMarkPasswordPassed (authKeyId : Arr 8) (expectedUserId : Int64)
  | passwordsGetByUser (userId : Int64)
  | passwordsSave (userId : Int64) (settings : PasswordSettings)
  | otpDeliver (request : DeliveryRequest)
deriving DecidableEq

/-- What a call returns. -/
@[reducible] def StoreCall.Res : StoreCall → Type
  | codesSet .. | codesDel .. | usersUpdateLastSeen .. | authorizationsBind .. => Unit
  | authorizationsMarkPasswordPassed .. | passwordsSave .. | otpDeliver .. => Unit
  | codesGet .. | codesConsumeSignUpVerified .. => Option PhoneCode
  | codesVerifyLogin .. => LoginCodeVerifyResult
  | usersById .. | usersByPhone .. | usersByUsername .. => Option User
  | usersByIds .. => List User
  | usersCreate .. | usersUpdateProfile .. | usersUpdateUsername .. | usersUpdateBirthday .. => User
  | authorizationsByAuthKey .. => Option Authorization
  | authorizationsListByUser .. => List Authorization
  | passwordsGetByUser .. => Option PasswordSettings

/-- A call and its answer. -/
abbrev StoreEvent := Prog.Event StoreCall.Res Exn

/-- The functions of the server. -/
abbrev StoreProg := Prog StoreCall StoreCall.Res Exn

open StoreCall in
/-- Make a call, at a moment when the database answers what it is asked. -/
def StoreCall.exec (P : Primitives) : (call : StoreCall) → Stores → Except Exn call.Res × Stores
  | codesSet hash code, s => (.ok (), { s with codes := s.codes.upsert hash code })
  | codesGet hash, s => (.ok (s.codes.find hash), s)
  | codesDel hash, s => (.ok (), { s with codes := s.codes.erase hash })
  | codesVerifyLogin hash phone code keep dflt, s =>
    let (result, codes) := Codes.verifyLogin s.codes hash phone code keep dflt
    (.ok result, { s with codes })
  | codesConsumeSignUpVerified hash phone, s =>
    let (result, codes) := Codes.consumeSignUpVerified s.codes hash phone
    (.ok result, { s with codes })
  | usersById id, s => (.ok (s.usersById id), s)
  | usersByIds ids, s => (.ok (s.usersByIds ids), s)
  | usersByPhone phone, s => (.ok (s.usersByPhone phone), s)
  | usersByUsername username, s => (.ok (s.usersByUsername username), s)
  | usersCreate user, s => write (Stores.usersCreate user) s
  | usersUpdateLastSeen id t, s => write (Stores.usersUpdateLastSeen id t) s
  | usersUpdateProfile id f l a, s => write (Stores.usersUpdateProfile id f l a) s
  | usersUpdateUsername id u, s => write (Stores.usersUpdateUsername id u) s
  | usersUpdateBirthday id b, s => write (Stores.usersUpdateBirthday id b) s
  | authorizationsBind a, s => write (Stores.authorizationsBind P a) s
  | authorizationsByAuthKey k, s => (.ok (s.authorizationsByAuthKey k), s)
  | authorizationsListByUser id, s => (.ok (s.authorizationsListByUser id), s)
  | authorizationsMarkPasswordPassed k id, s =>
    write (Stores.authorizationsMarkPasswordPassed k id) s
  | passwordsGetByUser id, s => (.ok (s.passwordsGetByUser id), s)
  | passwordsSave id settings, s => write (Stores.passwordsSave id settings) s
  | otpDeliver _, s => (s.moment.delivery, s)

/-! ## Reads that throw -/

/-- The call reads the database and nothing else. -/
def StoreCall.reads : StoreCall → Bool
  | usersById .. | usersByIds .. | usersByPhone .. | usersByUsername .. => true
  | authorizationsByAuthKey .. | authorizationsListByUser .. | passwordsGetByUser .. => true
  | codesSet .. | codesGet .. | codesDel .. | codesVerifyLogin .. | codesConsumeSignUpVerified .. => false
  | usersCreate .. | usersUpdateLastSeen .. | usersUpdateProfile .. => false
  | usersUpdateUsername .. | usersUpdateBirthday .. => false
  | authorizationsBind .. | authorizationsMarkPasswordPassed .. | passwordsSave .. | otpDeliver .. => false

/-- Make a call, at any moment: a read is a transaction like a write, and throws where the connection is lost. -/
def StoreCall.attempt (P : Primitives) (call : StoreCall) (s : Stores) : Except Exn call.Res × Stores :=
  match s.moment.unread with
  | some state => if call.reads then (.error (.sqlError state), s) else call.exec P s
  | none => call.exec P s

/-- `ex` makes calls: as `exec` does, but a read may throw where `fails`. -/
structure Attempts (P : Primitives) (fails : Prop)
    (ex : (call : StoreCall) → Stores → Except Exn call.Res × Stores) : Prop where
  others : ∀ call s, call.reads = false → ex call s = call.exec P s
  reads : ∀ call s, call.reads = true →
    ex call s = call.exec P s ∨ fails ∧ ∃ state, ex call s = (.error (.sqlError state), s)

theorem attempts_exec (P : Primitives) : Attempts P False (StoreCall.exec P) where
  others _ _ _ := rfl
  reads _ _ _ := .inl rfl

theorem attempts_attempt (P : Primitives) : Attempts P True (StoreCall.attempt P) where
  others call s h := by
    unfold StoreCall.attempt
    cases s.moment.unread <;> simp [h]
  reads call s h := by
    unfold StoreCall.attempt
    cases s.moment.unread with
    | none => exact .inl rfl
    | some state => exact .inr ⟨trivial, state, by simp [h]⟩

namespace StoreCall

variable {P : Primitives} {call : StoreCall} {s : Stores}

theorem attempt_of_unread (h : s.moment.unread = none) : call.attempt P s = call.exec P s := by
  unfold attempt
  rw [h]

/-- An attempt does what the call does, or throws and changes nothing. -/
theorem attempt_cases (P : Primitives) (call : StoreCall) (s : Stores) :
    call.attempt P s = call.exec P s ∨ ∃ e, call.attempt P s = (.error e, s) := by
  cases hreads : call.reads with
  | false => exact .inl ((attempts_attempt P).others call s hreads)
  | true =>
    rcases (attempts_attempt P).reads call s hreads with heq | ⟨-, state, heq⟩
    · exact .inl heq
    · exact .inr ⟨_, heq⟩

theorem exec_of_attempt {a : call.Res} (h : (call.attempt P s).1 = .ok a) : (call.exec P s).1 = .ok a := by
  rcases attempt_cases P call s with heq | ⟨e, heq⟩
  · rw [← heq]
    exact h
  · rw [heq] at h
    cases h

end StoreCall

/-! ## The interfaces as the programs see them -/

/-- Call a store. -/
abbrev StoreCall.invoke (call : StoreCall) : StoreProg call.Res := Prog.perform call

namespace StoreProg

open StoreCall (invoke)

section ICodeStore

abbrev codesSet (hash : Bytes) (code : PhoneCode) : StoreProg Unit := invoke (.codesSet hash code)
abbrev codesGet (hash : Bytes) : StoreProg (Option PhoneCode) := invoke (.codesGet hash)
abbrev codesDel (hash : Bytes) : StoreProg Unit := invoke (.codesDel hash)
abbrev codesVerifyLogin (hash phone code : Bytes) (keepForSignUp : Bool) (defaultMaxAttempts : Int) :
    StoreProg LoginCodeVerifyResult :=
  invoke (.codesVerifyLogin hash phone code keepForSignUp defaultMaxAttempts)
abbrev codesConsumeSignUpVerified (hash phone : Bytes) : StoreProg (Option PhoneCode) :=
  invoke (.codesConsumeSignUpVerified hash phone)

end ICodeStore

section IUserStore

abbrev usersById (id : Int64) : StoreProg (Option User) := invoke (.usersById id)
abbrev usersByIds (ids : List Int64) : StoreProg (List User) := invoke (.usersByIds ids)
abbrev usersByPhone (phone : Bytes) : StoreProg (Option User) := invoke (.usersByPhone phone)
abbrev usersByUsername (username : Bytes) : StoreProg (Option User) := invoke (.usersByUsername username)
abbrev usersCreate (user : User) : StoreProg User := invoke (.usersCreate user)
abbrev usersUpdateLastSeen (id : Int64) (lastSeenAt : Int) : StoreProg Unit :=
  invoke (.usersUpdateLastSeen id lastSeenAt)
abbrev usersUpdateProfile (id : Int64) (firstName lastName about : Bytes) : StoreProg User :=
  invoke (.usersUpdateProfile id firstName lastName about)
abbrev usersUpdateUsername (id : Int64) (username : Bytes) : StoreProg User :=
  invoke (.usersUpdateUsername id username)
abbrev usersUpdateBirthday (id : Int64) (birthday : Birthday) : StoreProg User :=
  invoke (.usersUpdateBirthday id birthday)

end IUserStore

section IAuthorizationStore

abbrev authorizationsBind (a : Authorization) : StoreProg Unit := invoke (.authorizationsBind a)
abbrev authorizationsByAuthKey (authKeyId : Arr 8) : StoreProg (Option Authorization) :=
  invoke (.authorizationsByAuthKey authKeyId)
abbrev authorizationsListByUser (userId : Int64) : StoreProg (List Authorization) :=
  invoke (.authorizationsListByUser userId)
abbrev authorizationsMarkPasswordPassed (authKeyId : Arr 8) (expectedUserId : Int64) : StoreProg Unit :=
  invoke (.authorizationsMarkPasswordPassed authKeyId expectedUserId)

end IAuthorizationStore

abbrev passwordsGetByUser (userId : Int64) : StoreProg (Option PasswordSettings) :=
  invoke (.passwordsGetByUser userId)
abbrev passwordsSave (userId : Int64) (settings : PasswordSettings) : StoreProg Unit :=
  invoke (.passwordsSave userId settings)
abbrev otpDeliver (request : DeliveryRequest) : StoreProg Unit := invoke (.otpDeliver request)

end StoreProg

end ShuzaGram.Store

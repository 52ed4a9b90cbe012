import ShuzaGram.Server.Responses
import ShuzaGram.Store.Frames

/-!
# No data before login

A key that is not logged in, or whose login still waits for the password, is nobody: the account it acts
for is 0, and no account has the id 0. The seven methods about accounts shut such a key out in different
ways: by the flag of `ResolveCurrentUser`, by an early return, or by a lookup of the account 0 that fails.
What they answer depends on the request alone, and they write nothing.
-/

namespace ShuzaGram.Server

open Infra Domain Store Mtproto Mtproto.Messages Mtproto.Crypto Auth Users
open StoreProg

/-- The key has no authorization, or one that waits for the password. -/
def LockedOut (s : Stores) (authKeyId : Arr 8) : Prop :=
  ∀ a, s.authorizations.find authKeyId = some a → a.passwordPending = true

/-- The answer to a request that can be read, or the error of reading it. -/
def answerTo {α : Type} (x : Get α) (body : Bytes) (errors : Exn → Answer) (answer : Answer) : Answer :=
  match x body with
  | .ok _ _ => answer
  | .error e _ => errors e

/-- What the methods answer a key that is locked out: the request decides, nothing else. -/
def lockedOutAnswer (body : Bytes) : AccountMethod → Answer
  | .getUsers => answerTo UsersGetUsersRequest.decodeBare body (fun _ => internal) (.users [])
  | .updateStatus => answerTo decodeBool body (fun _ => internal) (.bool true)
  | .getAuthorizations => .authorizations []
  | .updateProfile => answerTo AccountUpdateProfileRequest.decodeBare body updateProfileErrors internal
  | .checkUsername => answerTo getBytes body usernameErrors internal
  | .updateUsername => answerTo getBytes body updateUsernameErrors internal
  | .updateBirthday => answerTo AccountUpdateBirthdayRequest.decodeBare body updateBirthdayErrors internal

section

variable {P : Primitives} {moments : Nat → Moment} {s₀ : Stores} {authKeyId : Arr 8}

/-- The stores are those of the start, at whatever moment. -/
def Unwritten (s₀ s : Stores) : Prop := ∃ m, s = atMoment m s₀

theorem unwritten_atMoments (n : Nat) (s : Stores) (h : Unwritten s₀ s) : Unwritten s₀ (atMoments moments n s) := by
  obtain ⟨m, rfl⟩ := h
  exact ⟨moments n, rfl⟩

/-- A program ends with `r` and writes nothing, whatever the clock says. -/
abbrev Shows {α : Type} (P : Primitives) (moments : Nat → Moment) (s₀ : Stores) (p : StoreProg α) (r : Except Exn α) :
    Prop :=
  Prog.Yields (StoreCall.exec P) (atMoments moments) (Unwritten s₀) p r

/-- Nobody is logged in with the key. -/
theorem shows_resolveCurrentUser (hlocked : LockedOut s₀ authKeyId) :
    Shows P moments s₀ (resolveCurrentUser authKeyId) (.ok {}) := by
  have hcall : Shows P moments s₀ (authorizationsByAuthKey authKeyId) (.ok (s₀.authorizationsByAuthKey authKeyId)) := by
    refine Prog.yields_perform unwritten_atMoments fun s hs => ?_
    obtain ⟨m, rfl⟩ := hs
    exact ⟨rfl, m, rfl⟩
  refine hcall.bind ?_
  unfold Stores.authorizationsByAuthKey
  cases hrow : s₀.authorizations.find authKeyId with
  | none => exact Prog.yields_pure _
  | some a =>
    have hpending : (Stores.rowToAuthorization (authKeyId, a)).passwordPending = true := hlocked a hrow
    simp only [Option.map_some, hpending, if_true]
    exact Prog.yields_pure _

/-- There is no account 0. -/
theorem shows_usersById_zero (hzero : s₀.users.find 0 = none) : Shows P moments s₀ (usersById 0) (.ok none) := by
  refine Prog.yields_perform unwritten_atMoments fun s hs => ?_
  obtain ⟨m, rfl⟩ := hs
  refine ⟨?_, m, rfl⟩
  simp only [StoreCall.exec, Stores.usersById, atMoment, hzero, Option.map_none]

/-- The end of a `try` block, with the answer to its exception. -/
def settle (errors : Exn → Answer) : Except Exn Answer → Answer
  | .ok answer => answer
  | .error e => errors e

theorem shows_answering {errors : Exn → Answer} {p : StoreProg Answer} {r : Except Exn Answer}
    (h : Shows P moments s₀ p r) : Shows P moments s₀ (answering p errors) (.ok (settle errors r)) := by
  cases r with
  | ok answer => exact h.catch_ok
  | error e => exact h.catch_error (Prog.yields_pure _)

/-- A handler that reads its request first, in its `try` block. -/
theorem shows_request {α : Type} {x : Get α} {errors : Exn → Answer} {f : α → StoreProg Answer} {r : Except Exn Answer}
    (body : Bytes) (hf : ∀ a, Shows P moments s₀ (f a) r) :
    Shows P moments s₀ (answering (decode x body >>= f) errors) (.ok (answerTo x body errors (settle errors r))) := by
  unfold decode answerTo
  cases hx : x body with
  | ok a rest => exact shows_answering ((Prog.yields_pure a).bind (hf a))
  | error e rest => exact shows_answering (r := .error e) (Prog.yields_throw e).bind_error

theorem keptInputs_false (inputs : List InputUser) : keptInputs false inputs = [] := by
  unfold keptInputs
  rw [List.filter_eq_nil_iff]
  intro input _
  cases input <;> simp

/-- **A method answers a key that is locked out by the request alone, and writes nothing.** -/
theorem shows_handle (cfg : Config) (draw : HandlerDraw) {ctx : RpcContext} (hlocked : LockedOut s₀ ctx.authKeyId)
    (hzero : s₀.users.find 0 = none) (body : Bytes) (m : AccountMethod) :
    Shows P moments s₀ (handle cfg draw ctx body m.method) (.ok (lockedOutAnswer body m)) := by
  have hcurrent : Shows P moments s₀ (resolveCurrentUser ctx.authKeyId) (.ok {}) := shows_resolveCurrentUser hlocked
  -- Nobody is resolved: a method answers with nothing, or looks for the account 0, which does not exist.
  cases m with
  | getUsers =>
    refine shows_request (r := .ok (.users [])) body fun inputs => ?_
    have hresolve : Shows P moments s₀ (resolveGetUsers ctx.authKeyId inputs) (.ok []) := by
      refine hcurrent.bind ?_
      simp only [keptInputs_false]
      exact (Prog.yields_pure none).bind ((Prog.yields_pure []).bind (Prog.yields_pure []))
    exact hresolve.bind (Prog.yields_pure _)
  | updateStatus =>
    refine shows_request (r := .ok (.bool true)) body fun offline => ?_
    have hstatus : Shows P moments s₀ (updateStatus ctx.authKeyId draw.now) (.ok ()) := hcurrent.bind (Prog.yields_pure _)
    exact hstatus.bind (Prog.yields_pure _)
  | getAuthorizations =>
    exact shows_answering (r := .ok (.authorizations []))
      (hcurrent.bind ((Prog.yields_pure []).bind (Prog.yields_pure _)))
  | updateProfile =>
    refine shows_request (r := .error .userNotFound) body fun update => hcurrent.bind ?_
    have hupdate : Shows P moments s₀ (updateProfile 0 update draw.now) (.error .userNotFound) :=
      (shows_usersById_zero hzero).bind (Prog.yields_throw _)
    exact hupdate.bind_error
  | checkUsername =>
    refine shows_request (r := .error .userNotFound) body fun username => hcurrent.bind ?_
    exact (Prog.yields_throw _ : Shows P moments s₀ (loadSelf 0) _).bind_error.bind_error
  | updateUsername =>
    refine shows_request (r := .error .userNotFound) body fun username => hcurrent.bind ?_
    exact (Prog.yields_throw _ : Shows P moments s₀ (loadSelf 0) _).bind_error.bind_error
  | updateBirthday =>
    refine shows_request (r := .error .userNotFound) body fun birthday => hcurrent.bind ?_
    have hupdate : Shows P moments s₀ (updateBirthday 0 birthday) (.error .userNotFound) :=
      (shows_usersById_zero hzero).bind (Prog.yields_throw _)
    exact hupdate.bind_error

end

/-- **No data before login.** Whatever the stores hold besides, a key that is locked out gets the same
bytes from every method about accounts, and the stores stay as they are. -/
theorem respond_lockedOut (P : Primitives) (cfg : Config) (encodeUser : EncodeUser) (draw : HandlerDraw)
    (ctx : RpcContext) (body : Bytes) (now : Int) (m : AccountMethod) (moments₁ moments₂ : Nat → Moment) {s₁ s₂ : Stores}
    (hlocked₁ : LockedOut s₁ ctx.authKeyId) (hlocked₂ : LockedOut s₂ ctx.authKeyId)
    (hzero₁ : s₁.users.find 0 = none) (hzero₂ : s₂.users.find 0 = none) :
    let o₁ := (respond cfg encodeUser draw ctx body now m).run (StoreCall.exec P) (atMoments moments₁) 0 s₁
    let o₂ := (respond cfg encodeUser draw ctx body now m).run (StoreCall.exec P) (atMoments moments₂) 0 s₂
    (∃ moment, o₁.state = atMoment moment s₁) ∧ (∃ moment, o₂.state = atMoment moment s₂) ∧
      ∃ bytes, o₁.result = .ok bytes ∧ o₂.result = .ok bytes := by
  have hshows : ∀ (moments : Nat → Moment) {s₀ : Stores}, LockedOut s₀ ctx.authKeyId → s₀.users.find 0 = none →
      Shows P moments s₀ (respond cfg encodeUser draw ctx body now m)
        (.ok (m.encode encodeUser ctx now (lockedOutAnswer body m))) := fun _ _ hlocked hzero =>
    (shows_handle cfg draw hlocked hzero body m).bind (Prog.yields_pure _)
  obtain ⟨hresult₁, hstate₁⟩ := hshows moments₁ hlocked₁ hzero₁ 0 s₁ ⟨s₁.moment, rfl⟩
  obtain ⟨hresult₂, hstate₂⟩ := hshows moments₂ hlocked₂ hzero₂ 0 s₂ ⟨s₂.moment, rfl⟩
  exact ⟨hstate₁, hstate₂, _, hresult₁, hresult₂⟩

/-! ### A login that waits for the password -/

/-- An account with a user name, and a key that has proved the phone of the account only. -/
def pendingStores : Stores :=
  { Stores.empty { now := 0, newUserId := 0 } with
    users := Table.empty.upsert 7 { firstName := ascii "Ann", username := ascii "annlee" }
    authorizations := Table.empty.upsert (Arr.zero 8) { authKeyId := Arr.zero 8, userId := 7, passwordPending := true } }

theorem lockedOut_pendingStores : LockedOut pendingStores (Arr.zero 8) := by
  intro a h
  cases h
  rfl

theorem lockedOut_empty {m : Moment} {authKeyId : Arr 8} : LockedOut (Stores.empty m) authKeyId := by
  intro a h
  cases h

def pendingConfig : Config where
  primitives := { sha1 := fun _ => Arr.zero 20, sha256 := fun _ => Arr.zero 32, aes := fun _ => Equiv.refl _ }
  phones := { formatE164 := fun _ => none }
  otpSender := none

def pendingDraw : HandlerDraw where
  sendCode := { hash := Arr.zero 8, digits := fun _ => 0, deliveryId := Arr.zero 16, now := 0 }
  accessHash := 0
  challenge := { secret := Arr.zero 256, srpId := 0 }
  now := 0

/-- The key asks whether a user name is free: the answer is the same whether an account has it or not. -/
theorem respond_lockedOut_sample :
    ∃ bytes,
      ((respond pendingConfig (fun _ _ _ => []) pendingDraw { authKeyId := Arr.zero 8, sessionId := 0 }
          (putBytes (ascii "annlee")) 0 .checkUsername).run (StoreCall.exec pendingConfig.primitives)
          (atMoments fun _ => { now := 0, newUserId := 0 }) 0 pendingStores).result = .ok bytes ∧
      ((respond pendingConfig (fun _ _ _ => []) pendingDraw { authKeyId := Arr.zero 8, sessionId := 0 }
          (putBytes (ascii "annlee")) 0 .checkUsername).run (StoreCall.exec pendingConfig.primitives)
          (atMoments fun _ => { now := 0, newUserId := 0 }) 0 (Stores.empty { now := 0, newUserId := 0 })).result =
        .ok bytes :=
  (respond_lockedOut pendingConfig.primitives pendingConfig (fun _ _ _ => []) pendingDraw
    { authKeyId := Arr.zero 8, sessionId := 0 } (putBytes (ascii "annlee")) 0 .checkUsername
    (fun _ => { now := 0, newUserId := 0 }) (fun _ => { now := 0, newUserId := 0 }) lockedOut_pendingStores
    lockedOut_empty rfl rfl).2.2

end ShuzaGram.Server

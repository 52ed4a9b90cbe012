import ShuzaGram.Store.Calls

/-!
# What a call of a store leaves alone

Every call touches one area at most (`exec_agree`), a call that throws touches nothing
(`exec_error`), and no call loses an account (`exec_users_isSome`).
-/

namespace ShuzaGram.Store

open Infra Domain Mtproto.Crypto

/-- The area that a call can change; none for a read. -/
def StoreCall.area : StoreCall → Option Area
  | codesSet .. | codesDel .. | codesVerifyLogin .. | codesConsumeSignUpVerified .. => some .codes
  | usersCreate .. | usersUpdateLastSeen .. | usersUpdateProfile .. => some .users
  | usersUpdateUsername .. | usersUpdateBirthday .. => some .users
  | authorizationsBind .. | authorizationsMarkPasswordPassed .. => some .authorizations
  | passwordsSave .. => some .passwords
  | codesGet .. | usersById .. | usersByIds .. | usersByPhone .. | usersByUsername .. => none
  | authorizationsByAuthKey .. | authorizationsListByUser .. | passwordsGetByUser .. => none
  | otpDeliver .. => none

namespace Stores

/-- What holds of the stores that a transaction commits holds after the write. -/
theorem write_post {α : Type} {tx : Stores → Except Exn (α × Stores)} {s : Stores} {Q : Stores → Prop}
    (hs : Q s) (htx : ∀ a s', tx s = .ok (a, s') → Q s') : Q (write tx s).2 := by
  rcases write_cases tx s with ⟨e, h⟩ | ⟨a, s', hok, h⟩
  · rw [h]
    exact hs
  · rw [h]
    exact htx a s' hok

/-- A transaction that changes accounts only, and loses none of them. -/
structure OnUsers (s s' : Stores) : Prop where
  agree : Agree (some .users) s s'
  isSome : ∀ id, (s.users.find id).isSome → (s'.users.find id).isSome

theorem OnUsers.refl (s : Stores) : OnUsers s s := ⟨Agree.refl _ _, fun _ h => h⟩

theorem OnUsers.upsert (s : Stores) (id : Int64) (row : User) (t : Table Bytes PeerUsername) :
    OnUsers s { s with users := s.users.upsert id row, peerUsernames := t } where
  agree := ⟨fun _ => rfl, fun h => absurd rfl h, fun _ => rfl, fun _ => rfl, rfl, rfl⟩
  isSome id' h := by
    simp only [Table.find_upsert]
    split
    · rfl
    · exact h

theorem onUsers_updateLive {s s' : Stores} {id : Int64} {f : User → User} {u : User}
    (h : s.updateLive id f = some (u, s')) : OnUsers s s' := by
  obtain ⟨r, -, -, -, rfl⟩ := updateLive_eq_some h
  exact OnUsers.upsert s id _ s.peerUsernames

theorem onUsers_usersCreate (user : User) (s : Stores) : OnUsers s (write (usersCreate user) s).2 := by
  refine write_post (OnUsers.refl s) fun u s' h => ?_
  obtain ⟨-, -, -, row, t, rfl⟩ := usersCreate_eq_ok h
  exact OnUsers.upsert s _ row t

theorem onUsers_usersUpdateLastSeen (id : Int64) (t : Int) (s : Stores) :
    OnUsers s (write (usersUpdateLastSeen id t) s).2 := by
  refine write_post (OnUsers.refl s) fun u s' h => ?_
  unfold usersUpdateLastSeen at h
  split at h
  · cases h
    exact OnUsers.refl s
  · next hlive =>
    cases h
    exact onUsers_updateLive hlive

theorem onUsers_updateOrThrow (id : Int64) (f : User → User) (s : Stores) :
    OnUsers s (write (updateOrThrow id f) s).2 := by
  refine write_post (OnUsers.refl s) fun u s' h => ?_
  unfold updateOrThrow at h
  split at h
  · cases h
  · next hlive =>
    cases h
    exact onUsers_updateLive hlive

theorem onUsers_usersUpdateUsername (id : Int64) (username : Bytes) (s : Stores) :
    OnUsers s (write (usersUpdateUsername id username) s).2 := by
  refine write_post (OnUsers.refl s) fun u s' h => ?_
  obtain ⟨r, t, -, -, -, -, rfl⟩ := usersUpdateUsername_eq_ok h
  exact OnUsers.upsert s id _ t

theorem agree_authorizationsBind (P : Primitives) (a : Authorization) (s : Stores) :
    Agree (some .authorizations) s (write (authorizationsBind P a) s).2 := by
  refine write_post (Agree.refl _ s) fun u s' h => ?_
  obtain ⟨-, w, r, t, row, rfl, -, -⟩ := authorizationsBind_eq_ok P h
  exact ⟨fun _ => rfl, fun _ => rfl, fun _ => rfl, fun h => absurd rfl h, rfl, rfl⟩

theorem agree_authorizationsMarkPasswordPassed (k : Arr 8) (id : Int64) (s : Stores) :
    Agree (some .authorizations) s (write (authorizationsMarkPasswordPassed k id) s).2 := by
  refine write_post (Agree.refl _ s) fun u s' h => ?_
  unfold authorizationsMarkPasswordPassed at h
  split at h
  · cases h
  · split at h
    · cases h
      exact ⟨fun _ => rfl, fun _ => rfl, fun _ => rfl, fun h => absurd rfl h, rfl, rfl⟩
    · cases h

theorem agree_passwordsSave (id : Int64) (settings : PasswordSettings) (s : Stores) :
    Agree (some .passwords) s (write (passwordsSave id settings) s).2 := by
  refine write_post (Agree.refl _ s) fun u s' h => ?_
  cases h
  exact ⟨fun _ => rfl, fun _ => rfl, fun h => absurd rfl h, fun _ => rfl, rfl, rfl⟩

theorem agree_codes (s : Stores) (codes : Codes) : Agree (some .codes) s { s with codes } :=
  ⟨fun h => absurd rfl h, fun _ => rfl, fun _ => rfl, fun _ => rfl, rfl, rfl⟩

end Stores

open Stores

namespace StoreCall

variable (P : Primitives)

/-- **A call changes its own area at most.** -/
theorem exec_agree (call : StoreCall) (s : Stores) : Agree call.area s (call.exec P s).2 := by
  cases call with
  | codesSet hash code => exact agree_codes s _
  | codesDel hash => exact agree_codes s _
  | codesVerifyLogin hash phone code keep dflt => exact agree_codes s _
  | codesConsumeSignUpVerified hash phone => exact agree_codes s _
  | usersCreate user => exact (onUsers_usersCreate user s).agree
  | usersUpdateLastSeen id t => exact (onUsers_usersUpdateLastSeen id t s).agree
  | usersUpdateProfile id f l a => exact (onUsers_updateOrThrow id _ s).agree
  | usersUpdateUsername id u => exact (onUsers_usersUpdateUsername id u s).agree
  | usersUpdateBirthday id b => exact (onUsers_updateOrThrow id _ s).agree
  | authorizationsBind a => exact agree_authorizationsBind P a s
  | authorizationsMarkPasswordPassed k id => exact agree_authorizationsMarkPasswordPassed k id s
  | passwordsSave id settings => exact agree_passwordsSave id settings s
  | codesGet | usersById | usersByIds | usersByPhone | usersByUsername => exact Agree.refl _ s
  | authorizationsByAuthKey | authorizationsListByUser | passwordsGetByUser => exact Agree.refl _ s
  | otpDeliver => exact Agree.refl _ s

/-- No call loses an account. -/
theorem exec_users_isSome (call : StoreCall) (s : Stores) (id : Int64)
    (h : (s.users.find id).isSome) : ((call.exec P s).2.users.find id).isSome := by
  by_cases harea : call.area = some .users
  case neg =>
    rw [(exec_agree P call s).users harea]
    exact h
  case pos =>
    cases call with
    | usersCreate user => exact (onUsers_usersCreate user s).isSome id h
    | usersUpdateLastSeen id' t => exact (onUsers_usersUpdateLastSeen id' t s).isSome id h
    | usersUpdateProfile id' f l a => exact (onUsers_updateOrThrow id' _ s).isSome id h
    | usersUpdateUsername id' u => exact (onUsers_usersUpdateUsername id' u s).isSome id h
    | usersUpdateBirthday id' b => exact (onUsers_updateOrThrow id' _ s).isSome id h
    | _ => cases harea

theorem write_error {α : Type} {tx : Stores → Except Exn (α × Stores)} {s : Stores} {e : Exn}
    (h : (write tx s).1 = .error e) : (write tx s).2 = s := by
  rcases write_cases tx s with ⟨e', h'⟩ | ⟨a, s', -, h'⟩
  · rw [h']
  · rw [h'] at h
    cases h

/-- **A call that throws leaves the stores as they were.** -/
theorem exec_error {call : StoreCall} {s : Stores} {e : Exn} (h : (call.exec P s).1 = .error e) :
    (call.exec P s).2 = s := by
  cases call with
  | usersCreate | usersUpdateLastSeen | usersUpdateProfile | usersUpdateUsername => exact write_error h
  | usersUpdateBirthday | authorizationsBind | authorizationsMarkPasswordPassed => exact write_error h
  | passwordsSave => exact write_error h
  | otpDeliver => rfl
  | codesSet | codesGet | codesDel | codesVerifyLogin | codesConsumeSignUpVerified => cases h
  | usersById | usersByIds | usersByPhone | usersByUsername => cases h
  | authorizationsByAuthKey | authorizationsListByUser | passwordsGetByUser => cases h

end StoreCall

/-! ## Runs -/

/-- The event does not change the area: it is a call that cannot, or one that threw. -/
def Quiet (area : Area) (x : StoreEvent) : Prop := x.1.area = some area → ∃ e, x.2 = .error e

/-- The part of the stores that makes up an area. -/
def Stores.SameIn : Area → Stores → Stores → Prop
  | .codes, s, s' => s'.codes = s.codes
  | .users, s, s' => s'.users = s.users
  | .passwords, s, s' => s'.accountPasswords = s.accountPasswords
  | .authorizations, s, s' => s'.authorizations = s.authorizations

theorem Stores.SameIn.refl : ∀ (area : Area) (s : Stores), SameIn area s s
  | .codes, _ | .users, _ | .passwords, _ | .authorizations, _ => rfl

theorem Stores.SameIn.trans : ∀ {area : Area} {s s' s'' : Stores}, SameIn area s s' → SameIn area s' s'' →
    SameIn area s s''
  | .codes, _, _, _, h, h' | .users, _, _, _, h, h' | .passwords, _, _, _, h, h'
  | .authorizations, _, _, _, h, h' => Eq.trans h' h

theorem StoreCall.exec_sameIn (P : Primitives) (area : Area) (call : StoreCall) (s : Stores)
    (h : Quiet area ⟨call, (call.exec P s).1⟩) : SameIn area s (call.exec P s).2 := by
  by_cases harea : call.area = some area
  case pos =>
    obtain ⟨e, he⟩ := h harea
    rw [StoreCall.exec_error P he]
    exact SameIn.refl area s
  case neg =>
    have hagree := StoreCall.exec_agree P call s
    cases area with
    | codes => exact hagree.codes harea
    | users => exact hagree.users harea
    | passwords => exact hagree.passwords harea
    | authorizations => exact hagree.authorizations harea

section Attempts

variable {P : Primitives} {fails : Prop} {ex : (call : StoreCall) → Stores → Except Exn call.Res × Stores}

/-- Where a call is made, it is made as `exec` makes it, or it is a read that changes nothing. -/
theorem Attempts.cases (hex : Attempts P fails ex) (call : StoreCall) (s : Stores) :
    ex call s = call.exec P s ∨ (ex call s).2 = s := by
  cases hreads : call.reads with
  | false => exact .inl (hex.others call s hreads)
  | true =>
    rcases hex.reads call s hreads with h | ⟨-, state, h⟩
    · exact .inl h
    · exact .inr (by rw [h])

theorem Attempts.agree (hex : Attempts P fails ex) (call : StoreCall) (s : Stores) :
    Agree call.area s (ex call s).2 := by
  rcases hex.cases call s with h | h
  · rw [h]
    exact StoreCall.exec_agree P call s
  · rw [h]
    exact Agree.refl _ s

theorem Attempts.users_isSome (hex : Attempts P fails ex) (call : StoreCall) (s : Stores) (id : Int64)
    (h : (s.users.find id).isSome) : ((ex call s).2.users.find id).isSome := by
  rcases hex.cases call s with hcall | hcall
  · rw [hcall]
    exact call.exec_users_isSome P s id h
  · rw [hcall]
    exact h

theorem Attempts.sameIn (hex : Attempts P fails ex) {area : Area} {call : StoreCall} {s : Stores}
    (h : Quiet area ⟨call, (ex call s).1⟩) : SameIn area s (ex call s).2 := by
  rcases hex.cases call s with hcall | hcall
  · rw [hcall] at h ⊢
    exact StoreCall.exec_sameIn P area call s h
  · rw [hcall]
    exact SameIn.refl area s

/-- **A run changes an area only through calls that can and that went through.** -/
theorem run_sameIn (hex : Attempts P fails ex) {env : Nat → Stores → Stores} {α : Type} {area : Area}
    (henv : ∀ n s, SameIn area s (env n s)) (p : StoreProg α) (n : Nat) (s : Stores)
    (h : ∀ x ∈ (p.run ex env n s).trace, Quiet area x) : SameIn area s (p.run ex env n s).state := by
  exact Prog.run_preserves (P := Quiet area) (I := SameIn area s) (fun n _ hs => hs.trans (henv n _))
    (fun call s' hquiet hs => hs.trans (hex.sameIn hquiet)) p n s h (SameIn.refl area s)

end Attempts

/-- Between two calls only the outside world moves on. -/
def atMoments (moments : Nat → Moment) : Nat → Stores → Stores :=
  fun k s => { s with moment := moments k }

theorem sameIn_atMoments (area : Area) (moments : Nat → Moment) (n : Nat) (s : Stores) :
    Stores.SameIn area s (atMoments moments n s) := by
  cases area <;> rfl

end ShuzaGram.Store

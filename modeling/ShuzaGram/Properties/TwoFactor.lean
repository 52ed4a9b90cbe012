import Mathlib.Data.List.Induction
import ShuzaGram.Infra.History
import ShuzaGram.Properties.OwnerDrift
import ShuzaGram.Server.HandlerRuns

/-!
# The second factor cannot be passed by

Any sequence of handler calls, on any keys, from stores without logins. A key that counts as logged in
to an account with a password has passed a check of that password since its last login.

Logins come from `auth.signIn`, which marks them as pending exactly if the account has a password, and
from `auth.signUp`, whose account is new and so has none. The mark goes away in `auth.checkPassword`
only, and only after the check.
-/

namespace ShuzaGram.Server

open Infra Domain Store Mtproto Mtproto.Messages Mtproto.Crypto Auth Users

/-! ## Logins and checks in a history -/

/-- The key that a call logged in. -/
def boundKey : StoreEvent → Option (Arr 8)
  | ⟨.authorizationsBind a, .ok _⟩ => some a.authKeyId
  | _ => none

def boundKeys (trace : List StoreEvent) : List (Arr 8) := trace.filterMap boundKey

theorem boundKeys_append (t t' : List StoreEvent) : boundKeys (t ++ t') = boundKeys t ++ boundKeys t' :=
  List.filterMap_append

/-- The salt that a check of the stored password uses. -/
def checkSalt (row : PasswordRow) : Bytes :=
  let settings := normalizePasswordSettings row.toSettings
  (settings.currentAlgo.getD settings.newAlgo).salt1

/-- A call of `auth.checkPassword` on the key, for the account, that read the password and whose check passed with a
proof. -/
structure PassedCheck (cfg : Config) (k : Arr 8) (u : Int64) (h : Handled) : Prop where
  method : h.call.method = .authCheckPassword
  key : h.call.ctx.authKeyId = k
  account : ∃ authz, h.before.authorizations.find k = some authz ∧ authz.userId = u
  read : ⟨.passwordsGetByUser u, .ok (h.before.passwordsGetByUser u)⟩ ∈ h.trace
  passed : ∃ check rest row,
    AuthCheckPasswordRequest.decodeBare h.call.body = .ok check rest ∧ check.empty = false ∧
    ((checkPassword cfg.primitives u check).exec (StoreCall.exec cfg.primitives) h.before).result = .ok () ∧
    h.before.accountPasswords.find u = some row ∧
    srpCalcM1 cfg.primitives (checkSalt row) row.srpVerifier row.srpBSecret row.srpB check.a = .ok check.m1

/-- The key passed a check for the account, and was not logged in again since. -/
def CheckedSinceLogin (cfg : Config) (k : Arr 8) (u : Int64) (hist : List Handled) : Prop :=
  Since (PassedCheck cfg k u) (fun h => k ∉ boundKeys h.trace) hist

/-- An empty check of an account with a password changes no login. -/
def EmptyCheckRefused (h : Handled) : Prop :=
  ∀ check rest row, h.call.method = .authCheckPassword →
    AuthCheckPasswordRequest.decodeBare h.call.body = .ok check rest → check.empty = true →
    h.before.authorizations.find h.call.ctx.authKeyId = some row → h.before.hasPassword row.userId = true →
    h.after.authorizations = h.before.authorizations

/-- **The gate**, in a history that ends in the stores. -/
structure TwoFactorGate (cfg : Config) (hist : List Handled) (s : Stores) : Prop where
  /-- A login that is not pending, to an account with a password, passed a check. -/
  checked : ∀ k row, s.authorizations.find k = some row → row.passwordPending = false →
    s.hasPassword row.userId = true → CheckedSinceLogin cfg k row.userId hist
  /-- So did every key that counts as logged in to such an account. -/
  current : ∀ k u, ((resolveCurrentUser k).exec (StoreCall.exec cfg.primitives) s).result =
      .ok { userId := u, authorized := true } → s.hasPassword u = true → CheckedSinceLogin cfg k u hist
  emptyRefused : ∀ h ∈ hist, EmptyCheckRefused h

/-! ## What one call does -/

/-- What one call does to logins and passwords. -/
structure Effect (cfg : Config) (h : Handled) : Prop where
  hasPassword : ∀ id, h.after.hasPassword id = h.before.hasPassword id
  rows : ∀ id, (h.after.accountPasswords.find id).isSome → (h.before.accountPasswords.find id).isSome
  users : ∀ id, (h.before.users.find id).isSome → (h.after.users.find id).isSome
  login : ∀ k row', h.after.authorizations.find k = some row' → row'.passwordPending = false →
    h.before.hasPassword row'.userId = true → PassedCheck cfg k row'.userId h ∨
      (k ∉ boundKeys h.trace ∧ ∃ row, h.before.authorizations.find k = some row ∧
        row.userId = row'.userId ∧ row.passwordPending = false)

section Runs

variable {P : Primitives} {moments : Nat → Moment} {α : Type}

/-- No account is lost in a run. -/
theorem run_users_isSome (p : StoreProg α) (n : Nat) (s : Stores) (id : Int64)
    (h : (s.users.find id).isSome) :
    ((p.run (StoreCall.attempt P) (atMoments moments) n s).state.users.find id).isSome := by
  have henv : ∀ k (s' : Stores), (s'.users.find id).isSome → ((atMoments moments k s').users.find id).isSome :=
    fun _ _ hs => hs
  exact Prog.run_preserves (P := fun _ => True) henv
    (fun call s' _ hs => (attempts_attempt P).users_isSome call s' id hs) p n s (fun _ _ => trivial) h

theorem boundKeys_of_quiet {trace : List StoreEvent} (h : ∀ x ∈ trace, Quiet .authorizations x) :
    boundKeys trace = [] := by
  refine List.filterMap_eq_nil_iff.mpr fun x hx => ?_
  obtain ⟨call, answer⟩ := x
  cases call with
  | authorizationsBind a =>
    obtain ⟨e, he⟩ := h _ hx rfl
    simp only at he
    rw [he]
    rfl
  | _ => rfl

theorem hasPassword_congr {s s' : Stores} (h : s'.accountPasswords = s.accountPasswords) (id : Int64) :
    s'.hasPassword id = s.hasPassword id := by
  unfold Stores.hasPassword
  rw [h]

theorem hasPassword_eq (s : Stores) (id : Int64) :
    (s.passwordsGetByUser id).any PasswordSettings.hasPassword = s.hasPassword id := by
  unfold Stores.passwordsGetByUser Stores.hasPassword
  cases s.accountPasswords.find id <;> rfl

/-- What a login leaves: nothing new, or one login that is pending exactly if there is a password. -/
structure LoginOutcome (key : Arr 8) (s s' : Stores) (trace : List StoreEvent) : Prop where
  passwords : s'.accountPasswords = s.accountPasswords
  logins : (s'.authorizations = s.authorizations ∧ boundKeys trace = []) ∨
    ∃ row, s'.authorizations = s.authorizations.upsert key row ∧
      row.passwordPending = s.hasPassword row.userId ∧ boundKeys trace = [key]

theorem loginOutcome_of_quiet (p : StoreProg α) (n : Nat) (s : Stores) (key : Arr 8)
    (hauth : ∀ x ∈ (p.run (StoreCall.attempt P) (atMoments moments) n s).trace, Quiet .authorizations x)
    (hpass : ∀ x ∈ (p.run (StoreCall.attempt P) (atMoments moments) n s).trace, Quiet .passwords x) :
    LoginOutcome key s (p.run (StoreCall.attempt P) (atMoments moments) n s).state
      (p.run (StoreCall.attempt P) (atMoments moments) n s).trace :=
  ⟨run_sameIn (attempts_attempt _) (sameIn_atMoments .passwords moments) p n s hpass,
    .inl ⟨run_sameIn (attempts_attempt _) (sameIn_atMoments .authorizations moments) p n s hauth, boundKeys_of_quiet hauth⟩⟩

/-- The logins and passwords at a call, where the calls before it left them alone. -/
theorem split_quiet {p : StoreProg α} {n : Nat} {s : Stores} {pre post : List StoreEvent} {x : StoreEvent}
    (htrace : (p.run (StoreCall.attempt P) (atMoments moments) n s).trace = pre ++ x :: post)
    (hauth : ∀ x ∈ pre, Quiet .authorizations x) (hpass : ∀ x ∈ pre, Quiet .passwords x) :
    ∃ s', s'.authorizations = s.authorizations ∧ s'.accountPasswords = s.accountPasswords ∧
      x.2 = (x.1.attempt P s').1 ∧
      (post = [] → (p.run (StoreCall.attempt P) (atMoments moments) n s).state = (x.1.attempt P s').2) := by
  have henv : ∀ k s', Stores.SameIn .authorizations s s' ∧ Stores.SameIn .passwords s s' →
      Stores.SameIn .authorizations s (atMoments moments k s') ∧
        Stores.SameIn .passwords s (atMoments moments k s') := fun _ _ hs => hs
  obtain ⟨s', ⟨h₁, h₂⟩, hanswer, hlast⟩ := Prog.run_split henv p n s htrace
    (fun call s' hmem hs =>
      ⟨hs.1.trans ((attempts_attempt P).sameIn (hauth _ hmem)), hs.2.trans ((attempts_attempt P).sameIn (hpass _ hmem))⟩)
    ⟨rfl, rfl⟩
  exact ⟨s', h₁, h₂, hanswer, hlast⟩

/-- **A login at the end of a run.** -/
theorem loginOutcome_of_bind {p : StoreProg α} {n : Nat} {s : Stores} {pre : List StoreEvent}
    {a : Authorization} {answer : Except Exn Unit}
    (htrace : (p.run (StoreCall.attempt P) (atMoments moments) n s).trace =
      pre ++ [event (.authorizationsBind a) answer])
    (hauth : ∀ x ∈ pre, Quiet .authorizations x) (hpass : ∀ x ∈ pre, Quiet .passwords x)
    (ha : a.passwordPending = s.hasPassword a.userId) :
    LoginOutcome a.authKeyId s (p.run (StoreCall.attempt P) (atMoments moments) n s).state
      (p.run (StoreCall.attempt P) (atMoments moments) n s).trace := by
  obtain ⟨s', hs₁, hs₂, hanswer, hlast⟩ := split_quiet htrace hauth hpass
  have hkeys : boundKeys (pre ++ [event (.authorizationsBind a) answer]) =
      boundKeys [event (.authorizationsBind a) answer] := by
    rw [boundKeys_append, boundKeys_of_quiet hauth, List.nil_append]
  have hbind : StoreCall.attempt P (.authorizationsBind a) s' = write (Stores.authorizationsBind P a) s' :=
    (attempts_attempt P).others _ s' rfl
  rw [hlast rfl, htrace]
  simp only [hbind] at hanswer ⊢
  rcases write_cases (Stores.authorizationsBind P a) s' with ⟨e, he⟩ | ⟨_, s'', hok, hw⟩
  · rw [he] at hanswer ⊢
    exact ⟨hs₂, .inl ⟨hs₁, by rw [hkeys, hanswer]; rfl⟩⟩
  · rw [hw] at hanswer ⊢
    obtain ⟨-, w, r, t, row, rfl, huser, hpending⟩ := Stores.authorizationsBind_eq_ok P hok
    exact ⟨hs₂, .inr ⟨row, by rw [hs₁], by rw [hpending, huser, ha], by rw [hkeys, hanswer]; rfl⟩⟩

/-- Passwords belong to accounts. -/
def PasswordsOwned (s : Stores) : Prop :=
  ∀ id, (s.accountPasswords.find id).isSome → (s.users.find id).isSome

/-- An id without an account has no password. -/
theorem hasPassword_of_unowned {s : Stores} (howned : PasswordsOwned s) {id : Int64}
    (h : ¬ (s.users.find id).isSome) : s.hasPassword id = false := by
  unfold Stores.hasPassword
  cases hrow : s.accountPasswords.find id with
  | none => rfl
  | some row => exact absurd (howned id (by rw [hrow]; rfl)) h

/-- Calls on other areas are quiet. -/
theorem quiet_of_area {area : Area} {x : StoreEvent} (h : x.1.area ≠ some area) : Quiet area x :=
  fun harea => absurd harea h

/-- **What `signIn` leaves.** -/
theorem signIn_outcome (lib : PhoneLibrary) (template : Authorization) (phoneNumber hash code : Bytes)
    (n : Nat) (s : Stores) :
    let o := (signIn lib template phoneNumber hash code true).run (StoreCall.attempt P) (atMoments moments) n s
    LoginOutcome template.authKeyId s o.state o.trace := by
  intro o
  have haround : Around (atMoments moments) (normalizePhone lib phoneNumber) (fun _ _ => True) fun _ => True :=
    ⟨fun _ _ => rfl, fun _ _ _ => trivial, fun _ _ _ => trivial, fun _ _ _ => trivial⟩
  have hrun : SignInRun True _ n template _ hash code true s.codes o.state.codes o.trace o.result :=
    signIn_run (attempts_attempt P) template phoneNumber hash code true haround n s trivial
  have hcodes : ∀ area {codes' tr result}, area ≠ Area.codes →
      VerifyRun True (fun _ _ => True) n (normalizePhone lib phoneNumber) hash code s.codes codes' tr result →
      ∀ x ∈ tr, Quiet area x := fun area _ _ _ hne hverify x hx => quiet_of_area (by
    rcases hverify.area_of_mem x hx with h | h <;> rw [h] <;> simp [Ne.symm hne])
  generalize htr : o.trace = trace at hrun
  generalize o.result = result at hrun
  generalize o.state.codes = codes' at hrun
  rw [← htr]
  cases hrun with
  | refused hverify | needSignUp hverify =>
    exact loginOutcome_of_quiet _ n s _ (fun x hx => hcodes .authorizations nofun hverify x (htr ▸ hx))
      (fun x hx => hcodes .passwords nofun hverify x (htr ▸ hx))
  | @bound tr reads u needed a answer hverify hreads ha =>
    have hpre : ∀ area, area ≠ .codes → ∀ x ∈ tr ++ reads, Quiet area x := fun area hne x hx => by
      rcases List.mem_append.mp hx with hx | hx
      · exact hcodes area hne hverify x hx
      · exact quiet_of_area (by rw [hreads.call_eq x hx]; nofun)
    -- The settings were read before the login, and nothing in between changes a password.
    have hneeded : needed = s.hasPassword u.id := by
      cases hreads with
      | read _ found =>
        rw [List.append_assoc] at htr
        obtain ⟨s', -, hs', hanswer, -⟩ := split_quiet htr
          (fun x hx => hpre .authorizations nofun x (by simp [hx]))
          (fun x hx => hpre .passwords nofun x (by simp [hx]))
        cases StoreCall.exec_of_attempt hanswer.symm
        rw [hasPassword_eq, hasPassword_congr hs']
    have hkey : template.authKeyId = a.authKeyId := by rw [ha]
    rw [hkey]
    exact loginOutcome_of_bind htr (hpre _ nofun) (hpre _ nofun) (by rw [ha]; exact hneeded)
  | @unreadPassword tr u e _ hverify =>
    have hquiet : ∀ area, area ≠ .codes → ∀ x ∈ tr ++ [event (.passwordsGetByUser u.id) (.error e)], Quiet area x :=
      fun area hne x hx => by
        rcases List.mem_append.mp hx with hx | hx
        · exact hcodes area hne hverify x hx
        · rw [List.mem_singleton.mp hx]
          exact fun _ => ⟨e, rfl⟩
    exact loginOutcome_of_quiet _ n s _ (fun x hx => hquiet .authorizations nofun x (htr ▸ hx))
      (fun x hx => hquiet .passwords nofun x (htr ▸ hx))

/-- **What `signUp` leaves.** -/
theorem signUp_outcome (lib : PhoneLibrary) (key : Arr 8) (phoneNumber hash firstName lastName : Bytes)
    (accessHash : Int64) (n : Nat) (s : Stores) (howned : PasswordsOwned s) :
    let o := (signUp lib { authKeyId := key } phoneNumber hash firstName lastName accessHash).run
      (StoreCall.attempt P) (atMoments moments) n s
    LoginOutcome key s o.state o.trace := by
  intro o
  have haround : Around (atMoments moments) (normalizePhone lib phoneNumber) (fun _ _ => True) fun _ => True :=
    ⟨fun _ _ => rfl, fun _ _ _ => trivial, fun _ _ _ => trivial, fun _ _ _ => trivial⟩
  have hrun : SignUpRun True _ n { authKeyId := key } _ hash firstName lastName accessHash s.codes o.state.codes
      o.trace o.result :=
    signUp_run (attempts_attempt P) { authKeyId := key } phoneNumber hash firstName lastName accessHash haround n s trivial
  generalize htr : o.trace = trace at hrun
  generalize o.result = result at hrun
  generalize o.state.codes = codes' at hrun
  have hquiet : (∀ x ∈ trace, Quiet .authorizations x) → (∀ x ∈ trace, Quiet .passwords x) →
      LoginOutcome key s o.state o.trace := fun h₁ h₂ =>
    loginOutcome_of_quiet _ n s _ (fun x hx => h₁ x (htr ▸ hx)) (fun x hx => h₂ x (htr ▸ hx))
  rw [← htr]
  cases hrun with
  | malformed | missing | unfit | claimed | claimedLate | notCreated | unread | unreadLate =>
    refine hquiet ?_ ?_ <;> simp [Quiet, StoreCall.area]
  | @created rec x y u a answer hrec hphone hverified ha =>
    -- the account is new, so it has no password
    have hnew : s.hasPassword u.id = false := by
      have henv : ∀ k s', (∀ id, (s.users.find id).isSome → (Table.find (Stores.users s') id).isSome) →
          ∀ id, (s.users.find id).isSome → ((atMoments moments k s').users.find id).isSome := fun _ _ hs => hs
      obtain ⟨s', hs', hanswer, -⟩ := Prog.run_split henv _ n s
        (htr.trans (List.append_cons [_, _, _, _] _ _).symm)
        (fun call s' _ hs id hid => (attempts_attempt P).users_isSome call s' id (hs id hid)) fun _ h => h
      have hcreate := StoreCall.exec_of_attempt hanswer.symm
      rcases write_cases (Stores.usersCreate _) s' with ⟨e, he⟩ | ⟨_, s'', hok, hw⟩
      · rw [StoreCall.exec, he] at hcreate
        cases hcreate
      · rw [StoreCall.exec, hw] at hcreate
        cases hcreate
        obtain ⟨hfresh, hid, -⟩ := Stores.usersCreate_eq_ok hok
        refine hasPassword_of_unowned howned fun hold => ?_
        have := hs' _ hold
        rw [hid, hfresh] at this
        cases this
    have hkey : key = a.authKeyId := by rw [ha]
    rw [hkey]
    refine loginOutcome_of_bind (htr.trans (List.append_cons [_, _, _, _, _] _ _).symm) ?_ ?_
      (by rw [ha]; exact hnew.symm)
    all_goals simp [Quiet, StoreCall.area]

end Runs

section Effects

variable (cfg : Config)

/-- A login is pending if there is a password, so it changes nothing about checks. -/
theorem LoginOutcome.effect (key : Arr 8) {h : Handled} (hout : LoginOutcome key h.before h.after h.trace)
    (husers : ∀ id, (h.before.users.find id).isSome → (h.after.users.find id).isSome) : Effect cfg h where
  hasPassword := hasPassword_congr hout.passwords
  rows id hid := hout.passwords ▸ hid
  users := husers
  login k row' hrow hpending hpassword := by
    refine .inr ?_
    rcases hout.logins with ⟨hsame, hkeys⟩ | ⟨row, hsame, hrow', hkeys⟩
    · rw [hkeys, ← hsame]
      exact ⟨List.not_mem_nil, row', hrow, rfl, hpending⟩
    · rw [hsame, Table.find_upsert] at hrow
      split at hrow
      · cases hrow
        rw [hpending, hpassword] at hrow'
        cases hrow'
      · next hne =>
        rw [hkeys]
        exact ⟨by simpa using hne, row', hrow, rfl, hpending⟩

theorem runHandler_users (s : Stores) (call : HandlerCall) (id : Int64) (h : (s.users.find id).isSome) :
    ((runHandler cfg s call).after.users.find id).isSome :=
  run_users_isSome _ 0 s id h

theorem effect_harmless (s : Stores) (call : HandlerCall) (hmethod : call.method.harmless = true) :
    Effect cfg (runHandler cfg s call) := by
  have honly := harmless_handle cfg call.draw call.ctx call.body hmethod
  have hmem : ∀ x ∈ (runHandler cfg s call).trace, Harmless x.1 := Prog.mem_trace_run honly 0 s
  refine LoginOutcome.effect cfg call.ctx.authKeyId ?_ (runHandler_users cfg s call)
  exact loginOutcome_of_quiet _ 0 s _ (fun x hx => quiet_of_area (hmem x hx).1)
    (fun x hx => quiet_of_area (hmem x hx).2)

theorem effect_signIn (s : Stores) (call : HandlerCall) (hmethod : call.method = .authSignIn) :
    Effect cfg (runHandler cfg s call) := by
  refine LoginOutcome.effect cfg call.ctx.authKeyId ?_ (runHandler_users cfg s call)
  unfold runHandler
  rw [hmethod]
  refine run_wrapped (Q := LoginOutcome call.ctx.authKeyId s) (fun req result => ?_) ⟨rfl, .inl ⟨rfl, rfl⟩⟩
    fun req => signIn_outcome cfg.phones { authKeyId := call.ctx.authKeyId } req.phoneNumber req.phoneCodeHash
      req.phoneCode 0 s
  split
  · exact ⟨_, rfl⟩
  · exact ⟨_, rfl⟩

theorem effect_signUp (s : Stores) (call : HandlerCall) (hmethod : call.method = .authSignUp)
    (howned : PasswordsOwned s) : Effect cfg (runHandler cfg s call) := by
  refine LoginOutcome.effect cfg call.ctx.authKeyId ?_ (runHandler_users cfg s call)
  unfold runHandler
  rw [hmethod]
  exact run_wrapped (Q := LoginOutcome call.ctx.authKeyId s) (fun req created => ⟨_, rfl⟩)
    ⟨rfl, .inl ⟨rfl, rfl⟩⟩
    fun req => signUp_outcome cfg.phones call.ctx.authKeyId req.phoneNumber req.phoneCodeHash req.firstName
      req.lastName call.draw.accessHash 0 s howned

/-- **What `getPassword` leaves**: the row of an account with a password may get a new challenge. -/
theorem getPassword_outcome (P : Primitives) (moments : Nat → Moment) (u : Int64) (draw : ChallengeDraw)
    (n : Nat) (s : Stores) :
    let o := (getPassword P u draw).run (StoreCall.attempt P) (atMoments moments) n s
    o.state.accountPasswords = s.accountPasswords ∨ ∃ settings, s.hasPassword u = true ∧
      settings.hasPassword = true ∧ o.state.accountPasswords = s.accountPasswords.upsert u (.ofSettings settings) := by
  unfold getPassword loadNormalized
  dsimp only
  rw [Prog.perform_bind_bind, Prog.run_perform_bind]
  rcases StoreCall.attempt_cases P (.passwordsGetByUser u) (atMoments moments n s) with heq | ⟨e, heq⟩
  case inr =>
    rw [heq]
    exact .inl rfl
  have hsame : (atMoments moments n s).passwordsGetByUser u = s.passwordsGetByUser u := rfl
  rw [heq]
  simp only [StoreCall.exec, Prog.ret_bind, hsame]
  cases hhas : (normalized (s.passwordsGetByUser u)).hasPassword with
  | false => exact .inl rfl
  | true =>
    simp only [Bool.not_true, Bool.false_eq_true, if_false]
    cases hnew : withChallenge P (normalized (s.passwordsGetByUser u)) draw with
    | error e => exact .inl rfl
    | ok settings =>
      simp only [Prog.run_perform_bind]
      generalize hs' : atMoments moments _ (atMoments moments n s) = s'
      have hs : s'.accountPasswords = s.accountPasswords := by rw [← hs']; rfl
      have hsave : StoreCall.attempt P (.passwordsSave u settings) s' = write (Stores.passwordsSave u settings) s' :=
        (attempts_attempt P).others _ s' rfl
      rw [hsave]
      rcases write_cases (Stores.passwordsSave u settings) s' with ⟨e, he⟩ | ⟨_, s'', hok, hw⟩
      · rw [he]
        exact .inl hs
      · rw [hw]
        cases hok
        refine .inr ⟨settings, ?_, ?_, ?_⟩
        · rw [← hasPassword_eq, ← hasPassword_normalized, hhas]
        · rw [hasPassword_withChallenge hnew, hhas]
        · show s'.accountPasswords.upsert u _ = _
          rw [hs]

theorem getPassword_only (P : Primitives) (u : Int64) (draw : ChallengeDraw) :
    (getPassword P u draw).Only fun call => call.area ≠ some .authorizations := by
  unfold getPassword loadNormalized
  refine Prog.Only.bind (Prog.Only.bind (Prog.only_perform nofun) fun _ => Prog.only_pure _) fun settings => ?_
  refine Prog.Only.ite (Prog.only_pure _) ?_
  split
  · exact Prog.only_throw _
  · exact Prog.Only.bind (Prog.only_perform nofun) fun _ => Prog.only_pure _

/-- What a new challenge changes: the row of one account, which keeps having its password. -/
def ChallengeOutcome (s s' : Stores) : Prop :=
  s'.accountPasswords = s.accountPasswords ∨ ∃ u settings, s.hasPassword u = true ∧
    settings.hasPassword = true ∧ s'.accountPasswords = s.accountPasswords.upsert u (.ofSettings settings)

theorem ChallengeOutcome.hasPassword {s s' : Stores} (h : ChallengeOutcome s s') (id : Int64) :
    s'.hasPassword id = s.hasPassword id := by
  rcases h with h | ⟨u, settings, hold, hnew, h⟩
  · exact hasPassword_congr h id
  · by_cases hid : id = u
    · rw [hid, hold, Stores.hasPassword, h, Table.find_upsert, if_pos rfl]
      exact hnew
    · rw [Stores.hasPassword, h, Table.find_upsert, if_neg hid]
      rfl

theorem ChallengeOutcome.rows {s s' : Stores} (h : ChallengeOutcome s s') (id : Int64)
    (hid : (s'.accountPasswords.find id).isSome) : (s.accountPasswords.find id).isSome := by
  rcases h with h | ⟨u, settings, hold, hnew, h⟩
  · exact h ▸ hid
  · rw [h, Table.find_upsert] at hid
    split at hid
    · next heq =>
      subst heq
      unfold Stores.hasPassword at hold
      cases hrow : s.accountPasswords.find id with
      | none =>
        rw [hrow] at hold
        cases hold
      | some row => rfl
    · exact hid

theorem effect_getPassword (s : Stores) (call : HandlerCall) (hmethod : call.method = .accountGetPassword) :
    Effect cfg (runHandler cfg s call) := by
  have honly : (handle cfg call.draw call.ctx call.body call.method).Only
      fun call => call.area ≠ some .authorizations := by
    rw [hmethod]
    refine Prog.Only.tryCatch (Prog.Only.bind (Prog.only_perform nofun) fun x => ?_) fun _ => Prog.only_pure _
    cases x with
    | none => exact Prog.only_pure _
    | some authz =>
      exact Prog.Only.ite ((getPassword_only _ _ _).bind fun _ => Prog.only_pure _) (Prog.only_pure _)
  have hquiet : ∀ x ∈ (runHandler cfg s call).trace, Quiet .authorizations x := fun x hx =>
    quiet_of_area (Prog.mem_trace_run honly 0 s x hx)
  have hsame : (runHandler cfg s call).after.authorizations = s.authorizations :=
    run_sameIn (attempts_attempt _) (sameIn_atMoments .authorizations call.moments) _ 0 s hquiet
  -- A challenge is stored for the account of the key, or nothing happens.
  have hpass : ChallengeOutcome s (runHandler cfg s call).after := by
    unfold runHandler
    simp only [hmethod, handle, handleAccountGetPassword, (run_answering _ _).1, Prog.run_perform_bind]
    rcases StoreCall.attempt_cases cfg.primitives (.authorizationsByAuthKey call.ctx.authKeyId)
      (atMoments call.moments 0 s) with heq | ⟨e, heq⟩
    case inr =>
      rw [heq]
      exact .inl rfl
    rw [heq]
    simp only [StoreCall.exec]
    cases (atMoments call.moments 0 s).authorizationsByAuthKey call.ctx.authKeyId with
    | none => exact .inl rfl
    | some authz =>
      by_cases hid : authz.userId = 0
      case pos =>
        simp only [hid, ne_eq, not_true_eq_false, if_false, Prog.run_pure]
        exact .inl rfl
      case neg =>
        simp only [hid, ne_eq, not_false_eq_true, if_true]
        rw [(run_bind_pure _ _ fun a => ⟨_, rfl⟩).1]
        rcases getPassword_outcome cfg.primitives call.moments authz.userId call.draw.challenge 1
          (atMoments call.moments 0 s) with h | ⟨settings, h⟩
        · exact .inl h
        · exact .inr ⟨authz.userId, settings, h⟩
  refine ⟨hpass.hasPassword, hpass.rows, runHandler_users cfg s call, fun k row' hrow hpending _ => .inr ⟨?_, ?_⟩⟩
  · rw [boundKeys_of_quiet hquiet]
    exact List.not_mem_nil
  · exact ⟨row', hsame ▸ hrow, rfl, hpending⟩

/-- **What the end of a check leaves**: the login that waited for it is no longer pending. -/
theorem completeLogin_outcome (P : Primitives) (moments : Nat → Moment) (k : Arr 8) (authz : Authorization)
    (n : Nat) (s : Stores) :
    let o := (completeLogin k authz).run (StoreCall.attempt P) (atMoments moments) n s
    o.state.authorizations = s.authorizations ∨
      ∃ row', o.state.authorizations = s.authorizations.upsert k row' ∧ row'.userId = authz.userId := by
  have hread : ∀ n s, ((StoreProg.usersById authz.userId >>= fun user => pure (.authorization (user.getD {})) :
      StoreProg Answer).run (StoreCall.attempt P) (atMoments moments) n s).state.authorizations = s.authorizations := by
    intro n s
    rw [Prog.run_perform_bind]
    rcases StoreCall.attempt_cases P (.usersById authz.userId) (atMoments moments n s) with heq | ⟨e, heq⟩
    · rw [heq]
      rfl
    · rw [heq]
      rfl
  unfold completeLogin
  cases authz.passwordPending with
  | false =>
    simp only [Bool.false_eq_true, if_false]
    exact .inl (hread n s)
  | true =>
    have hmark : StoreCall.attempt P (.authorizationsMarkPasswordPassed k authz.userId) (atMoments moments n s) =
        write (Stores.authorizationsMarkPasswordPassed k authz.userId) (atMoments moments n s) :=
      (attempts_attempt P).others _ _ rfl
    simp only [if_true]
    rw [Prog.run_perform_bind, hmark]
    rcases write_cases (Stores.authorizationsMarkPasswordPassed k authz.userId) (atMoments moments n s) with
      ⟨e, he⟩ | ⟨_, s', hok, hw⟩
    · rw [he]
      exact .inl rfl
    · rw [hw]
      refine .inr ?_
      unfold Stores.authorizationsMarkPasswordPassed at hok
      split at hok
      · cases hok
      · split at hok
        · next row hrow hguard =>
          cases hok
          exact ⟨_, hread (n + 1) _, hguard.1⟩
        · cases hok

/-- A check is a read, which may throw, and then as it is for a database that answers. -/
theorem checkPassword_run_attempt (P : Primitives) (env : Nat → Stores → Stores) (userId : Int64) (check : PasswordCheck)
    (n : Nat) (s : Stores) :
    (∃ e, (checkPassword P userId check).run (StoreCall.attempt P) env n s =
      { result := .error e, state := env n s, trace := [⟨.passwordsGetByUser userId, .error e⟩] }) ∨
    (checkPassword P userId check).run (StoreCall.attempt P) env n s =
      { result := checkSrp P (normalized ((env n s).passwordsGetByUser userId)) check
        state := env n s
        trace := [⟨.passwordsGetByUser userId, .ok ((env n s).passwordsGetByUser userId)⟩] } := by
  rw [← checkPassword_run]
  unfold checkPassword loadNormalized
  rw [Prog.perform_bind_bind, Prog.run_perform_bind, Prog.run_perform_bind]
  rcases StoreCall.attempt_cases P (.passwordsGetByUser userId) (env n s) with heq | ⟨e, heq⟩
  · rw [heq]
    simp only [StoreCall.exec, Prog.ret_bind]
    refine .inr ?_
    cases checkSrp P (normalized ((env n s).passwordsGetByUser userId)) check <;> rfl
  · rw [heq]
    exact .inl ⟨e, rfl⟩

/-- A passed check of the login under the key, of the password that was read, and the row it leaves. -/
def Completed (s : Stores) (h : Handled) (k : Arr 8) (body : Bytes) : Prop :=
  ∃ check rest row row', AuthCheckPasswordRequest.decodeBare body = .ok check rest ∧
    s.authorizations.find k = some row ∧
    ⟨.passwordsGetByUser row.userId, .ok (s.passwordsGetByUser row.userId)⟩ ∈ h.trace ∧
    checkSrp cfg.primitives (normalized (s.passwordsGetByUser row.userId)) check = .ok () ∧
    h.after.authorizations = s.authorizations.upsert k row' ∧ row'.userId = row.userId

/-- **What `auth.checkPassword` leaves.** -/
theorem handleAuthCheckPassword_outcome (s : Stores) (call : HandlerCall)
    (hmethod : call.method = .authCheckPassword) :
    (runHandler cfg s call).after.authorizations = s.authorizations ∨
      Completed cfg s (runHandler cfg s call) call.ctx.authKeyId call.body := by
  unfold runHandler
  simp only [hmethod, handle, handleAuthCheckPassword, run_decode_bind]
  cases hdecode : AuthCheckPasswordRequest.decodeBare call.body with
  | error e rest => exact .inl rfl
  | ok check rest =>
    simp only [(run_answering _ _).1, (run_answering _ _).2, Prog.run_perform_bind]
    rcases StoreCall.attempt_cases cfg.primitives (.authorizationsByAuthKey call.ctx.authKeyId)
      (atMoments call.moments 0 s) with heq | ⟨e, heq⟩
    case inr =>
      rw [heq]
      exact .inl rfl
    rw [heq]
    simp only [StoreCall.exec]
    have hfind : (atMoments call.moments 0 s).authorizationsByAuthKey call.ctx.authKeyId =
        (s.authorizations.find call.ctx.authKeyId).map fun a => Stores.rowToAuthorization (call.ctx.authKeyId, a) :=
      rfl
    rw [hfind]
    cases hrow : s.authorizations.find call.ctx.authKeyId with
    | none => exact .inl rfl
    | some row =>
      simp only [Option.map_some]
      split
      · exact .inl rfl
      · simp only [Prog.run_bind]
        rcases checkPassword_run_attempt cfg.primitives (atMoments call.moments)
          (Stores.rowToAuthorization (call.ctx.authKeyId, row)).userId check (0 + 1) (atMoments call.moments 0 s) with
          ⟨e, hrun⟩ | hrun
        case inl =>
          rw [hrun]
          exact .inl rfl
        rw [hrun]
        cases hcheck : checkSrp cfg.primitives (normalized (Stores.passwordsGetByUser _ _)) check with
        | error e => exact .inl rfl
        | ok _ =>
          rcases completeLogin_outcome cfg.primitives call.moments call.ctx.authKeyId
            (Stores.rowToAuthorization (call.ctx.authKeyId, row)) _ _ with hsame | ⟨row', hnew, huser⟩
          · exact .inl hsame
          · refine .inr ⟨check, rest, row, row', hdecode, hrow, ?_, hcheck, hnew, huser⟩
            exact List.mem_cons_of_mem _ List.mem_cons_self

theorem completeLogin_only (k : Arr 8) (authz : Authorization) :
    (completeLogin k authz).Only fun call => call.area ≠ some .passwords ∧ ∀ a, call ≠ .authorizationsBind a := by
  unfold completeLogin
  have hread : (StoreProg.usersById authz.userId >>= fun user => pure (.authorization (user.getD {})) :
      StoreProg Answer).Only fun call => call.area ≠ some .passwords ∧ ∀ a, call ≠ .authorizationsBind a :=
    Prog.Only.bind (Prog.only_perform ⟨nofun, nofun⟩) fun _ => Prog.only_pure _
  exact Prog.Only.ite (Prog.Only.bind (Prog.only_perform ⟨nofun, nofun⟩) fun _ => hread) hread

theorem handleAuthCheckPassword_only (ctx : RpcContext) (body : Bytes) :
    (handleAuthCheckPassword cfg ctx body).Only
      fun call => call.area ≠ some .passwords ∧ ∀ a, call ≠ .authorizationsBind a := by
  unfold handleAuthCheckPassword
  refine Prog.Only.bind ?_ fun check =>
    Prog.Only.tryCatch (Prog.Only.bind (Prog.only_perform ⟨nofun, nofun⟩) fun x => ?_) fun _ => Prog.only_pure _
  · unfold decode
    split
    · exact Prog.only_pure _
    · exact Prog.only_throw _
  · cases x with
    | none => exact Prog.only_pure _
    | some authz =>
      refine Prog.Only.ite (Prog.only_pure _) (Prog.Only.bind ?_ fun _ => completeLogin_only _ _)
      unfold checkPassword loadNormalized
      refine Prog.Only.bind (Prog.Only.bind (Prog.only_perform ⟨nofun, nofun⟩) fun _ => Prog.only_pure _)
        fun settings => ?_
      split
      · exact Prog.only_throw _
      · exact Prog.only_pure _

/-- The proof in a check that passes, for an account with a password. -/
theorem proof_of_passed {s : Stores} {check : PasswordCheck} {u : Int64}
    (hcheck : checkSrp cfg.primitives (normalized (s.passwordsGetByUser u)) check = .ok ())
    (hpassword : s.hasPassword u = true) : check.empty = false ∧ ∃ row, s.accountPasswords.find u = some row ∧
      srpCalcM1 cfg.primitives (checkSalt row) row.srpVerifier row.srpBSecret row.srpB check.a = .ok check.m1 := by
  have hhas : (normalized (s.passwordsGetByUser u)).hasPassword = true := by
    rw [hasPassword_normalized, hasPassword_eq, hpassword]
  obtain ⟨hempty, hproof⟩ := proof_of_checkSrp hhas hcheck
  refine ⟨hempty, ?_⟩
  unfold Stores.hasPassword at hpassword
  unfold Stores.passwordsGetByUser at hproof
  cases hfind : s.accountPasswords.find u with
  | none =>
    rw [hfind] at hpassword
    cases hpassword
  | some row =>
    refine ⟨row, rfl, ?_⟩
    obtain ⟨hv, hb, hB⟩ := srpVerifier_normalizePasswordSettings row.toSettings
    rw [hfind, Option.map_some, show normalized (some row.toSettings) = normalizePasswordSettings row.toSettings
      from rfl, hv, hb, hB] at hproof
    exact hproof

/-- A check that passes, for an account with a password, is a `PassedCheck`. -/
theorem passedCheck_runHandler (s : Stores) (call : HandlerCall) (hmethod : call.method = .authCheckPassword)
    {check : PasswordCheck} {rest : Bytes} {row : Authorization}
    (hdecode : AuthCheckPasswordRequest.decodeBare call.body = .ok check rest)
    (hrow : s.authorizations.find call.ctx.authKeyId = some row)
    (hread : ⟨.passwordsGetByUser row.userId, .ok (s.passwordsGetByUser row.userId)⟩ ∈ (runHandler cfg s call).trace)
    (hcheck : checkSrp cfg.primitives (normalized (s.passwordsGetByUser row.userId)) check = .ok ())
    (hpassword : s.hasPassword row.userId = true) :
    PassedCheck cfg call.ctx.authKeyId row.userId (runHandler cfg s call) := by
  obtain ⟨hempty, pw, hpw, hproof⟩ := proof_of_passed cfg hcheck hpassword
  have hran : ((checkPassword cfg.primitives row.userId check).exec (StoreCall.exec cfg.primitives) s).result =
      .ok () := by
    rw [Prog.exec, checkPassword_run]
    exact hcheck
  exact ⟨hmethod, rfl, ⟨row, hrow, rfl⟩, hread, check, rest, pw, hdecode, hempty, hran, hpw, hproof⟩

theorem boundKeys_of_noBind {trace : List StoreEvent} (h : ∀ x ∈ trace, ∀ a, x.1 ≠ .authorizationsBind a) :
    boundKeys trace = [] := by
  refine List.filterMap_eq_nil_iff.mpr fun x hx => ?_
  obtain ⟨call, answer⟩ := x
  cases call with
  | authorizationsBind a => exact absurd rfl (h _ hx a)
  | _ => rfl

theorem effect_checkPassword (s : Stores) (call : HandlerCall) (hmethod : call.method = .authCheckPassword) :
    Effect cfg (runHandler cfg s call) := by
  have hmem : ∀ x ∈ (runHandler cfg s call).trace,
      x.1.area ≠ some .passwords ∧ ∀ a, x.1 ≠ .authorizationsBind a := by
    unfold runHandler
    rw [hmethod]
    exact Prog.mem_trace_run (handleAuthCheckPassword_only cfg call.ctx call.body) 0 s
  have hpass : (runHandler cfg s call).after.accountPasswords = s.accountPasswords :=
    run_sameIn (attempts_attempt _) (sameIn_atMoments .passwords call.moments) _ 0 s fun x hx => quiet_of_area (hmem x hx).1
  have hkeys : boundKeys (runHandler cfg s call).trace = [] := boundKeys_of_noBind fun x hx => (hmem x hx).2
  refine ⟨hasPassword_congr hpass, fun id hid => hpass ▸ hid, runHandler_users cfg s call,
    fun k row' hrow' hpending hpassword => ?_⟩
  rw [hkeys]
  rcases handleAuthCheckPassword_outcome cfg s call hmethod with
    hsame | ⟨check, rest, row, new, hdecode, hrow, hread, hcheck, hnew, huser⟩
  · exact .inr ⟨List.not_mem_nil, row', hsame ▸ hrow', rfl, hpending⟩
  · rw [hnew, Table.find_upsert] at hrow'
    split at hrow'
    · next hk =>
      cases hrow'
      subst hk
      rw [huser] at hpassword ⊢
      exact .inl (passedCheck_runHandler cfg s call hmethod hdecode hrow hread hcheck hpassword)
    · exact .inr ⟨List.not_mem_nil, row', hrow', rfl, hpending⟩

/-- **What every handler does.** -/
theorem effect_runHandler (s : Stores) (call : HandlerCall) (howned : PasswordsOwned s) :
    Effect cfg (runHandler cfg s call) := by
  cases hmethod : call.method with
  | authSignIn => exact effect_signIn cfg s call hmethod
  | authSignUp => exact effect_signUp cfg s call hmethod howned
  | accountGetPassword => exact effect_getPassword cfg s call hmethod
  | authCheckPassword => exact effect_checkPassword cfg s call hmethod
  | _ => exact effect_harmless cfg s call (by rw [hmethod]; rfl)

/-- An empty check never completes a login to an account with a password. -/
theorem emptyCheckRefused_runHandler (s : Stores) (call : HandlerCall) :
    EmptyCheckRefused (runHandler cfg s call) := by
  intro check rest row hmethod hdecode hempty hrow hpassword
  rcases handleAuthCheckPassword_outcome cfg s call hmethod with
    hsame | ⟨check', rest', row', new, hdecode', hrow', -, hcheck, -, -⟩
  · exact hsame
  · cases hdecode.symm.trans hdecode'
    cases hrow.symm.trans hrow'
    have hpassword' : s.hasPassword row.userId = true := hpassword
    rw [checkSrp_empty hempty, hasPassword_normalized, hasPassword_eq, hpassword'] at hcheck
    cases hcheck

end Effects

/-! ## Every sequence -/

/-- The invariant: what the history says about the logins, and whose the passwords are. -/
structure GateInv (cfg : Config) (hist : List Handled) (s : Stores) : Prop where
  checked : ∀ k row, s.authorizations.find k = some row → row.passwordPending = false →
    s.hasPassword row.userId = true → CheckedSinceLogin cfg k row.userId hist
  owned : PasswordsOwned s
  emptyRefused : ∀ h ∈ hist, EmptyCheckRefused h

/-- **One call keeps the invariant.** -/
theorem gateInv_step {cfg : Config} {hist : List Handled} {s : Stores} (hinv : GateInv cfg hist s)
    (call : HandlerCall) :
    GateInv cfg (hist ++ [runHandler cfg s call]) (runHandler cfg s call).after := by
  have heffect := effect_runHandler cfg s call hinv.owned
  refine ⟨fun k row' hrow' hpending hpassword => ?_, fun id hid => ?_, fun h hh => ?_⟩
  · rw [heffect.hasPassword] at hpassword
    rcases heffect.login k row' hrow' hpending hpassword with hpassed | ⟨hkeys, row, hrow, huser, hpending'⟩
    · exact since_snoc_self _ hpassed
    · rw [← huser] at hpassword ⊢
      exact (hinv.checked k row hrow hpending' hpassword).snoc hkeys
  · exact heffect.users id (hinv.owned id (heffect.rows id hid))
  · rcases List.mem_append.mp hh with hh | hh
    · exact hinv.emptyRefused h hh
    · rw [List.mem_singleton.mp hh]
      exact emptyCheckRefused_runHandler cfg s call

theorem runHandlers_gateInv (cfg : Config) (calls : List HandlerCall) (s : Stores)
    (hs : s.authorizations = Table.empty) (howned : PasswordsOwned s) :
    GateInv cfg (runHandlers cfg calls s).1 (runHandlers cfg calls s).2 := by
  induction calls using List.reverseRecOn with
  | nil =>
    refine ⟨fun k row hrow => ?_, howned, fun h hh => absurd hh List.not_mem_nil⟩
    rw [show (runHandlers cfg [] s).2 = s from rfl, hs] at hrow
    cases hrow
  | append_singleton calls call ih =>
    rw [runHandlers_snoc]
    exact gateInv_step ih call

/-- Who counts as logged in has a login that is not pending. -/
theorem row_of_resolveCurrentUser {P : Primitives} {k : Arr 8} {u : Int64} {s : Stores}
    (h : ((resolveCurrentUser k).exec (StoreCall.exec P) s).result = .ok { userId := u, authorized := true }) :
    ∃ row, s.authorizations.find k = some row ∧ row.passwordPending = false ∧ row.userId = u := by
  unfold resolveCurrentUser at h
  rw [Prog.exec, Prog.run_perform_bind] at h
  simp only [StoreCall.exec, Prog.idle, Stores.authorizationsByAuthKey] at h
  cases hrow : s.authorizations.find k with
  | none =>
    rw [hrow] at h
    cases h
  | some row =>
    simp only [hrow, Option.map_some, Stores.rowToAuthorization] at h
    cases hpending : row.passwordPending with
    | true =>
      simp only [hpending] at h
      cases h
    | false =>
      simp only [hpending] at h
      cases h
      exact ⟨row, rfl, hpending, rfl⟩

/-- **The second factor cannot be passed by**, in any sequence of calls from stores without logins, where
passwords belong to accounts, whichever reads and writes of the calls throw. -/
theorem runHandlers_twoFactorGate (cfg : Config) (calls : List HandlerCall) (s : Stores)
    (hs : s.authorizations = Table.empty) (howned : PasswordsOwned s) :
    TwoFactorGate cfg (runHandlers cfg calls s).1 (runHandlers cfg calls s).2 := by
  have hinv := runHandlers_gateInv cfg calls s hs howned
  refine ⟨hinv.checked, fun k u hcurrent hpassword => ?_, hinv.emptyRefused⟩
  obtain ⟨row, hrow, hpending, rfl⟩ := row_of_resolveCurrentUser hcurrent
  exact hinv.checked k row hrow hpending hpassword

/-! ## A login with a password -/

def sampleConfig : Config := { primitives := constPrimitives, phones := sampleLibrary, otpSender := none }

def samplePasswords : Table Int64 PasswordRow :=
  Table.empty.upsert 7 { hasPassword := true, srpVerifier := [2] }

/-- The sample account with a password. -/
def sampleGuarded : Stores := { sampleStores with accountPasswords := samplePasswords }

theorem sampleGuarded_owned : PasswordsOwned sampleGuarded := by
  intro id hid
  simp only [sampleGuarded, samplePasswords, sampleStores, ownedBy, Table.find_upsert, Table.find_empty] at hid ⊢
  split
  · rfl
  · next hne => simp [hne] at hid

def sampleCall (method : Method) (body : Bytes) : HandlerCall :=
  { method, body
    ctx := { authKeyId := Arr.zero 8, sessionId := 1 }
    draw :=
      { sendCode := sampleDraw, accessHash := 77, challenge := { secret := Arr.zero 256, srpId := 5 }, now := 1000 }
    moments := fun _ => { now := 1000, newUserId := 8 } }

/-- The proof of the password. -/
def sampleProof : HandlerCall :=
  sampleCall .authCheckPassword (putId inputCheckPasswordSrpTypeId ++ putLong 5 ++ putBytes [2] ++
    putBytes (List.replicate 32 1))

/-- The code, the login that waits for the password, the challenge, and the proof, once without an answer of the
database and once with. -/
def sampleCalls : List HandlerCall :=
  [sampleCall .authSendCode (putBytes samplePhone ++ putInt32 0 ++ putBytes [] ++ putUint32 0),
    sampleCall .authSignIn (putUint32 1 ++ putBytes samplePhone ++ putBytes sampleHash ++ putBytes sampleCode),
    sampleCall .accountGetPassword [],
    { sampleProof with moments := fun _ => { now := 1000, newUserId := 8, unread := some "08006" } }, sampleProof]

theorem runHandlers_twoFactorGate_sample :
    TwoFactorGate sampleConfig (runHandlers sampleConfig sampleCalls sampleGuarded).1
        (runHandlers sampleConfig sampleCalls sampleGuarded).2 ∧
      ((runHandlers sampleConfig sampleCalls sampleGuarded).2.authorizations.find (Arr.zero 8)).map
        (fun row => (row.userId, row.passwordPending)) = some (7, false) ∧
      (runHandlers sampleConfig sampleCalls sampleGuarded).2.hasPassword 7 = true :=
  ⟨runHandlers_twoFactorGate sampleConfig sampleCalls sampleGuarded rfl sampleGuarded_owned, by decide +kernel,
    by decide +kernel⟩

end ShuzaGram.Server

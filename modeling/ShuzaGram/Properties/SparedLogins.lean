import ShuzaGram.Properties.LoginBaseline
import ShuzaGram.Properties.LoginClients

/-!
# What other clients leave alone

What a login needs from one request to the next: the phone stays with its account, the key can be logged in, the code
and the password stay as they are. None of it is spoiled by what other clients do.

* `Stores.Owns`, `Stores.CanBind`, `Stores.LoggedIn` — what a login needs, and what it does
* `Stores.UserStep` — what a call on accounts does
* `spared_attempt` — a call that spares a login leaves it alone
* `guard_attempt` — every client keeps what the clients rely on
-/

namespace ShuzaGram.Store

open Infra Domain Mtproto.Crypto

/-! ## What a login needs -/

namespace Stores

/-- The phone belongs to a live account, and to no other one. -/
structure Owns (s : Stores) (phone : Bytes) (userId : Int64) : Prop where
  live : ∃ row, s.users.find userId = some row ∧ row.phone = phone ∧ row.deleted = false
  only : ∀ id row, s.users.find id = some row → row.phone = phone → row.deleted = false → id = userId

/-- `Bind` accepts a login of the key to the account: the key is permanent, and its update delivery is in order. -/
structure CanBind (s : Stores) (k : Arr 8) (userId : Int64) : Prop where
  key : ∃ row, s.authKeys.find k = some row ∧ row.expiresAt = 0 ∧
    ¬(row.layer < 0 ∨ row.layerObservationId < 0 ∨ row.layerObservationId > 0 ∧ row.layer = 0)
  retained : s.retainedThroughPts userId ≤ s.contiguousPts userId
  delivered : ∀ old, s.updateStates.find (k, userId) = some old →
    0 ≤ old.pts ∧ old.pts ≤ s.contiguousPts userId ∧ old.observedPts ≤ s.contiguousPts userId

/-- The key is logged in, or waits for the password. -/
def LoggedIn (s : Stores) (k : Arr 8) (userId : Int64) (pending : Bool) : Prop :=
  ∃ row, s.authorizations.find k = some row ∧ row.userId = userId ∧ row.passwordPending = pending

variable {s s' : Stores} {phone : Bytes} {userId : Int64} {k : Arr 8}

theorem Owns.usersByPhone (h : Owns s phone userId) (hphone : phone ≠ []) :
    ∃ row, s.users.find userId = some row ∧ s.usersByPhone phone = some (rowToUser (userId, row)) := by
  obtain ⟨row, hrow, hhas, hlive⟩ := h.live
  refine ⟨row, hrow, ?_⟩
  have hsome : (s.users.findBy fun r => r.2.phone = phone && !r.2.deleted).isSome = true := by
    rw [Table.findBy, List.find?_isSome]
    exact ⟨(userId, row), Table.find_eq_some_iff.mp hrow, by simp [hhas, hlive]⟩
  obtain ⟨⟨id, row'⟩, hfind⟩ := Option.isSome_iff_exists.mp hsome
  obtain ⟨hrow', hmatch⟩ := Table.findBy_eq_some hfind
  simp only [Bool.and_eq_true, decide_eq_true_eq, Bool.not_eq_true'] at hmatch
  have hid := h.only id row' hrow' hmatch.1 hmatch.2
  subst hid
  cases hrow.symm.trans hrow'
  rw [Stores.usersByPhone, phoneOwner, if_neg hphone, hfind]
  rfl

/-! ### Writes of accounts -/

/-- What a write of accounts does: nothing, a change that leaves phone and life alone, or a new account whose phone was
free. -/
inductive UserStep (s : Stores) : Stores → Prop where
  | same : UserStep s s
  | change {id : Int64} {r r' : User} (t : Table Bytes PeerUsername) (hfind : s.users.find id = some r)
      (hphone : r'.phone = r.phone) (hdeleted : r'.deleted = r.deleted) :
      UserStep s { s with users := s.users.upsert id r', peerUsernames := t }
  | create {row : User} (t : Table Bytes PeerUsername) (hnew : s.users.find s.moment.newUserId = none)
      (hfree : s.phoneTaken row.phone = false) :
      UserStep s { s with users := s.users.upsert s.moment.newUserId row, peerUsernames := t }

theorem userStep_usersCreate {user u : User} (h : usersCreate user s = .ok (u, s')) : UserStep s s' := by
  obtain ⟨hnew, -⟩ := usersCreate_eq_ok h
  unfold usersCreate at h
  simp only [bind, Except.bind, pure, Except.pure, throw, throwThe, MonadExceptOf.throw] at h
  split at h
  · cases h
  · split at h
    · cases h
    · next hfree =>
      split at h
      · cases h
      · split at h
        · split at h
          · cases h
          · next s'' hreplace =>
            cases h
            obtain ⟨t, rfl⟩ := replacePeerUsername_eq_ok hreplace
            exact .create t hnew (by simpa using hfree)
        · cases h
          exact .create s.peerUsernames hnew (by simpa using hfree)

theorem userStep_updateLive {id : Int64} {f : User → User} {u : User} (h : s.updateLive id f = some (u, s'))
    (hf : ∀ r, (f r).phone = r.phone ∧ (f r).deleted = r.deleted) : UserStep s s' := by
  obtain ⟨r, hfind, -, -, rfl⟩ := updateLive_eq_some h
  exact .change s.peerUsernames hfind (hf r).1 (hf r).2

theorem userStep_updateOrThrow {id : Int64} {f : User → User}
    (hf : ∀ r, (f r).phone = r.phone ∧ (f r).deleted = r.deleted) (s : Stores) :
    UserStep s (write (updateOrThrow id f) s).2 := by
  refine write_post .same fun u s' h => ?_
  unfold updateOrThrow at h
  split at h
  · cases h
  · next hlive =>
    cases h
    exact userStep_updateLive hlive hf

/-- **Every call on accounts is such a step.** -/
theorem userStep_exec (P : Primitives) {call : StoreCall} (harea : call.area = some .users) (s : Stores) :
    UserStep s (call.exec P s).2 := by
  cases call with
  | usersCreate user => exact write_post .same fun u s' h => userStep_usersCreate h
  | usersUpdateLastSeen id t =>
    refine write_post .same fun u s' h => ?_
    unfold usersUpdateLastSeen at h
    split at h
    · cases h
      exact .same
    · next hlive =>
      cases h
      exact userStep_updateLive hlive fun _ => ⟨rfl, rfl⟩
  | usersUpdateProfile id f l a =>
    refine userStep_updateOrThrow (fun r => ?_) s
    exact ⟨rfl, rfl⟩
  | usersUpdateUsername id username =>
    refine write_post .same fun u s' h => ?_
    obtain ⟨r, t, hfind, -, -, -, rfl⟩ := usersUpdateUsername_eq_ok h
    exact .change t hfind rfl rfl
  | usersUpdateBirthday id b =>
    refine userStep_updateOrThrow (fun r => ?_) s
    exact ⟨rfl, rfl⟩
  | _ => cases harea

/-- A phone stays with its account. -/
theorem UserStep.owns (hstep : UserStep s s') (hphone : phone ≠ []) (h : Owns s phone userId) :
    Owns s' phone userId := by
  cases hstep with
  | same => exact h
  | @change id r r' t hfind hsame hdeleted =>
    obtain ⟨⟨row, hrow, hhas, hlive⟩, honly⟩ := h
    refine ⟨?_, fun id' row' hrow' hhas' hlive' => ?_⟩
    · by_cases hid : userId = id
      · subst hid
        cases hrow.symm.trans hfind
        exact ⟨r', by simp, hsame.trans hhas, hdeleted.trans hlive⟩
      · exact ⟨row, by simpa [hid] using hrow, hhas, hlive⟩
    · by_cases hid : id' = id
      · subst hid
        simp only [Table.find_upsert, if_true, Option.some.injEq] at hrow'
        subst hrow'
        exact honly _ r hfind (hsame.symm.trans hhas') (hdeleted.symm.trans hlive')
      · exact honly id' row' (by simpa [hid] using hrow') hhas' hlive'
  | @create new t hnew hfree =>
    obtain ⟨⟨row, hrow, hhas, hlive⟩, honly⟩ := h
    -- a new account with this phone would have found it taken
    have hother : new.phone ≠ phone := by
      rintro rfl
      have htaken : s.phoneTaken new.phone = true := by
        simp only [phoneTaken, Bool.and_eq_true, decide_eq_true_eq, List.any_eq_true, Bool.not_eq_true']
        exact ⟨hphone, (userId, row), Table.find_eq_some_iff.mp hrow, hlive, hhas⟩
      rw [hfree] at htaken
      cases htaken
    refine ⟨⟨row, ?_, hhas, hlive⟩, fun id' row' hrow' hhas' hlive' => ?_⟩
    · have hid : userId ≠ s.moment.newUserId := by
        rintro rfl
        rw [hnew] at hrow
        cases hrow
      simpa [hid] using hrow
    · by_cases hid : id' = s.moment.newUserId
      · simp only [hid, Table.find_upsert, if_true, Option.some.injEq] at hrow'
        exact absurd (hrow' ▸ hhas') hother
      · exact honly id' row' (by simpa [hid] using hrow') hhas' hlive'

/-! ### Other logins -/

/-- Such a login goes through. -/
theorem CanBind.binds (h : CanBind s k userId) (hlive : s.Live userId) (P : Primitives) {a : Authorization}
    (hkey : a.authKeyId = k) (huser : a.userId = userId) :
    ∃ s', authorizationsBind P a s = .ok ((), s') := by
  subst hkey huser
  obtain ⟨u, hu, hdeleted⟩ := hlive
  obtain ⟨key, hkey, hpermanent, hlayer⟩ := h.key
  have hguard : s.bindGuard a.userId a.authKeyId = .ok key.layer := by
    simp only [bindGuard, hu, hdeleted, hkey, hpermanent, hlayer, ne_eq, not_true_eq_false, if_false,
      Bool.false_eq_true]
    rfl
  have hbase : ∃ s₁, s.bindBaseline a.userId a.authKeyId = .ok s₁ := by
    have hretained : ¬(s.retention.find a.userId).getD 0 > (s.watermarks.find a.userId).getD 0 :=
      Int.not_lt.mpr h.retained
    unfold bindBaseline
    simp only [hretained, if_false]
    cases hold : s.updateStates.find (a.authKeyId, a.userId) with
    | none => exact ⟨_, rfl⟩
    | some old =>
      have hdelivered : 0 ≤ old.pts ∧ old.pts ≤ (s.watermarks.find a.userId).getD 0 ∧
          old.observedPts ≤ (s.watermarks.find a.userId).getD 0 := h.delivered old hold
      simp only [if_pos hdelivered]
      exact ⟨_, rfl⟩
  obtain ⟨s₁, hs₁⟩ := hbase
  unfold authorizationsBind
  simp only [hguard, hs₁, bind, Except.bind]
  exact ⟨_, rfl⟩

/-- A login of another key. -/
theorem CanBind.bind (h : CanBind s k userId) {P : Primitives} {a : Authorization} (ha : a.authKeyId ≠ k)
    (hbind : authorizationsBind P a s = .ok ((), s')) : CanBind s' k userId := by
  obtain ⟨layer, s₁, -, hbase, rfl⟩ := authorizationsBind_inv P hbind
  obtain ⟨-, st, -, rfl⟩ := bindBaseline_sets hbase
  have hpts : ∀ id, ((s.watermarks.upsert a.userId (s.contiguousPts a.userId)).find id).getD 0 =
      s.contiguousPts id := by
    intro id
    rw [Table.find_upsert]
    by_cases hid : id = a.userId
    · rw [if_pos hid, hid]
      rfl
    · rw [if_neg hid]
      rfl
  have hretained : ∀ id, ((s.retention.upsert a.userId (s.retainedThroughPts a.userId)).find id).getD 0 =
      s.retainedThroughPts id := by
    intro id
    rw [Table.find_upsert]
    by_cases hid : id = a.userId
    · rw [if_pos hid, hid]
      rfl
    · rw [if_neg hid]
      rfl
  refine ⟨h.key, ?_, fun old hold => ?_⟩
  · simp only [retainedThroughPts, contiguousPts] at hpts hretained ⊢
    rw [hpts, hretained]
    exact h.retained
  · simp only [contiguousPts] at hpts ⊢
    rw [hpts]
    refine h.delivered old ?_
    rw [Table.find_eraseBy, Table.find_upsert, if_neg fun heq => ha (congrArg Prod.fst heq).symm] at hold
    exact Option.eq_some_of_filter_eq_some hold

end Stores

end ShuzaGram.Store

namespace ShuzaGram.Server

open Infra Domain Store Mtproto Mtproto.Messages Mtproto.Crypto Auth Users
open StoreProg

/-! ## What the other clients leave alone -/

/-- What a login needs is still there, and what it did is not undone. -/
structure Spared (l : PendingLogin) (phone : Bytes) (s s' : Stores) : Prop where
  owns : s.Owns phone l.userId → s'.Owns phone l.userId
  canBind : s.CanBind l.key l.userId → s'.CanBind l.key l.userId
  code : s'.codes.find l.hash = s.codes.find l.hash
  login : s'.authorizations.find l.key = s.authorizations.find l.key
  password : s'.accountPasswords.find l.userId = s.accountPasswords.find l.userId

section Spared

variable {P : Primitives} {l : PendingLogin} {phone : Bytes} {s s' s'' : Stores}

/-- Nothing of it changes. -/
theorem spared_of_eq (husers : s'.users = s.users) (hkeys : s'.authKeys = s.authKeys)
    (hstates : s'.updateStates = s.updateStates) (hmarks : s'.watermarks = s.watermarks)
    (hretention : s'.retention = s.retention) (hcode : s'.codes.find l.hash = s.codes.find l.hash)
    (hlogin : s'.authorizations.find l.key = s.authorizations.find l.key)
    (hpassword : s'.accountPasswords.find l.userId = s.accountPasswords.find l.userId) : Spared l phone s s' where
  owns h := ⟨husers ▸ h.live, husers ▸ h.only⟩
  canBind h := by
    refine ⟨hkeys ▸ h.key, ?_, ?_⟩
    · simpa only [Stores.retainedThroughPts, Stores.contiguousPts, hmarks, hretention] using h.retained
    · simpa only [Stores.contiguousPts, hmarks, hstates] using h.delivered
  code := hcode
  login := hlogin
  password := hpassword

theorem find_verifyLogin_of_ne {codes : Codes} {hash h p c : Bytes} {keep : Bool} {dflt : Int} (hne : h ≠ hash) :
    (codes.verifyLogin hash p c keep dflt).2.find h = codes.find h := by
  unfold Codes.verifyLogin
  split
  · rfl
  · split
    · rfl
    · split
      · exact Codes.find_countWrong_of_ne hne
      · split
        · exact Table.find_upsert_of_ne hne _
        · exact Table.find_erase_of_ne hne

theorem find_consumeSignUpVerified_of_ne {codes : Codes} {hash h p : Bytes} (hne : h ≠ hash) :
    (codes.consumeSignUpVerified hash p).2.find h = codes.find h := by
  unfold Codes.consumeSignUpVerified
  split
  · rfl
  · split
    · rfl
    · exact Table.find_erase_of_ne hne

theorem spared_userStep (h : s.UserStep s') (hphone : phone ≠ []) : Spared l phone s s' := by
  refine ⟨h.owns hphone, fun hbind => ?_, ?_, ?_, ?_⟩
  · cases h with
    | same => exact hbind
    | change => exact ⟨hbind.key, hbind.retained, hbind.delivered⟩
    | create => exact ⟨hbind.key, hbind.retained, hbind.delivered⟩
  all_goals
    cases h with
    | same => rfl
    | change => rfl
    | create => rfl

theorem spared_authorizationsBind {a : Authorization} (ha : a.authKeyId ≠ l.key) (s : Stores) :
    Spared l phone s (write (Stores.authorizationsBind P a) s).2 := by
  refine Stores.write_post (spared_of_eq rfl rfl rfl rfl rfl rfl rfl rfl) fun u s' h => ?_
  refine ⟨fun howns => ?_, fun hbind => hbind.bind ha h, ?_, ?_, ?_⟩
  · obtain ⟨-, w, r, t, row, rfl, -, -⟩ := Stores.authorizationsBind_eq_ok P h
    exact ⟨howns.live, howns.only⟩
  · obtain ⟨-, w, r, t, row, rfl, -, -⟩ := Stores.authorizationsBind_eq_ok P h
    rfl
  · exact (Stores.authorizationsBind_sets h).otherLogins l.key (Ne.symm ha)
  · obtain ⟨-, w, r, t, row, rfl, -, -⟩ := Stores.authorizationsBind_eq_ok P h
    rfl

theorem spared_authorizationsMarkPasswordPassed {k : Arr 8} {id : Int64} (hk : k ≠ l.key) (s : Stores) :
    Spared l phone s (write (Stores.authorizationsMarkPasswordPassed k id) s).2 := by
  refine Stores.write_post (spared_of_eq rfl rfl rfl rfl rfl rfl rfl rfl) fun u s' h => ?_
  unfold Stores.authorizationsMarkPasswordPassed at h
  split at h
  · cases h
  · split at h
    · cases h
      exact spared_of_eq rfl rfl rfl rfl rfl rfl (Table.find_upsert_of_ne (Ne.symm hk) _) rfl
    · cases h

theorem spared_passwordsSave {id : Int64} {settings : PasswordSettings} (hid : id ≠ l.userId) (s : Stores) :
    Spared l phone s (write (Stores.passwordsSave id settings) s).2 := by
  refine Stores.write_post (spared_of_eq rfl rfl rfl rfl rfl rfl rfl rfl) fun u s' h => ?_
  cases h
  exact spared_of_eq rfl rfl rfl rfl rfl rfl rfl (Table.find_upsert_of_ne (Ne.symm hid) _)

/-- **What the other clients call leaves a login alone.** -/
theorem spared_exec {call : StoreCall} (h : l.Spares call) (hphone : phone ≠ []) (s : Stores) :
    Spared l phone s (call.exec P s).2 := by
  by_cases harea : call.area = some .users
  case pos => exact spared_userStep (Stores.userStep_exec P harea s) hphone
  case neg =>
    cases call with
    | codesSet hash code => exact spared_of_eq rfl rfl rfl rfl rfl (Table.find_upsert_of_ne (Ne.symm h) _) rfl rfl
    | codesDel hash => exact spared_of_eq rfl rfl rfl rfl rfl (Table.find_erase_of_ne (Ne.symm h)) rfl rfl
    | codesVerifyLogin hash => exact spared_of_eq rfl rfl rfl rfl rfl (find_verifyLogin_of_ne (Ne.symm h)) rfl rfl
    | codesConsumeSignUpVerified hash =>
      exact spared_of_eq rfl rfl rfl rfl rfl (find_consumeSignUpVerified_of_ne (Ne.symm h)) rfl rfl
    | authorizationsBind a => exact spared_authorizationsBind h.1 s
    | authorizationsMarkPasswordPassed k id => exact spared_authorizationsMarkPasswordPassed h s
    | passwordsSave id settings => exact spared_passwordsSave h s
    | codesGet | usersById | usersByIds | usersByPhone | usersByUsername =>
      exact spared_of_eq rfl rfl rfl rfl rfl rfl rfl rfl
    | authorizationsByAuthKey | authorizationsListByUser | passwordsGetByUser | otpDeliver =>
      exact spared_of_eq rfl rfl rfl rfl rfl rfl rfl rfl
    | usersCreate | usersUpdateLastSeen | usersUpdateProfile | usersUpdateUsername | usersUpdateBirthday =>
      exact absurd rfl harea

theorem spared_attempt {call : StoreCall} (h : l.Spares call) (hphone : phone ≠ []) (s : Stores) :
    Spared l phone s (call.attempt P s).2 := by
  rcases StoreCall.attempt_cases P call s with heq | ⟨e, heq⟩
  · rw [heq]
    exact spared_exec h hphone s
  · rw [heq]
    exact spared_of_eq rfl rfl rfl rfl rfl rfl rfl rfl

end Spared

/-! ### What all the clients keep -/

section Guard

variable {P : Primitives} {l : PendingLogin} {r : Request}

theorem guard_passwordsSave {id : Int64} {settings : PasswordSettings} (hsettings : settings.hasPassword = true)
    (hrow : ∃ s, l.Guard s ∧ s.hasPassword id = true) {s : Stores} (hs : l.Guard s) :
    l.Guard (write (Stores.passwordsSave id settings) s).2 := by
  obtain ⟨s₀, hs₀, hrow⟩ := hrow
  refine Stores.write_post hs fun u s' hsave => ?_
  cases hsave
  refine ⟨?_, hs.strangers⟩
  by_cases hid : id = l.userId
  · subst hid
    rw [← hs₀.hasPassword, hrow]
    simp [Stores.hasPassword, PasswordRow.ofSettings, hsettings]
  · rw [← hs.hasPassword]
    simp [Stores.hasPassword, Ne.symm hid]

theorem guard_authorizationsBind {a : Authorization} (ha : a.authKeyId ∉ l.strangers) {s : Stores} (hs : l.Guard s) :
    l.Guard (write (Stores.authorizationsBind P a) s).2 := by
  refine Stores.write_post hs fun u s' hbind => ⟨?_, fun k hk row hrow => ?_⟩
  · obtain ⟨-, w, r, t, row, rfl, -, -⟩ := Stores.authorizationsBind_eq_ok P hbind
    exact hs.hasPassword
  · have hne : k ≠ a.authKeyId := by
      rintro rfl
      exact ha hk
    rw [(Stores.authorizationsBind_sets hbind).otherLogins k hne] at hrow
    exact hs.strangers k hk row hrow

/-- The account of a login stays. -/
theorem guard_authorizationsMarkPasswordPassed {k : Arr 8} {id : Int64} {s : Stores} (hs : l.Guard s) :
    l.Guard (write (Stores.authorizationsMarkPasswordPassed k id) s).2 := by
  refine Stores.write_post hs fun u s' hmark => ?_
  unfold Stores.authorizationsMarkPasswordPassed at hmark
  split at hmark
  · cases hmark
  · next old hold =>
    split at hmark
    · cases hmark
      refine ⟨hs.hasPassword, fun k' hk' row hrow => ?_⟩
      rw [Table.find_upsert] at hrow
      split at hrow
      · next heq =>
        subst heq
        cases hrow
        exact hs.strangers k' hk' old hold
      · exact hs.strangers k' hk' row hrow
    · cases hmark

/-- **Every client keeps what the clients rely on.** -/
theorem guard_exec (hstrangers : r.method = .authSignIn ∨ r.method = .authSignUp → r.ctx.authKeyId ∉ l.strangers)
    {call : StoreCall} (h : r.Makes l.Guard call) {s : Stores} (hs : l.Guard s) : l.Guard (call.exec P s).2 := by
  by_cases harea : call.area = some .authorizations ∨ call.area = some .passwords
  case neg =>
    rw [not_or] at harea
    have hagree := StoreCall.exec_agree P call s
    refine ⟨(hasPassword_congr (hagree.passwords harea.2) l.userId).trans hs.hasPassword, ?_⟩
    rw [hagree.authorizations harea.1]
    exact hs.strangers
  case pos =>
    cases call with
    | authorizationsBind a => exact guard_authorizationsBind (h.1 ▸ hstrangers h.2) hs
    | authorizationsMarkPasswordPassed k id => exact guard_authorizationsMarkPasswordPassed hs
    | passwordsSave id settings => exact guard_passwordsSave h.2.1 h.2.2.1 hs
    | _ => rcases harea with harea | harea <;> cases harea

theorem guard_attempt (hstrangers : r.method = .authSignIn ∨ r.method = .authSignUp → r.ctx.authKeyId ∉ l.strangers)
    {call : StoreCall} (h : r.Makes l.Guard call) {s : Stores} (hs : l.Guard s) : l.Guard (call.attempt P s).2 := by
  rcases StoreCall.attempt_cases P call s with heq | ⟨e, heq⟩
  · rw [heq]
    exact guard_exec hstrangers h hs
  · rw [heq]
    exact hs

end Guard

end ShuzaGram.Server

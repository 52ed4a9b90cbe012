import ShuzaGram.Properties.SparedLogins

/-!
# A login completes

Whoever owns the phone of an account gets in: the code that was sent logs the key in, and where the account has a
password, the proof of the password does. Other clients make any requests with their own keys and about their own codes,
and the calls of all the requests interleave in any order, some of the others' without an answer of the database.

* `does_login` — the code that was sent, up to the password
* `does_loginWithPassword` — with the proof of the password, where there is one
* `login_completes` — amid the other clients
-/

namespace ShuzaGram.Server

open Infra Domain Store Mtproto Mtproto.Messages Mtproto.Crypto Auth Users
open StoreProg

/-! ## Amid other clients -/

/-- At this moment the database answers and takes writes, and codes are delivered. -/
structure Works (m : Moment) : Prop where
  fault : m.fault = none
  unread : m.unread = none
  delivery : m.delivery = .ok ()

/-- The calls of the other clients. Right before a call of this one, the outside world is as it should be. -/
def around (P : Primitives) (l : PendingLogin) : Rely Stores where
  step s s' := ∃ call m, l.Spares call ∧ s' = (StoreCall.attempt P call (atMoment m s)).2
  own env := ∃ m, env = atMoment m ∧ Works m

/-- A property of the stores that the other clients cannot spoil. -/
def Steady (l : PendingLogin) (phone : Bytes) (T : Stores → Prop) : Prop := ∀ s s', Spared l phone s s' → T s → T s'

/-- From states with `T` the program ends within `n` calls, as `Q` says. -/
def Meets {α : Type} (P : Primitives) (l : PendingLogin) (T : Stores → Prop) (p : StoreProg α) (n : Nat)
    (Q : Except Exn α → Stores → Prop) : Prop :=
  ∀ s, T s → p.Ensures (StoreCall.attempt P) (around P l) Q n s

/-- It returns, as `J` says. -/
abbrev Does {α : Type} (P : Primitives) (l : PendingLogin) (T : Stores → Prop) (p : StoreProg α) (n : Nat)
    (J : α → Stores → Prop) : Prop :=
  Meets P l T p n (Prog.Returns J)

/-- It throws, as `K` says. -/
abbrev Fails {α : Type} (P : Primitives) (l : PendingLogin) (T : Stores → Prop) (p : StoreProg α) (n : Nat)
    (K : Exn → Stores → Prop) : Prop :=
  Meets P l T p n (Prog.Throws K)

section Does

variable {P : Primitives} {l : PendingLogin} {phone : Bytes} {T : Stores → Prop} {α β : Type} {m n : Nat}

theorem spared_atMoment (m : Moment) (s : Stores) : Spared l phone s (atMoment m s) :=
  spared_of_eq rfl rfl rfl rfl rfl rfl rfl rfl

theorem Steady.keeps (hT : Steady l phone T) (hphone : phone ≠ []) : (around P l).Keeps T := by
  rintro s s' ⟨call, m, hcall, rfl⟩ hs
  exact hT _ _ (spared_attempt hcall hphone _) (hT _ _ (spared_atMoment m s) hs)

theorem steady_and {p : Prop} (hT : Steady l phone T) : Steady l phone fun s => p ∧ T s :=
  fun s s' hspared hs => ⟨hs.1, hT s s' hspared hs.2⟩

theorem Does.bind {J : α → Stores → Prop} {Q : Except Exn β → Stores → Prop} {p : StoreProg α}
    {f : α → StoreProg β} (hp : Does P l T p m J) (hf : ∀ a, Meets P l (J a) (f a) n Q) :
    Meets P l T (p >>= f) (m + n) Q :=
  fun s hs => Prog.Ensures.bind hf (hp s hs)

/-- A program whose value is known. -/
theorem Does.bind_value {a : α} {J : Stores → Prop} {Q : Except Exn β → Stores → Prop} {p : StoreProg α}
    {f : α → StoreProg β} (hp : Does P l T p m fun b s => b = a ∧ J s) (hf : Meets P l J (f a) n Q) :
    Meets P l T (p >>= f) (m + n) Q := by
  refine hp.bind fun b s hs => ?_
  obtain ⟨rfl, hs⟩ := hs
  exact hf s hs

/-- A program that finds the account. -/
theorem Does.bind_account {J : Stores → Prop} {Q : Except Exn β → Stores → Prop} {p : StoreProg (Option User)}
    {f : Option User → StoreProg β} (hp : Does P l T p m fun x s => (∃ u, x = some u ∧ u.id = l.userId) ∧ J s)
    (hf : ∀ u, u.id = l.userId → Meets P l J (f (some u)) n Q) : Meets P l T (p >>= f) (m + n) Q := by
  refine hp.bind fun x s hs => ?_
  obtain ⟨⟨u, rfl, hid⟩, hs⟩ := hs
  exact hf u hid s hs

theorem Fails.bind {K : Exn → Stores → Prop} {p : StoreProg α} {f : α → StoreProg β} (hp : Fails P l T p n K) :
    Fails P l T (p >>= f) n K := fun s hs => (hp s hs).bind_error

theorem does_pure {J : α → Stores → Prop} {a : α} (hphone : phone ≠ []) (hJ : Steady l phone (J a))
    (h : ∀ s, T s → J a s) : Does P l T (pure a) 0 J := by
  intro s hs
  refine Prog.ensures_pure (fun s s' hstep hs => ?_) ⟨a, rfl, h s hs⟩
  obtain ⟨b, hb, hJb⟩ := hs
  cases hb
  exact ⟨a, rfl, hJ.keeps hphone s s' hstep hJb⟩

theorem fails_throw {K : Exn → Stores → Prop} {e : Exn} (hphone : phone ≠ []) (hK : Steady l phone (K e))
    (h : ∀ s, T s → K e s) : Fails P l T (throw e : StoreProg α) 0 K := by
  intro s hs
  refine Prog.ensures_throw (fun s s' hstep hs => ?_) ⟨e, rfl, h s hs⟩
  obtain ⟨b, hb, hKb⟩ := hs
  cases hb
  exact ⟨e, rfl, hK.keeps hphone s s' hstep hKb⟩

/-- One call, when the database answers and takes writes. -/
theorem does_call {call : StoreCall} {J : call.Res → Stores → Prop} (hphone : phone ≠ []) (hT : Steady l phone T)
    (hJ : ∀ a, Steady l phone (J a))
    (h : ∀ s, s.moment.fault = none → s.moment.delivery = .ok () → T s →
      ∃ a, (call.exec P s).1 = .ok a ∧ J a (call.exec P s).2) :
    Does P l T (Prog.perform call) 1 J := by
  intro s hs
  refine Prog.ensures_perform (I := T) (hT.keeps hphone) (fun r s s' hstep hr => ?_) ?_ hs
  · obtain ⟨a, ha, hJa⟩ := hr
    exact ⟨a, ha, (hJ a).keeps hphone s s' hstep hJa⟩
  · rintro s' env hs' ⟨m, rfl, hworks⟩
    rw [StoreCall.attempt_of_unread (s := atMoment m s') hworks.unread]
    exact h _ hworks.fault hworks.delivery (hT _ _ (spared_atMoment m s') hs')

theorem Does.mono {J K : α → Stores → Prop} {p : StoreProg α} (hp : Does P l T p n J) (hle : n ≤ m)
    (h : ∀ a s, J a s → K a s) : Does P l T p m K :=
  fun s hs => (hp s hs).mono (fun _ s ⟨a, ha, hJ⟩ => ⟨a, ha, h a s hJ⟩) hle

/-- A `try` block that returns. -/
theorem does_answering {p : StoreProg Answer} {errors : Exn → Answer} {J : Answer → Stores → Prop}
    (hp : Does P l T p n J) : Does P l T (answering p errors) n J := fun s hs => (hp s hs).catch_ok

/-- A `try` block whose exception is answered. -/
theorem does_answering_fails {p : StoreProg Answer} {errors : Exn → Answer} {K : Exn → Stores → Prop}
    {J : Answer → Stores → Prop} (hphone : phone ≠ []) (hJ : ∀ e, Steady l phone (J (errors e)))
    (hp : Fails P l T p n K) (h : ∀ e s, K e s → J (errors e) s) : Does P l T (answering p errors) n J :=
  fun s hs => Prog.Ensures.catch_error (n := 0) (fun e s' he => does_pure hphone (hJ e) (fun _ => id) s' (h e s' he))
    (hp s hs)

theorem decode_bind {x : Get α} {body rest : Bytes} {a : α} (hread : x body = .ok a rest) (f : α → StoreProg β) :
    (decode x body >>= f) = f a := by
  unfold decode
  rw [hread]
  rfl

end Does

/-! ## The stages of a login -/

/-- The account can be logged in to with the key. -/
structure Ready (l : PendingLogin) (phone : Bytes) (row? : Option PasswordRow) (s : Stores) : Prop where
  owns : s.Owns phone l.userId
  canBind : s.CanBind l.key l.userId
  password : s.accountPasswords.find l.userId = row?

/-- The code was sent. -/
structure CodeSent (l : PendingLogin) (phone : Bytes) (row? : Option PasswordRow) (code : Bytes) (s : Stores) : Prop
    extends Ready l phone row? s where
  code : s.codes.find l.hash = some { issuedUserId := l.userId, phone, code }

/-- The key is logged in, or waits for the password. -/
structure Entered (l : PendingLogin) (phone : Bytes) (row? : Option PasswordRow) (pending : Bool) (s : Stores) :
    Prop where
  owns : s.Owns phone l.userId
  password : s.accountPasswords.find l.userId = row?
  login : s.LoggedIn l.key l.userId pending

section Stages

variable {P : Primitives} {l : PendingLogin} {phone code : Bytes} {row? : Option PasswordRow} {pending : Bool}
  {T : Stores → Prop}

theorem steady_ready : Steady l phone (Ready l phone row?) := fun _ _ h hs =>
  ⟨h.owns hs.owns, h.canBind hs.canBind, h.password.trans hs.password⟩

theorem steady_codeSent : Steady l phone (CodeSent l phone row? code) := fun _ _ h hs =>
  ⟨steady_ready _ _ h hs.toReady, h.code.trans hs.code⟩

theorem steady_entered : Steady l phone (Entered l phone row? pending) := by
  intro _ _ h hs
  obtain ⟨row, hrow, hlogin⟩ := hs.login
  exact ⟨h.owns hs.owns, h.password.trans hs.password, row, h.login.trans hrow, hlogin⟩

variable (hphone : phone ≠ [])
include hphone

/-! ### Reads -/

/-- Somebody has the phone. -/
theorem does_usersByPhone (hT : Steady l phone T) (howns : ∀ s, T s → s.Owns phone l.userId) :
    Does P l T (usersByPhone phone) 1 fun x s => (∃ u, x = some u ∧ u.id = l.userId) ∧ T s := by
  refine does_call hphone hT (fun x => steady_and hT) fun s _ _ hs => ?_
  obtain ⟨row, -, hfound⟩ := (howns s hs).usersByPhone hphone
  exact ⟨_, rfl, ⟨_, hfound, by simp⟩, hs⟩

theorem does_currentPhoneOwnerId (hT : Steady l phone T)
    (howns : ∀ s, T s → s.Owns phone l.userId) :
    Does P l T (currentPhoneOwnerId phone) 1 fun id s => id = l.userId ∧ T s := by
  refine (does_usersByPhone hphone hT howns).bind_account (n := 0) fun u hid => ?_
  exact does_pure hphone (steady_and hT) fun s hs => ⟨hid, hs⟩

theorem does_passwordsGetByUser (hT : Steady l phone T)
    (hrow : ∀ s, T s → s.accountPasswords.find l.userId = row?) :
    Does P l T (passwordsGetByUser l.userId) 1 fun x s => x = row?.map PasswordRow.toSettings ∧ T s := by
  refine does_call hphone hT (fun x => steady_and hT) fun s _ _ hs => ⟨_, rfl, ?_, hs⟩
  show (s.accountPasswords.find l.userId).map _ = _
  rw [hrow s hs]

theorem does_usersById (hT : Steady l phone T) (howns : ∀ s, T s → s.Owns phone l.userId) :
    Does P l T (usersById l.userId) 1 fun x s => (∃ u, x = some u ∧ u.id = l.userId) ∧ T s := by
  refine does_call hphone hT (fun x => steady_and hT) fun s _ _ hs => ?_
  obtain ⟨row, hrow, -, hlive⟩ := (howns s hs).live
  refine ⟨_, rfl, ⟨rowToUser (l.userId, row), ?_, by simp⟩, hs⟩
  simp [Stores.usersById, hrow]

/-- The login of the key. -/
theorem does_authorizationsByAuthKey :
    Does P l (Entered l phone row? pending) (authorizationsByAuthKey l.key) 1 fun x s =>
      (∃ a, x = some a ∧ a.userId = l.userId ∧ a.passwordPending = pending) ∧ Entered l phone row? pending s := by
  refine does_call hphone steady_entered (fun x => steady_and steady_entered) fun s _ _ hs => ?_
  obtain ⟨row, hrow, huser, hpending⟩ := hs.login
  refine ⟨_, rfl, ⟨Stores.rowToAuthorization (l.key, row), ?_, huser, hpending⟩, hs⟩
  simp [Stores.authorizationsByAuthKey, hrow]

/-! ### The code -/

theorem does_codesSet :
    Does P l (Ready l phone row?) (codesSet l.hash { issuedUserId := l.userId, phone, code }) 1 fun _ =>
      CodeSent l phone row? code := by
  refine does_call hphone steady_ready (fun _ => steady_codeSent) fun s _ _ hs => ⟨(), rfl, ?_, ?_⟩
  · exact ⟨⟨hs.owns.live, hs.owns.only⟩, ⟨hs.canBind.key, hs.canBind.retained, hs.canBind.delivered⟩, hs.password⟩
  · exact (Table.find_upsert _ _ _ _).trans (if_pos rfl)

/-- The code is sent, and nobody else gets at it. -/
theorem does_sendCode {lib : PhoneLibrary} {number fixedCode : Bytes} {sender : Option OtpSender} {codeTtl : Int}
    {draw : SendCodeDraw} (hnumber : normalizePhone lib number = phone) (hvalid : validPhone lib phone = true)
    (hhash : randomHex draw.hash.toList = l.hash) :
    Does P l (Ready l phone row?) (sendCode lib number fixedCode sender codeTtl draw) 3 fun hash s =>
      hash = l.hash ∧ CodeSent l phone row? (match sender with
        | some otp => randomDigits otp.codeLength draw.digits
        | none => fixedCode) s := by
  subst hnumber
  have hdeliver : ∀ (code : Bytes) (request : DeliveryRequest),
      Does P l (CodeSent l (normalizePhone lib number) row? code) (deliverOrRollBack l.hash request) 1 fun _ =>
        CodeSent l (normalizePhone lib number) row? code := by
    intro code request s hs
    have hcall : Does P l (CodeSent l (normalizePhone lib number) row? code) (otpDeliver request) 1 fun _ =>
        CodeSent l (normalizePhone lib number) row? code :=
      does_call hphone steady_codeSent (fun _ => steady_codeSent) fun s _ hdelivery hs => ⟨(), hdelivery, hs⟩
    exact (hcall s hs).catch_ok
  unfold sendCode
  simp only [hvalid, hhash, Bool.not_true, Bool.false_eq_true, if_false]
  refine (does_currentPhoneOwnerId hphone steady_ready fun s hs => hs.owns).bind_value (n := 2) ?_
  refine (does_codesSet hphone).bind (n := 1) fun _ => ?_
  cases sender with
  | none =>
    refine Does.mono (n := 0) ?_ (by decide) fun _ _ h => h
    exact does_pure hphone (steady_and steady_codeSent) fun s hs => ⟨rfl, hs⟩
  | some otp =>
    exact (hdeliver _ _).bind (n := 0) fun _ => does_pure hphone (steady_and steady_codeSent) fun s hs => ⟨rfl, hs⟩

/-- The right code is accepted and used up. -/
theorem does_codesVerifyLogin :
    Does P l (CodeSent l phone row? code) (codesVerifyLogin l.hash phone code false defaultMaxAttempts) 1 fun x s =>
      x = .accepted { issuedUserId := l.userId, phone, code } ∧ Ready l phone row? s := by
  refine does_call hphone steady_codeSent (fun _ => steady_and steady_ready) fun s _ _ hs => ?_
  have hright : s.codes.verifyLogin l.hash phone code false defaultMaxAttempts =
      (.accepted { issuedUserId := l.userId, phone, code }, s.codes.erase l.hash) := by
    rw [Codes.verifyLogin_right hs.code rfl rfl]
    rfl
  exact ⟨_, rfl, congrArg Prod.fst hright, ⟨hs.owns.live, hs.owns.only⟩,
    ⟨hs.canBind.key, hs.canBind.retained, hs.canBind.delivered⟩, hs.password⟩

theorem does_verifyLoginCode (hid : l.userId ≠ 0) :
    Does P l (CodeSent l phone row? code) (verifyLoginCode phone l.hash code) 5 fun x s =>
      (∃ u, x = some u ∧ u.id = l.userId) ∧ Ready l phone row? s := by
  have hget : Does P l (CodeSent l phone row? code) (codesGet l.hash) 1 fun x s =>
      x = some { issuedUserId := l.userId, phone, code } ∧ CodeSent l phone row? code s :=
    does_call hphone steady_codeSent (fun _ => steady_and steady_codeSent) fun s _ _ hs => ⟨_, rfl, hs.code, hs⟩
  have hfinish : ∀ rec, Does P l (Ready l phone row?) (finishLoginCode phone l.hash l.userId (.accepted rec)) 2
      fun x s => (∃ u, x = some u ∧ u.id = l.userId) ∧ Ready l phone row? s := by
    intro rec
    refine (does_currentPhoneOwnerId hphone steady_ready fun s hs => hs.owns).bind_value (n := 1) ?_
    simp only [ne_eq, not_true_eq_false, if_false, hid]
    exact does_usersByPhone hphone steady_ready fun s hs => hs.owns
  refine hget.bind_value (n := 4) ?_
  simp only [ne_eq, not_true_eq_false, if_false]
  refine (does_currentPhoneOwnerId hphone steady_codeSent fun s hs => hs.owns).bind_value (n := 3) ?_
  simp only [not_true_eq_false, if_false, Bool.false_eq_true]
  rw [show (l.userId == 0) = false by simpa using hid]
  exact (does_codesVerifyLogin hphone).bind_value (hfinish _)

/-! ### The login -/

theorem does_authorizationsBind {a : Authorization} (hkey : a.authKeyId = l.key) (huser : a.userId = l.userId) :
    Does P l (Ready l phone row?) (authorizationsBind a) 1 fun _ => Entered l phone row? a.passwordPending := by
  refine does_call hphone steady_ready (fun _ => steady_entered) fun s hfault _ hs => ?_
  obtain ⟨row, hrow, -, hlive⟩ := hs.owns.live
  obtain ⟨s', hbind⟩ := hs.canBind.binds ⟨row, hrow, hlive⟩ P hkey huser
  have hwrite : write (Stores.authorizationsBind P a) s = (.ok (), s') := by
    simp only [write, hfault, hbind]
  obtain ⟨-, w, r, t, login, rfl, hlogin, hpending⟩ := Stores.authorizationsBind_eq_ok P hbind
  refine ⟨(), congrArg Prod.fst hwrite, ?_⟩
  show Entered l phone row? a.passwordPending (write (Stores.authorizationsBind P a) s).2
  rw [hwrite]
  refine ⟨⟨hs.owns.live, hs.owns.only⟩, hs.password, login, ?_, hlogin.trans huser, hpending⟩
  exact (Table.find_upsert _ _ _ _).trans (if_pos hkey.symm)

theorem does_passwordNeeded :
    Does P l (Ready l phone row?) (passwordNeeded l.userId true) 1 fun needed s =>
      needed = row?.any PasswordRow.hasPassword ∧ Ready l phone row? s := by
  refine (does_passwordsGetByUser hphone steady_ready fun s hs => hs.password).bind_value (n := 0) ?_
  cases row? with
  | none => exact does_pure hphone (steady_and steady_ready) fun s hs => ⟨rfl, hs⟩
  | some row => exact does_pure hphone (steady_and steady_ready) fun s hs => ⟨rfl, hs⟩

/-- What `signIn` comes to: the account is found, the password is looked for, and the key is logged in. -/
theorem meets_signIn {lib : PhoneLibrary} {number : Bytes} {template : Authorization} {needed : Bool}
    {Q : Except Exn SignInResult → Stores → Prop} (hnumber : normalizePhone lib number = phone) (hid : l.userId ≠ 0)
    (hkey : template.authKeyId = l.key) (hneeded : row?.any PasswordRow.hasPassword = needed)
    (hend : ∀ user : User, user.id = l.userId → Meets P l (Entered l phone row? needed)
      (if needed = true then throw .sessionPasswordNeeded else pure { needSignUp := false, user }) 0 Q) :
    Meets P l (CodeSent l phone row? code) (signIn lib template number l.hash code true) 7 Q := by
  subst hnumber
  refine (does_verifyLoginCode hphone hid).bind_account (n := 2) fun user huser => ?_
  simp only [huser]
  refine (does_passwordNeeded hphone).bind_value (n := 1) ?_
  rw [hneeded]
  have hbind : Does P l (Ready l (normalizePhone lib number) row?)
      (authorizationsBind { template with userId := l.userId, passwordPending := needed }) 1 fun _ =>
        Entered l (normalizePhone lib number) row? needed := does_authorizationsBind hphone hkey rfl
  refine hbind.bind (n := 0) fun _ => ?_
  have h := hend user huser
  cases needed with
  | false => exact h
  | true => exact h

/-! ### The password -/

omit hphone in
/-- The login that waits for the password. -/
theorem Does.bind_login {T J : Stores → Prop} {α : Type} {m n : Nat} {Q : Except Exn α → Stores → Prop}
    {p : StoreProg (Option Authorization)} {f : Option Authorization → StoreProg α}
    (hp : Does P l T p m fun x s => (∃ a, x = some a ∧ a.userId = l.userId ∧ a.passwordPending = pending) ∧ J s)
    (hf : ∀ a : Authorization, a.userId = l.userId → a.passwordPending = pending → Meets P l J (f (some a)) n Q) :
    Meets P l T (p >>= f) (m + n) Q := by
  refine hp.bind fun x s hs => ?_
  obtain ⟨⟨a, rfl, huser, hpending⟩, hs⟩ := hs
  exact hf a huser hpending s hs

theorem does_passwordsSave {settings : PasswordSettings} :
    Does P l (Entered l phone row? pending) (passwordsSave l.userId settings) 1 fun _ =>
      Entered l phone (some (.ofSettings settings)) pending := by
  refine does_call hphone steady_entered (fun _ => steady_entered) fun s hfault _ hs => ?_
  have hwrite : write (Stores.passwordsSave l.userId settings) s =
      (.ok (), { s with accountPasswords := s.accountPasswords.upsert l.userId (.ofSettings settings) }) := by
    simp only [write, hfault, Stores.passwordsSave]
  refine ⟨(), congrArg Prod.fst hwrite, ?_⟩
  show Entered l phone (some (.ofSettings settings)) pending (write (Stores.passwordsSave l.userId settings) s).2
  rw [hwrite]
  exact ⟨⟨hs.owns.live, hs.owns.only⟩, (Table.find_upsert _ _ _ _).trans (if_pos rfl), hs.login⟩

theorem does_loadNormalized {row : PasswordRow} :
    Does P l (Entered l phone (some row) pending) (loadNormalized l.userId) 1 fun x s =>
      x = normalized (some row.toSettings) ∧ Entered l phone (some row) pending s :=
  (does_passwordsGetByUser hphone steady_entered fun _ hs => hs.password).bind_value (n := 0)
    (does_pure hphone (steady_and steady_entered) fun _ hs => ⟨rfl, hs⟩)

theorem does_getPassword {row : PasswordRow} {settings : PasswordSettings} {draw : ChallengeDraw}
    (hpassword : (normalized (some row.toSettings)).hasPassword = true)
    (hchallenge : withChallenge P (normalized (some row.toSettings)) draw = .ok settings) :
    Does P l (Entered l phone (some row) pending) (getPassword P l.userId draw) 2 fun x s =>
      x = settings ∧ Entered l phone (some (.ofSettings settings)) pending s := by
  refine (does_loadNormalized hphone).bind_value (n := 1) ?_
  simp only [hpassword, hchallenge, Bool.not_true, Bool.false_eq_true, if_false]
  exact (does_passwordsSave hphone).bind (n := 0) fun _ =>
    does_pure hphone (steady_and steady_entered) fun s hs => ⟨rfl, hs⟩

theorem does_checkPassword {row : PasswordRow} {check : PasswordCheck}
    (hcheck : checkSrp P (normalized (some row.toSettings)) check = .ok ()) :
    Does P l (Entered l phone (some row) pending) (checkPassword P l.userId check) 1 fun _ =>
      Entered l phone (some row) pending := by
  refine (does_loadNormalized hphone).bind_value (n := 0) ?_
  simp only [hcheck]
  exact does_pure hphone steady_entered fun s hs => hs

theorem does_authorizationsMarkPasswordPassed :
    Does P l (Entered l phone row? true) (authorizationsMarkPasswordPassed l.key l.userId) 1 fun _ =>
      Entered l phone row? false := by
  refine does_call hphone steady_entered (fun _ => steady_entered) fun s hfault _ hs => ?_
  obtain ⟨row, hrow, huser, hpending⟩ := hs.login
  let passed : Authorization :=
    { row with passwordPending := false, createdAt := s.moment.now, activeAt := s.moment.now }
  have hwrite : write (Stores.authorizationsMarkPasswordPassed l.key l.userId) s =
      (.ok (), { s with authorizations := s.authorizations.upsert l.key passed }) := by
    simp only [write, hfault, Stores.authorizationsMarkPasswordPassed, hrow, if_pos (And.intro huser hpending)]
    rfl
  refine ⟨(), congrArg Prod.fst hwrite, ?_⟩
  show Entered l phone row? false (write (Stores.authorizationsMarkPasswordPassed l.key l.userId) s).2
  rw [hwrite]
  exact ⟨⟨hs.owns.live, hs.owns.only⟩, hs.password, passed, (Table.find_upsert _ _ _ _).trans (if_pos rfl), huser, rfl⟩

theorem does_completeLogin {authz : Authorization} (huser : authz.userId = l.userId)
    (hpending : authz.passwordPending = true) :
    Does P l (Entered l phone row? true) (completeLogin l.key authz) 2 fun answer s =>
      (∃ user, answer = .authorization user ∧ user.id = l.userId) ∧ Entered l phone row? false s := by
  unfold completeLogin
  simp only [hpending, huser, if_true]
  refine (does_authorizationsMarkPasswordPassed hphone).bind (n := 1) fun _ => ?_
  refine (does_usersById hphone steady_entered fun s hs => hs.owns).bind_account (n := 0) fun user hid => ?_
  exact does_pure hphone (steady_and steady_entered) fun s hs => ⟨⟨user, rfl, hid⟩, hs⟩

end Stages

/-! ## The requests -/

section Requests

variable {cfg : Config} {l : PendingLogin} {phone : Bytes} {row? : Option PasswordRow} (hphone : phone ≠ [])
include hphone

theorem does_handleAuthSendCode {draw : HandlerDraw} {ctx : RpcContext} {body rest : Bytes} {req : AuthSendCodeRequest}
    (hread : AuthSendCodeRequest.decodeBare body = .ok req rest)
    (hnumber : normalizePhone cfg.phones req.phoneNumber = phone) (hvalid : validPhone cfg.phones phone = true)
    (hhash : randomHex draw.sendCode.hash.toList = l.hash) :
    Does cfg.primitives l (Ready l phone row?) (handle cfg draw ctx body .authSendCode) 3 fun answer s =>
      (∃ n, answer = .sentCode n l.hash) ∧ CodeSent l phone row? (match cfg.otpSender with
        | some otp => randomDigits otp.codeLength draw.sendCode.digits
        | none => fixedCode) s := by
  show Does cfg.primitives l _ (decode AuthSendCodeRequest.decodeBare body >>= _) 3 _
  rw [decode_bind hread]
  refine does_answering ((does_sendCode hphone hnumber hvalid hhash).bind_value (n := 0) ?_)
  exact does_pure hphone (steady_and steady_codeSent) fun s hs => ⟨⟨_, rfl⟩, hs⟩

theorem does_handleAuthSignIn {draw : HandlerDraw} {ctx : RpcContext} {body rest : Bytes} {number code : Bytes}
    {needed : Bool}
    (hread : AuthSignInRequest.decodeBare body = .ok ⟨number, l.hash, code⟩ rest)
    (hnumber : normalizePhone cfg.phones number = phone) (hid : l.userId ≠ 0) (hkey : ctx.authKeyId = l.key)
    (hneeded : row?.any PasswordRow.hasPassword = needed) :
    Does cfg.primitives l (CodeSent l phone row? code) (handle cfg draw ctx body .authSignIn) 7 fun answer s =>
      (if needed = true then answer = sessionPasswordNeeded
        else ∃ user, answer = .authorization user ∧ user.id = l.userId) ∧ Entered l phone row? needed s := by
  show Does cfg.primitives l _ (decode AuthSignInRequest.decodeBare body >>= _) 7 _
  rw [decode_bind hread]
  cases needed with
  | false =>
    have hsignIn : Does cfg.primitives l (CodeSent l phone row? code)
        (signIn cfg.phones { authKeyId := ctx.authKeyId } number l.hash code true) 7 fun result s =>
          (result.needSignUp = false ∧ result.user.id = l.userId) ∧ Entered l phone row? false s :=
      meets_signIn hphone hnumber hid hkey hneeded fun user huser =>
        does_pure hphone (steady_and steady_entered) fun s hs => ⟨⟨rfl, huser⟩, hs⟩
    refine does_answering (hsignIn.bind (n := 0) fun result s hs => ?_)
    obtain ⟨⟨hneed, huser⟩, hs⟩ := hs
    simp only [hneed, Bool.false_eq_true, if_false]
    exact does_pure hphone (steady_and steady_entered) (fun s hs => ⟨⟨_, rfl, huser⟩, hs⟩) s hs
  | true =>
    have hsignIn : Fails cfg.primitives l (CodeSent l phone row? code)
        (signIn cfg.phones { authKeyId := ctx.authKeyId } number l.hash code true) 7 fun e s =>
          e = .sessionPasswordNeeded ∧ Entered l phone row? true s :=
      meets_signIn hphone hnumber hid hkey hneeded fun user huser =>
        fails_throw hphone (steady_and steady_entered) fun s hs => ⟨rfl, hs⟩
    refine does_answering_fails hphone (fun e => steady_and steady_entered) hsignIn.bind fun e s he => ?_
    obtain ⟨rfl, hs⟩ := he
    exact ⟨rfl, hs⟩

theorem does_handleAccountGetPassword {draw : HandlerDraw} {ctx : RpcContext} {body : Bytes} {row : PasswordRow}
    {settings : PasswordSettings} {pending : Bool} (hid : l.userId ≠ 0) (hkey : ctx.authKeyId = l.key)
    (hpassword : (normalized (some row.toSettings)).hasPassword = true)
    (hchallenge : withChallenge cfg.primitives (normalized (some row.toSettings)) draw.challenge = .ok settings) :
    Does cfg.primitives l (Entered l phone (some row) pending) (handle cfg draw ctx body .accountGetPassword) 3
      fun answer s => answer = .password settings ∧ Entered l phone (some (.ofSettings settings)) pending s := by
  refine does_answering ?_
  rw [hkey]
  refine (does_authorizationsByAuthKey hphone).bind_login (n := 2) fun a huser _ => ?_
  simp only [huser, hid, ne_eq, not_false_eq_true, if_true]
  exact (does_getPassword hphone hpassword hchallenge).bind_value (n := 0)
    (does_pure hphone (steady_and steady_entered) fun s hs => ⟨rfl, hs⟩)

theorem does_handleAuthCheckPassword {draw : HandlerDraw} {ctx : RpcContext} {body rest : Bytes} {row : PasswordRow}
    {check : PasswordCheck} (hread : AuthCheckPasswordRequest.decodeBare body = .ok check rest) (hid : l.userId ≠ 0)
    (hkey : ctx.authKeyId = l.key)
    (hcheck : checkSrp cfg.primitives (normalized (some row.toSettings)) check = .ok ()) :
    Does cfg.primitives l (Entered l phone (some row) true) (handle cfg draw ctx body .authCheckPassword) 4
      fun answer s => (∃ user, answer = .authorization user ∧ user.id = l.userId) ∧
        Entered l phone (some row) false s := by
  show Does cfg.primitives l _ (decode AuthCheckPasswordRequest.decodeBare body >>= _) 4 _
  rw [decode_bind hread]
  refine does_answering ?_
  rw [hkey]
  refine (does_authorizationsByAuthKey hphone).bind_login (n := 3) fun a huser hpending => ?_
  simp only [huser, hid, if_false]
  exact (does_checkPassword hphone hcheck).bind (n := 2) fun _ => does_completeLogin hphone huser hpending

end Requests

/-! ## The whole login -/

/-- What the client sends is what the owner of the phone sends: the phone, and the code that came. -/
structure LoginClient.Sends (c : LoginClient) (cfg : Config) (phone : Bytes) : Prop where
  asks : ∃ req rest, AuthSendCodeRequest.decodeBare c.sendCodeBody = .ok req rest ∧
    normalizePhone cfg.phones req.phoneNumber = phone
  returns : ∃ number rest, AuthSignInRequest.decodeBare (c.signInBody c.hash) = .ok ⟨number, c.hash, c.code cfg⟩ rest ∧
    normalizePhone cfg.phones number = phone

/-- The password of the row is known, and the hash of the `A` and `B` that are exchanged is not zero. -/
structure Knows (P : Primitives) (pbkdf2HmacSha512 : Pbkdf2) (password random : Bytes) (draw : ChallengeDraw)
    (row : PasswordRow) : Prop where
  protectedBy : ∃ salt1, ProtectedBy P pbkdf2HmacSha512 password salt1 row
  scrambler : ∀ settings check, withChallenge P (normalized (some row.toSettings)) draw = .ok settings →
    clientCheck P pbkdf2HmacSha512 password settings random = some check →
    (P.sha256 (check.a ++ settings.srpB)).toList.all (· = 0) = false

section Login

variable {cfg : Config} {l : PendingLogin} {phone : Bytes} {row? : Option PasswordRow} {c : LoginClient}
  {pbkdf2HmacSha512 : Pbkdf2} {password random : Bytes}

theorem does_login (hphone : phone ≠ []) (hsends : c.Sends cfg phone) (hvalid : validPhone cfg.phones phone = true)
    (hkey : c.ctx.authKeyId = l.key) (hhash : c.hash = l.hash) (hid : l.userId ≠ 0) {needed : Bool}
    (hneeded : row?.any PasswordRow.hasPassword = needed) :
    Does cfg.primitives l (Ready l phone row?) (c.login cfg) 10 fun answer s =>
      (if needed = true then answer = sessionPasswordNeeded
        else ∃ user, answer = .authorization user ∧ user.id = l.userId) ∧ Entered l phone row? needed s := by
  obtain ⟨req, rest, hread, hnumber⟩ := hsends.asks
  obtain ⟨number, rest', hread', hnumber'⟩ := hsends.returns
  rw [hhash] at hread'
  refine (does_handleAuthSendCode hphone hread hnumber hvalid hhash).bind (n := 7) fun answer s hs => ?_
  obtain ⟨⟨n, rfl⟩, hs⟩ := hs
  exact does_handleAuthSignIn hphone hread' hnumber' hid hkey hneeded s hs

/-- The challenge that the client is given, and the check that it makes of it: the check passes. -/
theorem Knows.exists_check {draw : ChallengeDraw} {row : PasswordRow} {P : Primitives}
    (h : Knows P pbkdf2HmacSha512 password random draw row) :
    ∃ settings check, withChallenge P (normalized (some row.toSettings)) draw = .ok settings ∧
      clientCheck P pbkdf2HmacSha512 password settings random = some check ∧
      AuthCheckPasswordRequest.decodeBare (putCheck check) = .ok check [] ∧
      checkSrp P (normalized (some (PasswordRow.ofSettings settings).toSettings)) check = .ok () := by
  obtain ⟨salt1, hprotected⟩ := h.protectedBy
  obtain ⟨settings, hchallenge, halgo, hprotected', hchallenged, -⟩ := hprotected.withChallenge draw
  obtain ⟨answer, hanswer⟩ :=
    exists_srpClientProof P pbkdf2HmacSha512 password salt1 srpBaseSalt2 settings.srpB random
  have hcheck : clientCheck P pbkdf2HmacSha512 password settings random = some (provenCheck settings.srpId answer) := by
    simp only [clientCheck, halgo, passwordAlgo, hanswer]
  refine ⟨settings, _, hchallenge, hcheck, ?_, ?_⟩
  · rw [srpClientProof_eq, Except.ok.injEq] at hanswer
    subst hanswer
    refine decodeBare_putCheck rfl ?_ ?_
    · show (srpResidue _).length < 2 ^ 24
      rw [srpResidue, length_srpPadToHash]
      decide
    · show (srpProof _ _ _ _ _ _).length < 2 ^ 24
      rw [srpProof, Arr.length_toList]
      decide
  · exact checkSrp_srpClientProof hprotected' hchallenged hanswer (h.scrambler settings _ hchallenge hcheck)

theorem does_prove (hphone : phone ≠ []) (hkey : c.ctx.authKeyId = l.key) (hid : l.userId ≠ 0) {row : PasswordRow}
    (hpassword : row.hasPassword = true)
    (hknows : Knows cfg.primitives pbkdf2HmacSha512 password random (c.draws 2).challenge row) :
    ∃ row', Does cfg.primitives l (Entered l phone (some row) true) (c.prove cfg pbkdf2HmacSha512 password random) 7
      fun answer s => (∃ user, answer = .authorization user ∧ user.id = l.userId) ∧
        Entered l phone (some row') false s := by
  obtain ⟨settings, check, hchallenge, hcheck, hread, hpasses⟩ := hknows.exists_check
  refine ⟨.ofSettings settings, ?_⟩
  have hneeds : (normalized (some row.toSettings)).hasPassword = true := by
    rw [hasPassword_normalized]
    exact hpassword
  refine (does_handleAccountGetPassword hphone hid hkey hneeds hchallenge).bind_value (n := 4) ?_
  simp only [hcheck]
  exact does_handleAuthCheckPassword hphone hread hid hkey hpasses

/-- The key is logged in, at the end of the login. -/
theorem does_loginWithPassword (hphone : phone ≠ []) (hsends : c.Sends cfg phone)
    (hvalid : validPhone cfg.phones phone = true) (hkey : c.ctx.authKeyId = l.key) (hhash : c.hash = l.hash)
    (hid : l.userId ≠ 0)
    (hknows : ∀ row, row? = some row → row.hasPassword = true →
      Knows cfg.primitives pbkdf2HmacSha512 password random (c.draws 2).challenge row) :
    Does cfg.primitives l (Ready l phone row?) (c.loginWithPassword cfg pbkdf2HmacSha512 password random) 17
      fun answer s => ∃ user, answer = .authorization user ∧ user.id = l.userId ∧ s.LoggedIn l.key l.userId false := by
  cases hneeded : row?.any PasswordRow.hasPassword with
  | false =>
    refine Does.mono (J := fun answer s => (∃ user, answer = .authorization user ∧ user.id = l.userId) ∧
      Entered l phone row? false s) ((does_login hphone hsends hvalid hkey hhash hid hneeded).bind (n := 0) ?_)
      (by decide) ?_
    · rintro answer s ⟨hanswer, hs⟩
      simp only [Bool.false_eq_true, if_false] at hanswer
      obtain ⟨user, rfl, huser⟩ := hanswer
      exact does_pure hphone (steady_and steady_entered) (fun s hs => ⟨⟨user, rfl, huser⟩, hs⟩) s hs
    · rintro answer s ⟨⟨user, hanswer, huser⟩, hs⟩
      exact ⟨user, hanswer, huser, hs.login⟩
  | true =>
    obtain ⟨row, rfl⟩ : ∃ row, row? = some row := by
      cases row? with
      | none => cases hneeded
      | some row => exact ⟨row, rfl⟩
    have hpassword : row.hasPassword = true := hneeded
    obtain ⟨row', hprove⟩ := does_prove hphone hkey hid hpassword (hknows row rfl hpassword)
    refine Does.mono (J := fun answer s => (∃ user, answer = .authorization user ∧ user.id = l.userId) ∧
      Entered l phone (some row') false s) ((does_login hphone hsends hvalid hkey hhash hid hneeded).bind (n := 7) ?_)
      (by decide) ?_
    · rintro answer s ⟨hanswer, hs⟩
      simp only [if_true] at hanswer
      subst hanswer
      exact hprove s hs
    · rintro answer s ⟨⟨user, hanswer, huser⟩, hs⟩
      exact ⟨user, hanswer, huser, hs.login⟩

end Login

/-! ## Side by side -/

theorem validPhone_ne_nil {lib : PhoneLibrary} {phone : Bytes} (h : validPhone lib phone = true) : phone ≠ [] := by
  rintro rfl
  simp [validPhone] at h

/-- Who is logged in with the key. -/
theorem currentUser_of_loggedIn {P : Primitives} {s : Stores} {k : Arr 8} {userId : Int64}
    (h : s.LoggedIn k userId false) :
    ((resolveCurrentUser k).exec (StoreCall.exec P) s).result = .ok { userId, authorized := true } := by
  obtain ⟨row, hrow, rfl, hpending⟩ := h
  unfold resolveCurrentUser
  simp [Prog.exec, Prog.run_bind, Prog.run_perform, StoreCall.exec, Prog.idle, Stores.authorizationsByAuthKey, hrow,
    Stores.rowToAuthorization, hpending]

section Hosts

variable {ι : Type} {cfg : Config} {c : LoginClient} {i : ι} {requests : ι → List Request} {s : Stores}
  {userId : Int64} {strangers : List (Arr 8)}

/-- The requests that the clients send. -/
def Sent (c : LoginClient) (i : ι) (requests : ι → List Request) (j : ι) (r : Request) : Prop :=
  (j = i → r.ctx = c.ctx) ∧ (j ≠ i → r ∈ requests j)

/-- To the client that logs in, the turns of the others are what it expects of them. -/
theorem hosts_clients
    (hstrangers : ∀ k ∈ strangers, k ≠ c.ctx.authKeyId ∧ ∀ a, s.authorizations.find k = some a → a.userId ≠ userId)
    (hothers : ∀ j ≠ i, ∀ r ∈ requests j, r.Foreign (c.pending s userId strangers)) :
    Pool.Hosts (StoreCall.attempt cfg.primitives) (around cfg.primitives (c.pending s userId strangers))
      (c.pending s userId strangers).Guard i
      (fun j call => ∃ r, Sent c i requests j r ∧ r.Makes (c.pending s userId strangers).Guard call)
      (fun j e => ∃ m, e = atMoment m ∧ (j = i → Works m)) where
  env := by
    rintro j e s ⟨m, rfl, -⟩ hs
    exact ⟨hs.hasPassword, hs.strangers⟩
  keeps := by
    rintro j call s ⟨r, hr, hcall⟩ hs
    refine guard_attempt (fun hlogin => ?_) hcall hs
    by_cases hj : j = i
    · rw [hr.1 hj]
      exact fun hmem => (hstrangers _ hmem).1 rfl
    · exact (hothers j hj r (hr.2 hj)).login hlogin
  step := by
    rintro j hj call e s ⟨r, hr, hcall⟩ ⟨m, rfl, -⟩ hs
    exact ⟨call, m, (hothers j hj r (hr.2 hj)).spares hcall, rfl⟩
  own := by
    rintro e ⟨m, rfl, hm⟩
    exact ⟨m, rfl, hm rfl⟩

end Hosts

/-- **A login completes.** Whoever owns the phone of an account, and knows its password if it has one, is logged in
once the requests have had their turns, whatever other clients do in between with other keys and other codes. -/
theorem login_completes {ι : Type} [DecidableEq ι] (cfg : Config) (pbkdf2HmacSha512 : Pbkdf2) (password random : Bytes)
    (c : LoginClient) (phone : Bytes) (userId : Int64) (strangers : List (Arr 8)) (i : ι) (requests : ι → List Request)
    (s : Stores) (turns : List (ι × Moment)) (hsends : c.Sends cfg phone) (hvalid : validPhone cfg.phones phone = true)
    (hid : userId ≠ 0) (howns : s.Owns phone userId) (hbinds : s.CanBind c.ctx.authKeyId userId)
    (hknows : ∀ row, s.accountPasswords.find userId = some row → row.hasPassword = true →
      Knows cfg.primitives pbkdf2HmacSha512 password random (c.draws 2).challenge row)
    (hstrangers : ∀ k ∈ strangers, k ≠ c.ctx.authKeyId ∧ ∀ a, s.authorizations.find k = some a → a.userId ≠ userId)
    (hothers : ∀ j ≠ i, ∀ r ∈ requests j, r.Foreign (c.pending s userId strangers))
    (hworks : ∀ m, (i, m) ∈ turns → Works m)
    (henough : 17 ≤ turns.countP fun t => t.1 = i) :
    let pool : Pool ι StoreCall StoreCall.Res Exn Answer Stores :=
      { progs := fun j =>
          if j = i then c.loginWithPassword cfg pbkdf2HmacSha512 password random else session cfg internal (requests j)
        state := s }
    let pool' := pool.interleave (StoreCall.attempt cfg.primitives) (turns.map fun t => (t.1, atMoment t.2))
    (∃ user, pool'.progs i = .ret (.authorization user) ∧ user.id = userId) ∧
      ((resolveCurrentUser c.ctx.authKeyId).exec (StoreCall.exec cfg.primitives) pool'.state).result =
        .ok { userId, authorized := true } := by
  intro pool pool'
  have hphone := validPhone_ne_nil hvalid
  have hassured : Pool.Assured (StoreCall.attempt cfg.primitives) (around cfg.primitives (c.pending s userId strangers))
      (c.pending s userId strangers).Guard i
      (fun j call => ∃ r, Sent c i requests j r ∧ r.Makes (c.pending s userId strangers).Guard call)
      (Prog.Returns fun answer s => ∃ user, answer = .authorization user ∧ user.id = userId ∧
        s.LoggedIn c.ctx.authKeyId userId false) 17 pool := by
    refine ⟨⟨rfl, fun k hk => (hstrangers k hk).2⟩, fun j => ?_, ?_⟩
    · by_cases hj : j = i
      · simp only [pool, if_pos hj]
        refine (makingAny_loginWithPassword cfg pbkdf2HmacSha512 password random c).mono fun call h => ?_
        obtain ⟨r, hr, hcall⟩ := h
        exact ⟨r, ⟨fun _ => hr, fun hne => absurd hj hne⟩, hcall⟩
      · simp only [pool, if_neg hj]
        exact makingAny_session cfg internal fun r hr => ⟨fun heq => absurd heq hj, fun _ => hr⟩
    · simp only [pool, if_true]
      exact does_loginWithPassword hphone hsends hvalid rfl rfl hid hknows s ⟨howns, hbinds, rfl⟩
  have hturns : ∀ t ∈ turns.map fun t => (t.1, atMoment t.2),
      ∃ m, t.2 = atMoment m ∧ (t.1 = i → Works m) := by
    intro t ht
    obtain ⟨⟨j, m⟩, hmem, rfl⟩ := List.mem_map.mp ht
    exact ⟨m, rfl, fun hj => hworks m (hj ▸ hmem)⟩
  have hcount : 17 ≤ (turns.map fun t => (t.1, atMoment t.2)).countP fun t => t.1 = i := by
    rw [List.countP_map]
    exact henough
  obtain ⟨answer, hend, user, rfl, huser, hlogin⟩ :=
    Pool.ensures_interleave (hosts_clients hstrangers hothers) hturns hassured hcount
  exact ⟨⟨user, hend, huser⟩, currentUser_of_loggedIn hlogin⟩

/-! ### Two clients -/

def guardedConfig : Config := { primitives := tailPrimitives, phones := sampleLibrary, otpSender := none }

/-- The sample account, with the password `swordfish`. -/
def guardedStores : Stores := { sampleStores with accountPasswords := Table.empty.upsert 7 swordfishRow }

def guardedDraw : HandlerDraw :=
  { sendCode := sampleDraw, accessHash := 77, challenge := challengeDraw 11, now := 1000 }

/-- The owner of the account. -/
def guardedClient : LoginClient where
  ctx := { authKeyId := Arr.zero 8, sessionId := 1 }
  sendCodeBody := putBytes samplePhone ++ putInt32 0 ++ putBytes [] ++ putUint32 0
  signInBody hash := putUint32 1 ++ putBytes samplePhone ++ putBytes hash ++ putBytes sampleCode
  draws _ := guardedDraw

def otherKey : Arr 8 := Arr.ofList 8 [1]

/-- Somebody who asks for a code for the same phone, and for a challenge. -/
def otherRequests : Bool → List Request
  | true => []
  | false =>
    [{ method := .authSendCode
       ctx := { authKeyId := otherKey, sessionId := 2 }
       body := guardedClient.sendCodeBody
       draw := { guardedDraw with sendCode := { sampleDraw with hash := otherKey } } },
      { method := .accountGetPassword
        ctx := { authKeyId := otherKey, sessionId := 2 }
        body := []
        draw := guardedDraw }]

/-- Now and then the database does not answer the other client. -/
def alternatingTurns : List (Bool × Moment) :=
  (List.replicate 9 [(true, quietMoment), (false, quietMoment), (true, quietMoment),
    (false, { quietMoment with unread := some "08006" })]).flatten

theorem guardedStores_owns : guardedStores.Owns samplePhone 7 := by
  refine ⟨⟨_, rfl, rfl, rfl⟩, fun id row hrow _ _ => ?_⟩
  simp only [guardedStores, sampleStores, ownedBy, Table.find_upsert, Table.find_empty] at hrow
  split at hrow
  · next hid => exact hid
  · cases hrow

theorem login_completes_swordfish :
    let pool : Pool Bool StoreCall StoreCall.Res Exn Answer Stores :=
      { progs := fun j =>
          if j = true then guardedClient.loginWithPassword guardedConfig tailPbkdf2 (ascii "swordfish") [5]
          else session guardedConfig internal (otherRequests j)
        state := guardedStores }
    let pool' :=
      pool.interleave (StoreCall.attempt guardedConfig.primitives) (alternatingTurns.map fun t => (t.1, atMoment t.2))
    (∃ user, pool'.progs true = .ret (.authorization user) ∧ user.id = 7) ∧
      ((resolveCurrentUser guardedClient.ctx.authKeyId).exec (StoreCall.exec guardedConfig.primitives)
        pool'.state).result = .ok { userId := 7, authorized := true } := by
  refine login_completes guardedConfig tailPbkdf2 (ascii "swordfish") [5] guardedClient samplePhone 7 [otherKey] true
    otherRequests guardedStores alternatingTurns ?_ (by decide) (by decide) guardedStores_owns ?_ ?_ ?_ ?_ ?_
    (by decide)
  · exact ⟨⟨⟨samplePhone, 0, []⟩, [], rfl, by decide⟩, ⟨samplePhone, [], rfl, by decide⟩⟩
  · refine ⟨⟨{}, rfl, rfl, by decide⟩, by decide, ?_⟩
    intro old hold
    cases hold
  · rintro row hrow -
    obtain rfl : swordfishRow = row := by simpa [guardedStores] using hrow
    have hverifier : srpComputeVerifier tailPrimitives tailPbkdf2 (ascii "swordfish") (ascii "salt one") srpBaseSalt2 =
        .ok swordfishRow.srpVerifier := by rw [swordfishRow, srpComputeVerifier_eq]
    exact ⟨⟨ascii "salt one", rfl, rfl, hverifier⟩, fun _ _ _ _ => rfl⟩
  · intro k hk
    rw [List.mem_singleton.mp hk]
    refine ⟨by decide, ?_⟩
    intro row hrow
    cases hrow
  · intro j hj r hr
    obtain rfl : j = false := Bool.eq_false_iff.mpr hj
    simp only [otherRequests, List.mem_cons, List.not_mem_nil, or_false] at hr
    rcases hr with rfl | rfl
    · exact ⟨by decide, by decide, by decide, fun h => absurd h (by decide)⟩
    · exact ⟨by decide, by decide, by decide, fun _ _ => List.mem_singleton_self _⟩
  · intro m hm
    simp only [alternatingTurns, List.mem_flatten, List.mem_replicate] at hm
    obtain ⟨turns, ⟨-, rfl⟩, hm⟩ := hm
    simp only [List.mem_cons, Prod.mk.injEq, true_and, Bool.true_eq_false, false_and, List.not_mem_nil, or_false,
      false_or, or_self] at hm
    subst hm
    exact ⟨rfl, rfl, rfl⟩

end ShuzaGram.Server

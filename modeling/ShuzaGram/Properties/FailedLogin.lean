import ShuzaGram.Auth.LoginRuns
import ShuzaGram.Properties.OwnerDrift

/-!
# Logins that fail

What `signUp` and `signIn` leave behind when they throw. Nobody else acts on the stores during the
call, but every call may meet another clock reading, and the database may refuse any write and leave any
read unanswered (`atMoments`, `StoreCall.attempt`).

The authorizations are never touched by a call that throws. The code is used up before the owner of the
phone is read once more and the account is created, and the account is created before it is logged in to;
nothing takes the earlier steps back.
-/

namespace ShuzaGram.Auth

open Infra Domain Store Mtproto.Crypto

/-- The accounts that a run tried to create. -/
def createCall : StoreEvent → Option User
  | ⟨.usersCreate u, _⟩ => some u
  | _ => none

def creates (trace : List StoreEvent) : List User := trace.filterMap createCall

/-- The exceptions that came from a login. -/
def bindError : StoreEvent → Option Exn
  | ⟨.authorizationsBind _, .error e⟩ => some e
  | _ => none

def bindErrors (trace : List StoreEvent) : List Exn := trace.filterMap bindError

theorem mem_bindErrors {trace : List StoreEvent} {e : Exn} (h : e ∈ bindErrors trace) :
    ∃ a, event (.authorizationsBind a) (.error e) ∈ trace := by
  obtain ⟨⟨call, answer⟩, hmem, hx⟩ := List.mem_filterMap.mp h
  unfold bindError at hx
  split at hx
  · next a e' heq =>
    cases heq
    cases hx
    exact ⟨a, hmem⟩
  · cases hx

section

variable (P : Primitives) (lib : PhoneLibrary) (moments : Nat → Moment) (template : Authorization)
  (phoneNumber hash : Bytes)

/-- The run ended behind the use of the code: the owner of the phone could not be read again. -/
def OwnerUnread (phone : Bytes) (trace : List StoreEvent) : Prop :=
  ∃ before rec e, trace = before ++ [event (.codesConsumeSignUpVerified hash phone) (.ok (some rec)),
    event (.usersByPhone phone) (.error e)]

/-- What a `signUp` that threw leaves. -/
structure SignUpFailed (s : Stores) (o : Prog.Outcome StoreCall.Res Exn Stores User) : Prop where
  authorizations : o.state.authorizations = s.authorizations
  /-- No account that was there before is changed or lost. -/
  oldUsers : ∀ id row, s.users.find id = some row → o.state.users.find id = some row
  /-- Up to the login itself, no account is left behind. -/
  users : binds o.trace = [] → o.state.users = s.users
  /-- Up to the creation of the account, a record that could be used stays, unless the phone has an
  owner by now or its owner could not be read after the code was used up. -/
  codes : creates o.trace = [] → ∀ rec, s.codes.find hash = some rec → rec.signUpVerified = true →
    o.state.codes.find hash = some rec ∨
      (o.state.codes.find hash = none ∧ ((s.usersByPhone (normalizePhone lib phoneNumber)).isSome ∨
        OwnerUnread hash (normalizePhone lib phoneNumber) o.trace))

/-- What a `signIn` whose login was refused leaves: the code is used up, the rest is as it was. -/
structure LoginRefused (s : Stores) (o : Prog.Outcome StoreCall.Res Exn Stores SignInResult) : Prop where
  authorizations : o.state.authorizations = s.authorizations
  users : o.state.users = s.users
  accepted : (s.codes.find hash).isSome
  codes : o.state.codes.find hash = none

theorem around_atMoments (s : Stores) (phone : Bytes) :
    Around (atMoments moments) phone (fun _ x => x = phoneOwner s.users phone) (·.users = s.users) where
  codes _ _ := rfl
  keeps _ _ h := h
  withCodes _ _ h := h
  ask n s' h := by
    show phoneOwner s'.users phone = _
    rw [h]

/-- A run whose only writes to the accounts are creations keeps the old accounts. -/
theorem run_keeps_users {α : Type} (p : StoreProg α) (n : Nat) (s : Stores)
    (h : ∀ x ∈ (p.run (StoreCall.attempt P) (atMoments moments) n s).trace,
      x.1.area = some .users → ∃ u, x.1 = .usersCreate u) (id : Int64) (row : User)
    (hrow : s.users.find id = some row) :
    (p.run (StoreCall.attempt P) (atMoments moments) n s).state.users.find id = some row := by
  have henv : ∀ k s', s'.users.find id = some row →
      (atMoments moments k s').users.find id = some row := fun _ _ hs => hs
  refine Prog.run_preserves (I := fun s' => s'.users.find id = some row) henv
    (fun call s' hcall hs => ?_) p n s h hrow
  by_cases harea : call.area = some .users
  case neg => rw [((attempts_attempt P).agree call s').users harea, hs]
  case pos =>
    obtain ⟨u, rfl⟩ := hcall harea
    rw [(attempts_attempt P).others (.usersCreate u) s' rfl]
    refine Stores.write_post (Q := fun s' => s'.users.find id = some row) hs fun created s'' hok => ?_
    obtain ⟨hfresh, -, -, newRow, t, rfl⟩ := Stores.usersCreate_eq_ok hok
    have hne : id ≠ s'.moment.newUserId := by
      rintro rfl
      rw [hfresh] at hs
      cases hs
    simp only [Table.find_upsert, if_neg hne, hs]

/-- **A `signUp` that throws.** -/
theorem signUp_failed (firstName lastName : Bytes) (accessHash : Int64) (s : Stores) (e : Exn) :
    let o := (signUp lib template phoneNumber hash firstName lastName accessHash).run
      (StoreCall.attempt P) (atMoments moments) 0 s
    o.result = .error e → SignUpFailed lib phoneNumber hash s o := by
  intro o hres
  have hrun : SignUpRun True _ 0 template _ hash firstName lastName accessHash s.codes o.state.codes o.trace
      o.result :=
    signUp_run (attempts_attempt P) template phoneNumber hash firstName lastName accessHash
      (around_atMoments moments s (normalizePhone lib phoneNumber)) 0 s rfl
  have hauth : (∀ x ∈ o.trace, Quiet .authorizations x) → o.state.authorizations = s.authorizations :=
    run_sameIn (attempts_attempt P) (sameIn_atMoments .authorizations moments) _ 0 s
  have husers : (∀ x ∈ o.trace, Quiet .users x) → o.state.users = s.users :=
    run_sameIn (attempts_attempt P) (sameIn_atMoments .users moments) _ 0 s
  have hold : (∀ x ∈ o.trace, x.1.area = some .users → ∃ u, x.1 = .usersCreate u) →
      ∀ id row, s.users.find id = some row → o.state.users.find id = some row :=
    run_keeps_users P moments _ 0 s
  generalize o = o' at hres hrun hauth husers hold ⊢
  obtain ⟨result, s', trace⟩ := o'
  simp only at hrun hres hauth husers hold
  generalize hcodes : s'.codes = codes' at hrun
  have hkept : codes' = s.codes → ∀ rec, s.codes.find hash = some rec → s'.codes.find hash = some rec :=
    fun h rec hrec => by rw [hcodes, h, hrec]
  -- Up to the creation every way out changes the codes alone; from there on only the login can throw.
  cases hrun with
  | malformed =>
    exact ⟨hauth (by simp), hold (by simp), fun _ => husers (by simp),
      fun _ rec hrec _ => .inl (hkept rfl rec hrec)⟩
  | missing hrec =>
    refine ⟨hauth ?_, hold ?_, fun _ => husers ?_, fun _ rec hrec _ => .inl (hkept rfl rec hrec)⟩ <;>
      simp [Quiet, StoreCall.area]
  | unfit hrec =>
    refine ⟨hauth ?_, hold ?_, fun _ => husers ?_, fun _ rec hrec _ => .inl (hkept rfl rec hrec)⟩ <;>
      simp [Quiet, StoreCall.area]
  | claimed hrec hx howner =>
    refine ⟨hauth ?_, hold ?_, fun _ => husers ?_, fun _ _ _ _ => .inr ⟨?_, .inl ?_⟩⟩
    case refine_4 => simp [hcodes]
    case refine_5 =>
      show (phoneOwner s.users _).isSome
      rw [← hx]
      exact isSome_of_ownerId howner
    all_goals simp [Quiet, StoreCall.area]
  | claimedLate hrec hx hfree hy howner => exact absurd hfree (by rw [hx, ← hy]; exact howner)
  | notCreated hrec hphone hverified =>
    refine ⟨hauth ?_, hold ?_, fun _ => husers ?_, fun h => ?_⟩
    case refine_4 => simp [creates, createCall] at h
    all_goals simp [Quiet, StoreCall.area]
  | @created rec x y u a answer hrec hphone hverified ha =>
    cases answer with
    | ok _ => cases hres
    | error e' =>
      refine ⟨hauth ?_, hold ?_, fun h => ?_, fun h => ?_⟩
      case refine_3 => simp [binds, bindCall] at h
      case refine_4 => simp [creates, createCall] at h
      all_goals simp [Quiet, StoreCall.area]
  | unread _ hrec =>
    refine ⟨hauth ?_, hold ?_, fun _ => husers ?_, fun _ rec hrec _ => .inl (hkept rfl rec hrec)⟩ <;>
      simp [Quiet, StoreCall.area]
  | unreadLate _ hrec =>
    refine ⟨hauth ?_, hold ?_, fun _ => husers ?_, fun _ _ _ _ => .inr ⟨?_, .inr ⟨[_, _], _, _, rfl⟩⟩⟩
    case refine_4 => simp [hcodes]
    all_goals simp [Quiet, StoreCall.area]

/-- **A `signIn` whose login was refused.** -/
theorem signIn_refused (code : Bytes) (passwords : Bool) (s : Stores) (e : Exn) :
    let o := (signIn lib template phoneNumber hash code passwords).run
      (StoreCall.attempt P) (atMoments moments) 0 s
    e ∈ bindErrors o.trace → LoginRefused hash s o := by
  intro o herror
  obtain ⟨a, hmem⟩ := mem_bindErrors herror
  have hrun : SignInRun True _ 0 template _ hash code passwords s.codes o.state.codes o.trace o.result :=
    signIn_run (attempts_attempt P) template phoneNumber hash code passwords
      (around_atMoments moments s (normalizePhone lib phoneNumber)) 0 s rfl
  have hauth : (∀ x ∈ o.trace, Quiet .authorizations x) → o.state.authorizations = s.authorizations :=
    run_sameIn (attempts_attempt P) (sameIn_atMoments .authorizations moments) _ 0 s
  have husers : (∀ x ∈ o.trace, Quiet .users x) → o.state.users = s.users :=
    run_sameIn (attempts_attempt P) (sameIn_atMoments .users moments) _ 0 s
  generalize o = o' at hmem hrun hauth husers ⊢
  obtain ⟨result, s', trace⟩ := o'
  simp only at hrun hmem hauth husers
  generalize hcodes : s'.codes = codes' at hrun
  have hbind : a ∈ binds trace := List.mem_filterMap.mpr ⟨_, hmem, rfl⟩
  cases hrun with
  | refused hverify | needSignUp hverify =>
    rw [hverify.binds_eq_nil] at hbind
    cases hbind
  | unreadPassword _ hverify =>
    rw [binds_append, hverify.binds_eq_nil] at hbind
    cases hbind
  | @bound tr reads u needed b answer hverify hreads hb =>
    have hanswer : ∃ e', answer = .error e' := by
      rcases List.mem_append.mp hmem with h | h
      · rcases List.mem_append.mp h with h | h
        · exact absurd (hverify.area_of_mem _ h) (by simp [StoreCall.area])
        · cases hreads.call_eq _ h
      · cases List.mem_singleton.mp h
        exact ⟨e, rfl⟩
    obtain ⟨e', rfl⟩ := hanswer
    obtain ⟨rec, x, y, hrec, -, -, -, -, -, -, -, -, -, rfl, -⟩ := hverify.of_some
    -- the reads before the login change nothing, and the login threw
    have hquiet : ∀ area, area ≠ .codes → ∀ v ∈ tr ++ reads ++ [event (.authorizationsBind b) (.error e')],
        Quiet area v := by
      intro area hne v hv harea
      rcases List.mem_append.mp hv with hv | hv
      · rcases List.mem_append.mp hv with hv | hv
        · rcases hverify.area_of_mem v hv with h | h
          · rw [h] at harea
            cases harea
          · rw [h] at harea
            exact absurd (Option.some.inj harea).symm hne
        · rw [hreads.call_eq v hv] at harea
          cases harea
      · rw [List.mem_singleton.mp hv]
        exact ⟨e', rfl⟩
    exact ⟨hauth (hquiet _ (by decide)), husers (hquiet _ (by decide)), by simp [hrec], by simp [hcodes]⟩

/-- **What a failed login leaves behind.** A `signUp` that throws never touches an authorization or an
existing account; it leaves no account behind unless it got as far as the login, and it uses no code up
unless it got as far as creating the account or could not read the owner of the phone again. A `signIn`
whose login is refused has used its code up, and nothing else. -/
theorem failed_login_effects (s : Stores) :
    (∀ firstName lastName accessHash e,
      let o := (signUp lib template phoneNumber hash firstName lastName accessHash).run
        (StoreCall.attempt P) (atMoments moments) 0 s
      o.result = .error e → SignUpFailed lib phoneNumber hash s o) ∧
    ∀ code passwords e,
      let o := (signIn lib template phoneNumber hash code passwords).run
        (StoreCall.attempt P) (atMoments moments) 0 s
      e ∈ bindErrors o.trace → LoginRefused hash s o :=
  ⟨fun firstName lastName accessHash =>
      signUp_failed P lib moments template phoneNumber hash firstName lastName accessHash s,
    fun code passwords => signIn_refused P lib moments template phoneNumber hash code passwords s⟩

end

/-! ## Logins on a temporary key -/

/-- The call left no trace: accounts and authorizations are as before, and a record that could be used
is still there, unless the phone has an owner. -/
structure NoTrace (lib : PhoneLibrary) (phoneNumber hash : Bytes) (s s' : Stores) : Prop where
  users : s'.users = s.users
  authorizations : s'.authorizations = s.authorizations
  codes : ∀ rec, s.codes.find hash = some rec → rec.signUpVerified = true →
    s'.codes.find hash = some rec ∨ (s.usersByPhone (normalizePhone lib phoneNumber)).isSome

/-- The sample key, as a key that expires. -/
def temporaryKey (s : Stores) : Stores :=
  { s with authKeys := Table.empty.upsert (Arr.zero 8) { expiresAt := 5000 } }

def sampleMoments (k : Nat) : Moment := { now := 1000 + k, newUserId := 8 }

/-- A phone without an account, after a right code. -/
def sampleVerified : Stores :=
  let sent := ((sendCode sampleLibrary samplePhone sampleCode none 300 sampleDraw).exec
    (StoreCall.exec constPrimitives) { temporaryKey sampleStores with users := Table.empty }).state
  ((signIn sampleLibrary { authKeyId := Arr.zero 8 } samplePhone sampleHash sampleCode true).exec
    (StoreCall.exec constPrimitives) sent).state

def sampleSignUp : Prog.Outcome StoreCall.Res Exn Stores User :=
  (signUp sampleLibrary { authKeyId := Arr.zero 8 } samplePhone sampleHash (ascii "Ann") [] 77).run
    (StoreCall.attempt constPrimitives) (atMoments sampleMoments) 0 sampleVerified

def sampleSignIn : Prog.Outcome StoreCall.Res Exn Stores SignInResult :=
  (signIn sampleLibrary { authKeyId := Arr.zero 8 } samplePhone sampleHash sampleCode true).run
    (StoreCall.attempt constPrimitives) (atMoments sampleMoments) 0 (temporaryKey sampleSent)

/-- **On a temporary key, `signUp` throws and leaves an account behind, and `signIn` throws and has used
the code up.** -/
theorem temporaryKey_leaves_traces :
    (sampleSignUp.result = .error .authKeyNotPermanent ∧
      ¬ NoTrace sampleLibrary samplePhone sampleHash sampleVerified sampleSignUp.state) ∧
    (sampleSignIn.result = .error .authKeyNotPermanent ∧
      (sampleSent.codes.find sampleHash).isSome ∧ sampleSignIn.state.codes.find sampleHash = none) := by
  refine ⟨⟨by decide +kernel, fun h => ?_⟩, by decide +kernel, by decide +kernel, by decide +kernel⟩
  have hnew : (sampleSignUp.state.users.find 8).isSome := by decide +kernel
  rw [h.users] at hnew
  exact absurd hnew (by decide +kernel)

/-- The connection to the database is lost at the second read of the owner. -/
def lostMoments (k : Nat) : Moment :=
  { now := 1000 + k, newUserId := 8, unread := if k = 3 then some "08006" else none }

def sampleLostSignUp : Prog.Outcome StoreCall.Res Exn Stores User :=
  (signUp sampleLibrary { authKeyId := Arr.zero 8 } samplePhone sampleHash (ascii "Ann") [] 77).run
    (StoreCall.attempt constPrimitives) (atMoments lostMoments) 0 sampleVerified

theorem failed_login_effects_temporaryKey :
    SignUpFailed sampleLibrary samplePhone sampleHash sampleVerified sampleSignUp ∧
      LoginRefused sampleHash (temporaryKey sampleSent) sampleSignIn ∧
      SignUpFailed sampleLibrary samplePhone sampleHash sampleVerified sampleLostSignUp ∧
      (sampleVerified.codes.find sampleHash).isSome ∧ sampleLostSignUp.state.codes.find sampleHash = none := by
  exact ⟨(failed_login_effects constPrimitives sampleLibrary sampleMoments { authKeyId := Arr.zero 8 }
      samplePhone sampleHash sampleVerified).1 (ascii "Ann") [] 77 .authKeyNotPermanent (by decide +kernel),
    (failed_login_effects constPrimitives sampleLibrary sampleMoments { authKeyId := Arr.zero 8 }
      samplePhone sampleHash (temporaryKey sampleSent)).2 sampleCode true .authKeyNotPermanent
      (by decide +kernel),
    (failed_login_effects constPrimitives sampleLibrary lostMoments { authKeyId := Arr.zero 8 }
      samplePhone sampleHash sampleVerified).1 (ascii "Ann") [] 77 (.sqlError "08006") (by decide +kernel),
    by decide +kernel, by decide +kernel⟩

end ShuzaGram.Auth

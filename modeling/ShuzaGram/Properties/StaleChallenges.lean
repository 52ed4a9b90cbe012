import Mathlib.Logic.Function.Basic
import ShuzaGram.Infra.History
import ShuzaGram.Properties.SrpCompleteness

/-!
# Sessions that prove one password

Every `account.getPassword` stores a new challenge for the account, but only the first one draws an
`srp_id`; all the later challenges have the same. A check made from a challenge that has since been
replaced is to be answered with `SRP_ID_INVALID`. It passes the comparison of the ids, and its proof is
found to be wrong.

The sessions of an account make their requests one after another each, and interleave call by call. A
right password is never called wrong in a run in which, at every check with the stored id, the stored
challenge is the one the check was made from, and the hash of `A` and `B` is not zero.
-/

namespace ShuzaGram.Auth

open Infra Domain Store Mtproto.Crypto
open StoreProg

/-! ## The sessions of an account -/

/-- What `GetPassword` returned to a session, and how many challenges were stored before this one. -/
structure Obtained where
  nth : Nat
  settings : PasswordSettings

/-- The request of a session, as far as it has come. -/
inductive Doing where
  | idle
  | asking (p : StoreProg PasswordSettings)
  | proving (challenge : Obtained) (check : PasswordCheck) (p : StoreProg Unit)

structure SessionState where
  obtained : List Obtained := []
  doing : Doing := .idle

/-- A check with its result; `storedBy` are the sessions that had stored a challenge, the latest last. -/
structure Checked (ι : Type) where
  session : ι
  challenge : Obtained
  storedBy : List ι
  result : Except Exn Unit

structure Sessions (ι : Type) where
  stores : Stores
  storedBy : List ι := []
  sessions : ι → SessionState := fun _ => {}
  checks : List (Checked ι) := []

/-- A session sends a request, or the request of a session makes its next call to the stores. -/
inductive Move (ι : Type) where
  | getPassword (i : ι) (draw : ChallengeDraw)
  | checkPassword (i : ι) (k : Nat) (random : Bytes)
  | turn (i : ι) (m : Moment)

/-- The check that a client makes from its password and the answer to `account.getPassword`. -/
def clientCheck (P : Primitives) (pbkdf2HmacSha512 : Pbkdf2) (password : Bytes) (settings : PasswordSettings)
    (random : Bytes) : Option PasswordCheck :=
  match settings.currentAlgo with
  | none => none
  | some algo =>
    match srpClientProof P pbkdf2HmacSha512 password algo.salt1 algo.salt2 settings.srpB random with
    | .ok answer => some (provenCheck settings.srpId answer)
    | .error _ => none

/-- Whether a call stored a challenge. -/
def storesChallenge : (op : StoreCall) → Except Exn op.Res → Bool
  | .passwordsSave .., .ok _ => true
  | _, _ => false

namespace Sessions

variable {ι : Type} [DecidableEq ι]

def setSession (c : Sessions ι) (i : ι) (x : SessionState) : Sessions ι :=
  { c with sessions := Function.update c.sessions i x }

/-- The next call of `account.getPassword` of a session. -/
def turnAsking (P : Primitives) (c : Sessions ι) (i : ι) (m : Moment) : StoreProg PasswordSettings → Sessions ι
  | .call op k =>
    let (r, s) := StoreCall.exec P op (atMoment m c.stores)
    let storedBy := if storesChallenge op r then c.storedBy ++ [i] else c.storedBy
    let obtained := (c.sessions i).obtained
    let c := { c with stores := s, storedBy }
    match k r with
    | .ret settings => c.setSession i { obtained := obtained ++ [⟨storedBy.length - 1, settings⟩] }
    | .fail _ => c.setSession i { obtained }
    | p => c.setSession i { obtained, doing := .asking p }
  | _ => c

/-- The next call of `auth.checkPassword` of a session. -/
def turnProving (P : Primitives) (c : Sessions ι) (i : ι) (m : Moment) (challenge : Obtained)
    (check : PasswordCheck) : StoreProg Unit → Sessions ι
  | .call op k =>
    let (r, s) := StoreCall.exec P op (atMoment m c.stores)
    let obtained := (c.sessions i).obtained
    let c := { c with stores := s }
    let ended (result : Except Exn Unit) :=
      { c.setSession i { obtained } with
        checks := c.checks ++ [{ session := i, challenge, storedBy := c.storedBy, result }] }
    match k r with
    | .ret () => ended (.ok ())
    | .fail e => ended (.error e)
    | p => c.setSession i { obtained, doing := .proving challenge check p }
  | _ => c

variable (P : Primitives) (pbkdf2HmacSha512 : Pbkdf2) (password : Bytes) (userId : Int64)

/-- One move. A session that waits for an answer sends no request. -/
def step (c : Sessions ι) : Move ι → Sessions ι
  | .getPassword i draw =>
    match (c.sessions i).doing with
    | .idle => c.setSession i { c.sessions i with doing := .asking (getPassword P userId draw) }
    | _ => c
  | .checkPassword i k random =>
    match (c.sessions i).doing, (c.sessions i).obtained[k]? with
    | .idle, some challenge =>
      match clientCheck P pbkdf2HmacSha512 password challenge.settings random with
      | some check =>
        c.setSession i { c.sessions i with doing := .proving challenge check (checkPassword P userId check) }
      | none => c
    | _, _ => c
  | .turn i m =>
    match (c.sessions i).doing with
    | .idle => c
    | .asking p => c.turnAsking P i m p
    | .proving challenge check p => c.turnProving P i m challenge check p

/-- The id says which challenge it is: where a check is about to be made that has the stored id, the stored
challenge is the one the check was made from; and the hash of `A` and `B` is not zero. -/
def identified (c : Sessions ι) : Move ι → Bool
  | .turn i _ =>
    match (c.sessions i).doing, c.stores.accountPasswords.find userId with
    | .proving challenge check _, some row =>
      row.srpId ≠ challenge.settings.srpId ||
        (row.srpB = challenge.settings.srpB && !(P.sha256 (check.a ++ row.srpB)).toList.all (· = 0))
    | _, _ => true
  | _ => true

end Sessions

/-- A check of the right password passed, or it was made from a challenge that another session has replaced and
was rejected as stale. -/
def Checked.Right {ι : Type} (e : Checked ι) : Prop :=
  e.result = .ok () ∨
    (e.result = .error .srpIdInvalid ∧ ∃ j ∈ e.storedBy.drop (e.challenge.nth + 1), j ≠ e.session)

/-! ## The calls of the two requests -/

/-- The rest of `GetPassword` once the challenge is made. -/
def storing (userId : Int64) (settings : PasswordSettings) : StoreProg PasswordSettings := do
  passwordsSave userId settings
  return settings

theorem storing_inj {userId : Int64} {a b : PasswordSettings} (h : storing userId a = storing userId b) : a = b := by
  injection h with hop
  injection hop

section Calls

variable {P : Primitives} {pbkdf2HmacSha512 : Pbkdf2} {password salt1 : Bytes} {row : PasswordRow}

/-- `GetPassword` reads the row, and goes on to store a new challenge. -/
theorem getPassword_eq (userId : Int64) (h : ProtectedBy P pbkdf2HmacSha512 password salt1 row) (draw : ChallengeDraw) :
    ∃ k settings, getPassword P userId draw = .call (.passwordsGetByUser userId) k ∧
      k (.ok (some row.toSettings)) = storing userId settings ∧
      settings.currentAlgo = some (passwordAlgo salt1) ∧
      ProtectedBy P pbkdf2HmacSha512 password salt1 (.ofSettings settings) ∧
      Challenged P (.ofSettings settings) ∧ (row.srpId ≠ 0 → settings.srpId = row.srpId) := by
  obtain ⟨settings, hchallenge, hfacts⟩ := h.withChallenge draw
  have hpassword : (normalized (some row.toSettings)).hasPassword = true := by
    rw [normalized_toSettings h.p_ne_nil]
    exact h.hasPassword
  refine ⟨_, settings, rfl, ?_, hfacts⟩
  simp only [pure, Prog.bind, hpassword, hchallenge, Bool.not_true, Bool.false_eq_true, if_false]
  rfl

theorem getPassword_ne_storing (P : Primitives) (userId : Int64) (draw : ChallengeDraw)
    (settings : PasswordSettings) : getPassword P userId draw ≠ storing userId settings := by
  intro h
  injection h with hop
  cases hop

/-- It is done once the row is stored. -/
theorem storing_eq (userId : Int64) (settings : PasswordSettings) :
    ∃ k, storing userId settings = .call (.passwordsSave userId settings) k ∧ k (.ok ()) = .ret settings ∧
      ∀ e, k (.error e) = .fail e :=
  ⟨_, rfl, rfl, fun _ => rfl⟩

/-- `CheckPassword` reads the row, and is done. -/
theorem checkPassword_eq (P : Primitives) (userId : Int64) (check : PasswordCheck) :
    ∃ k, checkPassword P userId check = .call (.passwordsGetByUser userId) k ∧
      ∀ found, k (.ok found) = match checkSrp P (normalized found) check with
        | .ok () => .ret ()
        | .error e => .fail e := by
  refine ⟨_, rfl, fun found => ?_⟩
  simp only [pure, Prog.bind]
  cases checkSrp P (normalized found) check <;> rfl

/-- A check is made from a proof for the challenge. -/
theorem exists_of_clientCheck {settings : PasswordSettings} {random : Bytes} {check : PasswordCheck}
    (halgo : settings.currentAlgo = some (passwordAlgo salt1))
    (h : clientCheck P pbkdf2HmacSha512 password settings random = some check) :
    ∃ answer, srpClientProof P pbkdf2HmacSha512 password salt1 srpBaseSalt2 settings.srpB random = .ok answer ∧
      check = provenCheck settings.srpId answer := by
  obtain ⟨answer, hanswer⟩ :=
    exists_srpClientProof P pbkdf2HmacSha512 password salt1 srpBaseSalt2 settings.srpB random
  simp only [clientCheck, halgo, passwordAlgo, hanswer, Option.some.injEq] at h
  exact ⟨answer, hanswer, h.symm⟩

/-- A check with another id is stale. -/
theorem checkSrp_srpIdInvalid (h : ProtectedBy P pbkdf2HmacSha512 password salt1 row) {srpId : Int64}
    (hne : row.srpId ≠ srpId) (answer : SrpClientAnswer) :
    checkSrp P (normalized (some row.toSettings)) (provenCheck srpId answer) = .error .srpIdInvalid := by
  rw [normalized_toSettings h.p_ne_nil]
  simp only [checkSrp, provenCheck, PasswordRow.toSettings, h.hasPassword, hne, ne_eq, not_false_eq_true, or_true,
    if_true, Bool.not_true, Bool.false_eq_true, if_false]
  rfl

end Calls

namespace Sessions

variable {ι : Type} [DecidableEq ι] {P : Primitives} {pbkdf2HmacSha512 : Pbkdf2} {password salt1 : Bytes}
  {userId : Int64} {row : PasswordRow} {c : Sessions ι} {i : ι}

/-! ## What a turn does -/

omit [DecidableEq ι] in
theorem exec_passwordsGetByUser (P : Primitives) (m : Moment)
    (hfind : c.stores.accountPasswords.find userId = some row) :
    StoreCall.exec P (.passwordsGetByUser userId) (atMoment m c.stores) =
      (.ok (some row.toSettings), atMoment m c.stores) := by
  simp only [StoreCall.exec, Stores.passwordsGetByUser, atMoment, hfind, Option.map_some]

/-- The turn that makes a new challenge. -/
theorem step_getPassword (h : ProtectedBy P pbkdf2HmacSha512 password salt1 row)
    (hfind : c.stores.accountPasswords.find userId = some row) {draw : ChallengeDraw}
    (hdoing : (c.sessions i).doing = .asking (getPassword P userId draw)) (m : Moment) :
    ∃ settings, settings.currentAlgo = some (passwordAlgo salt1) ∧
      ProtectedBy P pbkdf2HmacSha512 password salt1 (.ofSettings settings) ∧
      Challenged P (.ofSettings settings) ∧ (row.srpId ≠ 0 → settings.srpId = row.srpId) ∧
      c.step P pbkdf2HmacSha512 password userId (.turn i m) =
        { c with stores := atMoment m c.stores }.setSession i
          { c.sessions i with doing := .asking (storing userId settings) } := by
  obtain ⟨k, settings, hcall, hk, halgo, hprotected, hchallenged, hid⟩ := getPassword_eq userId h draw
  have hexec := exec_passwordsGetByUser P m hfind
  refine ⟨settings, halgo, hprotected, hchallenged, hid, ?_⟩
  simp only [step, hdoing, hcall, turnAsking, hexec, hk]
  rfl

/-- The turn that stores the challenge: it fails, or the row is the one of the challenge. -/
theorem step_storing {settings : PasswordSettings}
    (hdoing : (c.sessions i).doing = .asking (storing userId settings)) (m : Moment) :
    c.step P pbkdf2HmacSha512 password userId (.turn i m) =
        { c with stores := atMoment m c.stores }.setSession i { c.sessions i with doing := .idle } ∨
      ∃ s : Stores, s.accountPasswords.find userId = some (.ofSettings settings) ∧
        c.step P pbkdf2HmacSha512 password userId (.turn i m) =
          { c with stores := s, storedBy := c.storedBy ++ [i] }.setSession i
            { obtained := (c.sessions i).obtained ++ [Obtained.mk c.storedBy.length settings] } := by
  obtain ⟨k, hcall, hok, herror⟩ := storing_eq userId settings
  rcases write_cases (Stores.passwordsSave userId settings) (atMoment m c.stores) with
    ⟨e, hwrite⟩ | ⟨u, s, htx, hwrite⟩
  · have hexec : StoreCall.exec P (.passwordsSave userId settings) (atMoment m c.stores) =
        (.error e, atMoment m c.stores) := hwrite
    left
    simp only [step, hdoing, hcall, turnAsking, hexec, herror]
    rfl
  · have hexec : StoreCall.exec P (.passwordsSave userId settings) (atMoment m c.stores) = (.ok (), s) := hwrite
    rw [Stores.passwordsSave, Except.ok.injEq, Prod.mk.injEq] at htx
    right
    refine ⟨s, by simp [← htx.2], ?_⟩
    simp only [step, hdoing, hcall, turnAsking, hexec, hok, storesChallenge, if_true, List.length_append,
      List.length_singleton, Nat.add_sub_cancel]

/-- The turn of a check. -/
theorem step_checkPassword (hfind : c.stores.accountPasswords.find userId = some row) {challenge : Obtained}
    {check : PasswordCheck}
    (hdoing : (c.sessions i).doing = .proving challenge check (checkPassword P userId check)) (m : Moment) :
    c.step P pbkdf2HmacSha512 password userId (.turn i m) =
      { ({ c with stores := atMoment m c.stores }.setSession i { c.sessions i with doing := .idle }) with
        checks := c.checks ++ [{
          session := i
          challenge
          storedBy := c.storedBy
          result := checkSrp P (normalized (some row.toSettings)) check }] } := by
  obtain ⟨k, hcall, hk⟩ := checkPassword_eq P userId check
  have hexec := exec_passwordsGetByUser P m hfind
  simp only [step, hdoing, hcall, turnProving, hexec, hk]
  cases checkSrp P (normalized (some row.toSettings)) check <;> rfl

/-! ## The invariant -/

/-- A request is at one of its calls. -/
def Underway (P : Primitives) (pbkdf2HmacSha512 : Pbkdf2) (password salt1 : Bytes) (userId : Int64)
    (obtained : List Obtained) : Doing → Prop
  | .idle => True
  | .asking p =>
    (∃ draw, p = getPassword P userId draw) ∨
      ∃ settings, p = storing userId settings ∧ settings.currentAlgo = some (passwordAlgo salt1) ∧
        ProtectedBy P pbkdf2HmacSha512 password salt1 (.ofSettings settings) ∧ Challenged P (.ofSettings settings)
  | .proving challenge check p =>
    challenge ∈ obtained ∧ p = checkPassword P userId check ∧
      ∃ random, clientCheck P pbkdf2HmacSha512 password challenge.settings random = some check

/-- What holds of a session. The last field: as long as no other session has stored a challenge after one that
this session obtained, the id has not changed, and it will not by what this session is about to store. -/
structure SoundSession (P : Primitives) (pbkdf2HmacSha512 : Pbkdf2) (password salt1 : Bytes) (userId : Int64)
    (storedBy : List ι) (row : PasswordRow) (i : ι) (x : SessionState) : Prop where
  underway : Underway P pbkdf2HmacSha512 password salt1 userId x.obtained x.doing
  obtained : ∀ o ∈ x.obtained, o.nth < storedBy.length ∧ o.settings.srpId ≠ 0 ∧
    o.settings.currentAlgo = some (passwordAlgo salt1)
  own : ∀ o ∈ x.obtained, (∀ j ∈ storedBy.drop (o.nth + 1), j = i) →
    row.srpId = o.settings.srpId ∧
      ∀ settings, x.doing = .asking (storing userId settings) → settings.srpId = o.settings.srpId

structure Sound (P : Primitives) (pbkdf2HmacSha512 : Pbkdf2) (password salt1 : Bytes) (userId : Int64)
    (c : Sessions ι) (row : PasswordRow) : Prop where
  find : c.stores.accountPasswords.find userId = some row
  protectedBy : ProtectedBy P pbkdf2HmacSha512 password salt1 row
  challenged : c.storedBy ≠ [] → Challenged P row
  session : ∀ i, SoundSession P pbkdf2HmacSha512 password salt1 userId c.storedBy row i (c.sessions i)
  checks : ∀ e ∈ c.checks, e.Right

theorem Sound.setSession (h : Sound P pbkdf2HmacSha512 password salt1 userId c row) (m : Moment) {x : SessionState}
    (hx : SoundSession P pbkdf2HmacSha512 password salt1 userId c.storedBy row i x) :
    Sound P pbkdf2HmacSha512 password salt1 userId ({ c with stores := atMoment m c.stores }.setSession i x) row where
  find := h.find
  protectedBy := h.protectedBy
  challenged := h.challenged
  session j := by
    by_cases hj : j = i
    · subst hj
      simpa [Sessions.setSession] using hx
    · simpa [Sessions.setSession, Function.update_of_ne hj] using h.session j
  checks := h.checks

omit [DecidableEq ι] in
/-- A session that goes on with another call. -/
theorem SoundSession.goesOn {storedBy : List ι} {x : SessionState} {doing : Doing}
    (h : SoundSession P pbkdf2HmacSha512 password salt1 userId storedBy row i x)
    (hunderway : Underway P pbkdf2HmacSha512 password salt1 userId x.obtained doing)
    (hown : ∀ o ∈ x.obtained, row.srpId = o.settings.srpId →
      ∀ settings, doing = .asking (storing userId settings) → settings.srpId = o.settings.srpId) :
    SoundSession P pbkdf2HmacSha512 password salt1 userId storedBy row i { x with doing } where
  underway := hunderway
  obtained := h.obtained
  own o ho hmine := ⟨(h.own o ho hmine).1, hown o ho (h.own o ho hmine).1⟩

omit [DecidableEq ι] in
/-- A session whose request has ended. -/
theorem SoundSession.ended {storedBy : List ι} {x : SessionState}
    (h : SoundSession P pbkdf2HmacSha512 password salt1 userId storedBy row i x) :
    SoundSession P pbkdf2HmacSha512 password salt1 userId storedBy row i { x with doing := .idle } := by
  refine h.goesOn trivial ?_
  intro o _ _ settings hstoring
  cases hstoring

/-! ## Each move keeps it -/

section Moves

variable (h : Sound P pbkdf2HmacSha512 password salt1 userId c row)
include h

theorem Sound.getPassword (draw : ChallengeDraw) :
    Sound P pbkdf2HmacSha512 password salt1 userId
      (c.step P pbkdf2HmacSha512 password userId (.getPassword i draw)) row := by
  simp only [step]
  split
  · refine h.setSession c.stores.moment ((h.session i).goesOn (.inl ⟨draw, rfl⟩) ?_)
    intro o _ _ settings hdoing
    cases getPassword_ne_storing P userId draw settings (Doing.asking.inj hdoing)
  · exact h

theorem Sound.checkPassword (k : Nat) (random : Bytes) :
    Sound P pbkdf2HmacSha512 password salt1 userId
      (c.step P pbkdf2HmacSha512 password userId (.checkPassword i k random)) row := by
  simp only [step]
  split
  · next challenge hidle hget =>
    split
    · next check hcheck =>
      refine h.setSession c.stores.moment
        ((h.session i).goesOn ⟨List.mem_of_getElem? hget, rfl, random, hcheck⟩ ?_)
      intro o _ _ settings hdoing
      cases hdoing
    · exact h
  · exact h

/-- The turn of a request that has read the row. -/
theorem Sound.turn_getPassword {draw : ChallengeDraw}
    (hdoing : (c.sessions i).doing = .asking (Auth.getPassword P userId draw)) (m : Moment) :
    Sound P pbkdf2HmacSha512 password salt1 userId
      (c.step P pbkdf2HmacSha512 password userId (.turn i m)) row := by
  obtain ⟨settings, halgo, hprotected, hchallenged, hid, hstep⟩ := step_getPassword h.protectedBy h.find hdoing m
  rw [hstep]
  refine h.setSession m ((h.session i).goesOn (.inr ⟨settings, rfl, halgo, hprotected, hchallenged⟩) ?_)
  intro o ho hsame settings' hstoring
  have hne := ((h.session i).obtained o ho).2.1
  rw [← storing_inj (Doing.asking.inj hstoring), hid (hsame ▸ hne), hsame]

omit [DecidableEq ι] in
/-- The sessions once a challenge is stored by `i`. -/
theorem Sound.stored {settings : PasswordSettings}
    (hdoing : (c.sessions i).doing = .asking (storing userId settings))
    (halgo : settings.currentAlgo = some (passwordAlgo salt1)) (hchallenged : Challenged P (.ofSettings settings)) :
    SoundSession P pbkdf2HmacSha512 password salt1 userId (c.storedBy ++ [i]) (.ofSettings settings) i
        { obtained := (c.sessions i).obtained ++ [Obtained.mk c.storedBy.length settings] } ∧
      ∀ j, j ≠ i → SoundSession P pbkdf2HmacSha512 password salt1 userId (c.storedBy ++ [i])
        (.ofSettings settings) j (c.sessions j) := by
  have hlater : ∀ {n : Nat}, n < c.storedBy.length →
      (c.storedBy ++ [i]).drop (n + 1) = c.storedBy.drop (n + 1) ++ [i] := fun hn =>
    List.drop_append_of_le_length hn
  refine ⟨⟨trivial, fun o ho => ?_, fun o ho hmine => ⟨?_, fun settings' hstoring => by cases hstoring⟩⟩,
    fun j hj => ⟨(h.session j).underway, fun o ho => ?_, fun o ho hmine => ?_⟩⟩
  · rcases List.mem_append.mp ho with ho | ho
    · obtain ⟨hnth, hfacts⟩ := (h.session i).obtained o ho
      exact ⟨by rw [List.length_append]; omega, hfacts⟩
    · rw [List.mem_singleton.mp ho]
      exact ⟨by simp, hchallenged.srpId, halgo⟩
  · rcases List.mem_append.mp ho with ho | ho
    · -- nobody else has stored one since, and what this session stored has the id that it read
      rw [hlater ((h.session i).obtained o ho).1] at hmine
      exact ((h.session i).own o ho fun j hj => hmine j (List.mem_append_left _ hj)).2 settings hdoing
    · rw [List.mem_singleton.mp ho]
      rfl
  · obtain ⟨hnth, hfacts⟩ := (h.session j).obtained o ho
    exact ⟨by rw [List.length_append]; omega, hfacts⟩
  · rw [hlater ((h.session j).obtained o ho).1] at hmine
    exact absurd (hmine i (List.mem_append_right _ (List.mem_singleton_self i))).symm hj

theorem Sound.turn_storing {settings : PasswordSettings}
    (hdoing : (c.sessions i).doing = .asking (storing userId settings))
    (halgo : settings.currentAlgo = some (passwordAlgo salt1))
    (hprotected : ProtectedBy P pbkdf2HmacSha512 password salt1 (.ofSettings settings))
    (hchallenged : Challenged P (.ofSettings settings)) (m : Moment) :
    ∃ row', Sound P pbkdf2HmacSha512 password salt1 userId
      (c.step P pbkdf2HmacSha512 password userId (.turn i m)) row' := by
  rcases step_storing (P := P) hdoing m with hstep | ⟨s, hfind, hstep⟩
  · rw [hstep]
    exact ⟨row, h.setSession m (h.session i).ended⟩
  · rw [hstep]
    obtain ⟨hself, hothers⟩ := h.stored hdoing halgo hchallenged
    refine ⟨.ofSettings settings, hfind, hprotected, fun _ => hchallenged, fun j => ?_, h.checks⟩
    by_cases hj : j = i
    · subst hj
      simpa [Sessions.setSession] using hself
    · simpa [Sessions.setSession, Function.update_of_ne hj] using hothers j hj

/-- The check that is about to be made: with the stored id it passes, and with another one it is stale. -/
theorem Sound.right {challenge : Obtained} {check : PasswordCheck} {p : StoreProg Unit} {m : Moment}
    (hdoing : (c.sessions i).doing = .proving challenge check p)
    (hidentified : identified P userId c (.turn i m) = true) :
    Checked.Right { session := i, challenge, storedBy := c.storedBy,
                    result := checkSrp P (normalized (some row.toSettings)) check } := by
  have hunderway := (h.session i).underway
  rw [hdoing] at hunderway
  obtain ⟨hmem, -, random, hcheck⟩ := hunderway
  obtain ⟨hnth, -, halgo⟩ := (h.session i).obtained challenge hmem
  obtain ⟨answer, hanswer, rfl⟩ := exists_of_clientCheck halgo hcheck
  simp only [identified, hdoing, h.find] at hidentified
  by_cases hid : row.srpId = challenge.settings.srpId
  · left
    simp only [hid, ne_eq, not_true_eq_false, decide_false, Bool.false_or, Bool.and_eq_true, decide_eq_true_eq,
      Bool.not_eq_true'] at hidentified
    obtain ⟨hsame, hu⟩ := hidentified
    have hchallenged : Challenged P row := h.challenged (List.ne_nil_of_length_pos (by omega))
    rw [← hsame] at hanswer
    rw [← hid]
    exact checkSrp_srpClientProof h.protectedBy hchallenged hanswer hu
  · right
    refine ⟨checkSrp_srpIdInvalid h.protectedBy hid answer, ?_⟩
    -- were all the later challenges its own, the id would be the same
    by_contra hnone
    simp only [not_exists, not_and, not_not] at hnone
    exact hid ((h.session i).own challenge hmem hnone).1

theorem Sound.turn_checkPassword {challenge : Obtained} {check : PasswordCheck} {p : StoreProg Unit}
    (hdoing : (c.sessions i).doing = .proving challenge check p) (m : Moment)
    (hidentified : identified P userId c (.turn i m) = true) :
    Sound P pbkdf2HmacSha512 password salt1 userId
      (c.step P pbkdf2HmacSha512 password userId (.turn i m)) row := by
  have hright := h.right hdoing hidentified
  have hunderway := (h.session i).underway
  rw [hdoing] at hunderway
  obtain ⟨-, rfl, -⟩ := hunderway
  rw [step_checkPassword h.find hdoing m]
  refine { h.setSession m (h.session i).ended with checks := fun e he => ?_ }
  rcases List.mem_append.mp he with he | he
  · exact h.checks e he
  · rw [List.mem_singleton.mp he]
    exact hright

/-- **Every move that meets the condition keeps the invariant.** -/
theorem Sound.step (mv : Move ι) (hidentified : identified P userId c mv = true) :
    ∃ row', Sound P pbkdf2HmacSha512 password salt1 userId (c.step P pbkdf2HmacSha512 password userId mv) row' := by
  cases mv with
  | getPassword i draw => exact ⟨row, h.getPassword draw⟩
  | checkPassword i k random => exact ⟨row, h.checkPassword k random⟩
  | turn i m =>
    have hunderway := (h.session i).underway
    cases hdoing : (c.sessions i).doing with
    | idle =>
      refine ⟨row, ?_⟩
      simp only [Sessions.step, hdoing]
      exact h
    | asking p =>
      rw [hdoing] at hunderway
      rcases hunderway with ⟨draw, rfl⟩ | ⟨settings, rfl, halgo, hprotected, hchallenged⟩
      · exact ⟨row, h.turn_getPassword hdoing m⟩
      · exact h.turn_storing hdoing halgo hprotected hchallenged m
    | proving challenge check p => exact ⟨row, h.turn_checkPassword hdoing m hidentified⟩

end Moves

end Sessions

/-! ## Runs -/

/-- **A right password is never called wrong where the id says which challenge it is.** The sessions of an account
ask for challenges and prove its password in any order, call by call, from a state in which no challenge has been
handed out. -/
theorem checks_right {ι : Type} [DecidableEq ι] (P : Primitives) (pbkdf2HmacSha512 : Pbkdf2)
    (password salt1 : Bytes) (userId : Int64) (row : PasswordRow) (s : Stores) (moves : List (Move ι))
    (hrow : s.accountPasswords.find userId = some row) (hpassword : row.hasPassword = true)
    (halgo : row.algo = { salt1, salt2 := srpBaseSalt2, g := 3, p := srpBaseP })
    (hverifier : srpComputeVerifier P pbkdf2HmacSha512 password salt1 srpBaseSalt2 = .ok row.srpVerifier)
    (hidentified : along (Sessions.step P pbkdf2HmacSha512 password userId) (Sessions.identified P userId)
      { stores := s } moves = true) :
    ∀ e ∈ (moves.foldl (Sessions.step P pbkdf2HmacSha512 password userId) { stores := s }).checks, e.Right := by
  have hstart : Sessions.Sound P pbkdf2HmacSha512 password salt1 userId ({ stores := s } : Sessions ι) row :=
    { find := hrow
      protectedBy := ⟨hpassword, halgo, hverifier⟩
      challenged := fun hstored => absurd rfl hstored
      session := fun _ =>
        ⟨trivial, fun _ ho => absurd ho List.not_mem_nil, fun _ ho => absurd ho List.not_mem_nil⟩
      checks := fun _ he => absurd he List.not_mem_nil }
  obtain ⟨row', hsound⟩ := foldl_keeps
    (I := fun c => ∃ row', Sessions.Sound P pbkdf2HmacSha512 password salt1 userId c row')
    (fun c mv ⟨row', hc⟩ hmv => hc.step mv hmv) moves _ ⟨row, hstart⟩ hidentified
  exact hsound.checks

/-! ## Two sessions -/

def ownDraw (secret : Nat) (srpId : Int64) : ChallengeDraw := { challengeDraw secret with srpId }

def quietMoment : Moment := { now := 1000, newUserId := 8 }

/-- Both sessions ask before either has a challenge, and draw ids of their own; then both prove. -/
def racingMoves : List (Move Bool) :=
  [.getPassword true (ownDraw 11 98), .getPassword false (ownDraw 13 99), .turn true quietMoment,
    .turn false quietMoment, .turn true quietMoment, .turn false quietMoment, .checkPassword true 0 [5],
    .checkPassword false 0 [6], .turn true quietMoment, .turn false quietMoment]

/-- One session asks, then the other; then the first one proves. -/
def staleMoves : List (Move Bool) :=
  [.getPassword true (ownDraw 11 98), .turn true quietMoment, .turn true quietMoment,
    .getPassword false (ownDraw 13 99), .turn false quietMoment, .turn false quietMoment,
    .checkPassword true 0 [5], .turn true quietMoment]

/-- The run of two sessions of the account with the password `swordfish`. -/
def swordfishRun (moves : List (Move Bool)) : Sessions Bool :=
  moves.foldl (Sessions.step tailPrimitives tailPbkdf2 (ascii "swordfish") 7) { stores := protectedStores }

/-- The session whose challenge was replaced under another id is told so. -/
theorem racingMoves_right :
    (swordfishRun racingMoves).checks.map Checked.result = [.error .srpIdInvalid, .ok ()] ∧
      ∀ e ∈ (swordfishRun racingMoves).checks, e.Right :=
  ⟨by decide +kernel,
    checks_right tailPrimitives tailPbkdf2 (ascii "swordfish") (ascii "salt one") 7 swordfishRow protectedStores
      racingMoves (by simp [protectedStores]) rfl rfl (by rw [swordfishRow, srpComputeVerifier_eq])
      (by decide +kernel)⟩

/-- **The right password is called wrong**: after the request of the other session, the id is the same and the
challenge is not. -/
theorem staleMoves_wrong :
    (∃ e ∈ (swordfishRun staleMoves).checks, e.result = .error .passwordHashInvalid) ∧
      ¬ ∀ e ∈ (swordfishRun staleMoves).checks, e.Right := by
  have hresults : (swordfishRun staleMoves).checks.map Checked.result = [.error .passwordHashInvalid] := by
    decide +kernel
  have hwrong : Except.error .passwordHashInvalid ∈ (swordfishRun staleMoves).checks.map Checked.result := by
    rw [hresults]
    exact List.mem_singleton_self _
  obtain ⟨e, he, hresult⟩ := List.mem_map.mp hwrong
  refine ⟨⟨e, he, hresult⟩, fun hright => ?_⟩
  rcases hright e he with hok | ⟨hstale, -⟩
  · rw [hresult] at hok
    cases hok
  · rw [hresult] at hstale
    cases hstale

end ShuzaGram.Auth

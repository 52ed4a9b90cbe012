import ShuzaGram.Mtproto.Crypto.Srp
import ShuzaGram.Store.Calls

/-!
# The second factor

`auth/check_password.cpp`: the challenge that `account.getPassword` hands out and the check of
`auth.checkPassword`; and `auth/current_user.cpp`, which says who an auth key is logged in as.
-/

namespace ShuzaGram.Auth

open Infra Domain Store Mtproto.Crypto
open StoreProg

/-! ## Defaults -/

/-- `DefaultSecureRandom`. -/
def defaultSecureRandom : Bytes := ascii "telesrv-tdesktop-dev-secure-rand"

/-- `DefaultPasswordAlgo`. -/
def defaultPasswordAlgo : PasswordAlgo :=
  { salt1 := [0xEC, 0xF8, 0x73, 0x76, 0x65, 0xBC, 0x77, 0x5A]
    salt2 := srpBaseSalt2
    g := srpBaseG
    p := srpBaseP }

/-- `DefaultPasswordSettings`. -/
def defaultPasswordSettings : PasswordSettings :=
  { secureRandom := defaultSecureRandom, newAlgo := defaultPasswordAlgo }

/-- `NormalizePasswordSettings`. -/
def normalizePasswordSettings (settings : PasswordSettings) : PasswordSettings :=
  let settings :=
    if settings.secureRandom = [] then { settings with secureRandom := defaultSecureRandom } else settings
  let settings :=
    if settings.newAlgo.p = [] then { settings with newAlgo := defaultPasswordAlgo } else settings
  if settings.hasPassword ∧ settings.currentAlgo.isNone then
    { settings with currentAlgo := some settings.newAlgo }
  else settings

/-- What `LoadNormalized` makes of the answer of the store. -/
def normalized (found : Option PasswordSettings) : PasswordSettings :=
  normalizePasswordSettings (found.getD defaultPasswordSettings)

/-- `LoadNormalized`. -/
def loadNormalized (userId : Int64) : StoreProg PasswordSettings := do
  let found ← passwordsGetByUser userId
  return normalized found

/-! ## The challenge -/

/-- What `GetPassword` draws: the secret of the challenge, and an id for it. -/
structure ChallengeDraw where
  secret : Arr 256
  srpId : Int64

/-- The settings with a new challenge. -/
def withChallenge (P : Primitives) (settings : PasswordSettings) (draw : ChallengeDraw) :
    Except Exn PasswordSettings := do
  let challenge ← srpMakeChallenge P settings.srpVerifier draw.secret
  let srpId :=
    if settings.srpId = 0 then (if draw.srpId ≠ 0 then draw.srpId else 1) else settings.srpId
  return { settings with srpBSecret := challenge.bSecret, srpB := challenge.b, srpId }

/-- `GetPassword`: an account with a password gets a new challenge, which is stored. -/
def getPassword (P : Primitives) (userId : Int64) (draw : ChallengeDraw) : StoreProg PasswordSettings := do
  let settings ← loadNormalized userId
  if !settings.hasPassword then return settings
  match withChallenge P settings draw with
  | .error e => throw e
  | .ok settings =>
    passwordsSave userId settings
    return settings

/-! ## The check -/

/-- `CheckSrp`. -/
def checkSrp (P : Primitives) (settings : PasswordSettings) (check : PasswordCheck) : Except Exn Unit := do
  if check.empty then
    if settings.hasPassword then throw .passwordHashInvalid
    return ()
  if !settings.hasPassword then throw .passwordHashInvalid
  if settings.srpId = 0 ∨ settings.srpId ≠ check.srpId then throw .srpIdInvalid
  if settings.srpVerifier = [] ∨ settings.srpBSecret = [] ∨ settings.srpB = [] then
    throw .srpPasswordChanged
  let salt1 := (settings.currentAlgo.getD settings.newAlgo).salt1
  match srpCalcM1 P salt1 settings.srpVerifier settings.srpBSecret settings.srpB check.a with
  -- which of the inner checks failed is not told
  | .error _ => throw .passwordHashInvalid
  | .ok expectedM1 => if expectedM1 ≠ check.m1 then throw .passwordHashInvalid

/-- `CheckPassword`. -/
def checkPassword (P : Primitives) (userId : Int64) (check : PasswordCheck) : StoreProg Unit := do
  let settings ← loadNormalized userId
  match checkSrp P settings check with
  | .error e => throw e
  | .ok () => return ()

/-! ## Who is logged in -/

/-- `CurrentUser`. -/
structure CurrentUser where
  userId : Int64 := 0
  authorized : Bool := false
deriving DecidableEq

/-- `ResolveCurrentUser`: a login that waits for the password counts for nothing. -/
def resolveCurrentUser (authKeyId : Arr 8) : StoreProg CurrentUser := do
  match ← authorizationsByAuthKey authKeyId with
  | none => return {}
  | some authz => if authz.passwordPending then return {} else return { userId := authz.userId, authorized := true }

/-! ## What a check says -/

@[simp] theorem hasPassword_normalizePasswordSettings (settings : PasswordSettings) :
    (normalizePasswordSettings settings).hasPassword = settings.hasPassword := by
  unfold normalizePasswordSettings
  simp only
  repeat' split
  all_goals rfl

theorem hasPassword_normalized (found : Option PasswordSettings) :
    (normalized found).hasPassword = found.any PasswordSettings.hasPassword := by
  cases found with
  | none => rfl
  | some settings => simp [normalized]

theorem hasPassword_withChallenge {P : Primitives} {settings settings' : PasswordSettings}
    {draw : ChallengeDraw} (h : withChallenge P settings draw = .ok settings') :
    settings'.hasPassword = settings.hasPassword := by
  unfold withChallenge at h
  simp only [bind, Except.bind, pure, Except.pure] at h
  split at h
  · cases h
  · cases h
    rfl

/-- A check of a password is a read of it. -/
theorem checkPassword_run (P : Primitives) (env : Nat → Stores → Stores) (userId : Int64)
    (check : PasswordCheck) (n : Nat) (s : Stores) :
    (checkPassword P userId check).run (StoreCall.exec P) env n s =
      { result := checkSrp P (normalized ((env n s).passwordsGetByUser userId)) check
        state := env n s
        trace := [⟨.passwordsGetByUser userId, .ok ((env n s).passwordsGetByUser userId)⟩] } := by
  unfold checkPassword loadNormalized
  simp only [Prog.run_bind, Prog.run_perform, StoreCall.exec, Prog.run_pure]
  cases checkSrp P (normalized ((env n s).passwordsGetByUser userId)) check <;> rfl

@[simp] theorem srpVerifier_normalizePasswordSettings (settings : PasswordSettings) :
    (normalizePasswordSettings settings).srpVerifier = settings.srpVerifier ∧
      (normalizePasswordSettings settings).srpBSecret = settings.srpBSecret ∧
      (normalizePasswordSettings settings).srpB = settings.srpB := by
  unfold normalizePasswordSettings
  simp only
  repeat' split
  all_goals exact ⟨rfl, rfl, rfl⟩

/-- The empty check passes exactly where there is no password. -/
theorem checkSrp_empty {P : Primitives} {settings : PasswordSettings} {check : PasswordCheck}
    (hempty : check.empty = true) : checkSrp P settings check = .ok () ↔ settings.hasPassword = false := by
  cases h : settings.hasPassword <;> simp [checkSrp, hempty, h, throw, throwThe, MonadExceptOf.throw, pure,
    Except.pure]

/-- **A check against a password passes only with the right proof.** -/
theorem proof_of_checkSrp {P : Primitives} {settings : PasswordSettings} {check : PasswordCheck}
    (hpassword : settings.hasPassword = true) (h : checkSrp P settings check = .ok ()) :
    check.empty = false ∧
      srpCalcM1 P (settings.currentAlgo.getD settings.newAlgo).salt1 settings.srpVerifier settings.srpBSecret
        settings.srpB check.a = .ok check.m1 := by
  have hempty : check.empty = false := by
    cases hempty : check.empty with
    | false => rfl
    | true =>
      rw [checkSrp_empty hempty, hpassword] at h
      cases h
  refine ⟨hempty, ?_⟩
  unfold checkSrp at h
  simp only [hempty, hpassword, Bool.false_eq_true, if_false, Bool.not_true, bind, Except.bind, pure,
    Except.pure, throw, throwThe, MonadExceptOf.throw] at h
  split at h
  · cases h
  · split at h
    · cases h
    · split at h
      · cases h
      · next hm1 =>
        split at h
        · cases h
        · next heq => rw [hm1, Decidable.not_not.mp heq]

end ShuzaGram.Auth

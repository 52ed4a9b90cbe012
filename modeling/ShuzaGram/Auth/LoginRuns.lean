import ShuzaGram.Auth.SignIn
import ShuzaGram.Store.Frames

/-!
# The runs of a login

What a run of `sendCode`, `signIn` or `signUp` can do, case by case: the codes it leaves, the calls it
makes with their answers, and its result. The other parties may change everything but the codes
between any two calls; `ask k x` says that the owner of the phone may be `x` at the `k`-th call
(`Around`). Where `fails`, any read of the database may throw (`Attempts`), and the run ends with it.
-/

namespace ShuzaGram.Auth

open Infra Domain Store StoreProg Mtproto.Crypto

/-- The account id that `currentPhoneOwnerId` makes of an answer. -/
def ownerId : Option User → Int64
  | some u => u.id
  | none => 0

theorem isSome_of_ownerId {x : Option User} (h : ownerId x ≠ 0) : x.isSome := by
  cases x with
  | none => exact absurd rfl h
  | some u => rfl

/-- A call and its answer. -/
abbrev event (call : StoreCall) (answer : Except Exn call.Res) : StoreEvent := ⟨call, answer⟩

/-! ## Reading a trace -/

/-- The logins that a run asked for, whether they went through or not. -/
def bindCall : StoreEvent → Option Authorization
  | ⟨.authorizationsBind a, _⟩ => some a
  | _ => none

def binds (trace : List StoreEvent) : List Authorization := trace.filterMap bindCall

@[simp] theorem binds_append (t t' : List StoreEvent) : binds (t ++ t') = binds t ++ binds t' :=
  List.filterMap_append

theorem binds_eq_nil {t : List StoreEvent} (h : ∀ x ∈ t, bindCall x = none) : binds t = [] :=
  List.filterMap_eq_nil_iff.mpr h

section Steps

variable {P : Primitives} {fails : Prop} {ex : (call : StoreCall) → Stores → Except Exn call.Res × Stores}
  {env : Nat → Stores → Stores} {n : Nat} {s : Stores} {α : Type}

/-- A read gives what is stored, or it throws. -/
theorem read_answer (hex : Attempts P fails ex) {call : StoreCall} (h : call.reads = true) (s : Stores) :
    (ex call s).1 = (call.exec P s).1 ∨ fails ∧ ∃ e, (ex call s).1 = .error e := by
  rcases hex.reads call s h with hcall | ⟨hfails, state, hcall⟩
  · exact .inl (by rw [hcall])
  · exact .inr ⟨hfails, _, by rw [hcall]⟩

theorem owner_answer (hex : Attempts P fails ex) (phone : Bytes) (s : Stores) :
    (ex (.usersByPhone phone) s).1 = .ok (s.usersByPhone phone) ∨
      fails ∧ ∃ e, (ex (.usersByPhone phone) s).1 = .error e :=
  read_answer hex rfl s

theorem owner_state (hex : Attempts P fails ex) (phone : Bytes) (s : Stores) : (ex (.usersByPhone phone) s).2 = s := by
  rcases hex.cases (.usersByPhone phone) s with h | h
  · rw [h]
    rfl
  · exact h

theorem run_currentPhoneOwnerId_bind (hex : Attempts P fails ex) (phone : Bytes) (f : Int64 → StoreProg α) :
    (currentPhoneOwnerId phone >>= f).run ex env n s =
      match (ex (.usersByPhone phone) (env n s)).1 with
      | .ok x =>
        let o := (f (ownerId x)).run ex env (n + 1) (env n s)
        { o with trace := event (.usersByPhone phone) (.ok x) :: o.trace }
      | .error e => { result := .error e, state := env n s, trace := [event (.usersByPhone phone) (.error e)] } := by
  have hstate := owner_state hex phone (env n s)
  rw [Prog.run_bind]
  unfold currentPhoneOwnerId
  rw [Prog.run_perform_bind]
  generalize ex (.usersByPhone phone) (env n s) = r at hstate ⊢
  obtain ⟨answer, s'⟩ := r
  subst hstate
  rcases answer with e | _ | u <;> rfl

theorem run_throw_bind {β : Type} (e : Exn) (f : β → StoreProg α) :
    ((throw e : StoreProg β) >>= f).run ex env n s = { result := .error e, state := s, trace := [] } := rfl

end Steps

/-- The other parties leave the codes alone and keep `I`; where `I` holds, `ask` describes the owner
of the phone that the `n`-th call finds. -/
structure Around (env : Nat → Stores → Stores) (phone : Bytes) (ask : Nat → Option User → Prop)
    (I : Stores → Prop) : Prop where
  codes : ∀ n s, (env n s).codes = s.codes
  keeps : ∀ n s, I s → I (env n s)
  withCodes : ∀ s codes, I s → I { s with codes }
  ask : ∀ n s, I s → ask n ((env n s).usersByPhone phone)

/-! ## Checking a code -/

/-- The runs of `verifyLoginCode` that starts with the `n`-th call. -/
inductive VerifyRun (fails : Prop) (ask : Nat → Option User → Prop) (n : Nat) (phone hash code : Bytes) (codes : Codes) :
    Codes → List StoreEvent → Except Exn (Option User) → Prop where
  | missing (hrec : codes.find hash = none) :
    VerifyRun fails ask n phone hash code codes codes [event (.codesGet hash) (.ok none)] (.error .codeExpired)
  | otherPhone {rec : PhoneCode} (hrec : codes.find hash = some rec) (hphone : rec.phone ≠ phone) :
    VerifyRun fails ask n phone hash code codes codes [event (.codesGet hash) (.ok (some rec))]
      (.error .codeInvalid)
  | drifted {rec : PhoneCode} {x : Option User} (hrec : codes.find hash = some rec)
      (hphone : rec.phone = phone) (hx : ask (n + 1) x) (hdrift : rec.issuedUserId ≠ ownerId x) :
    VerifyRun fails ask n phone hash code codes (codes.erase hash)
      [event (.codesGet hash) (.ok (some rec)), event (.usersByPhone phone) (.ok x),
        event (.codesDel hash) (.ok ())]
      (.error .codeInvalid)
  | againRefused {rec : PhoneCode} {x : Option User} (hrec : codes.find hash = some rec)
      (hphone : rec.phone = phone) (hx : ask (n + 1) x) (howner : rec.issuedUserId = ownerId x)
      (hverified : rec.signUpVerified = true) (hbad : ownerId x ≠ 0 ∨ rec.code ≠ code) :
    VerifyRun fails ask n phone hash code codes codes
      [event (.codesGet hash) (.ok (some rec)), event (.usersByPhone phone) (.ok x)]
      (.error .codeInvalid)
  | again {rec : PhoneCode} {x : Option User} (hrec : codes.find hash = some rec)
      (hphone : rec.phone = phone) (hx : ask (n + 1) x) (howner : rec.issuedUserId = ownerId x)
      (hverified : rec.signUpVerified = true) (hcode : rec.code = code) :
    VerifyRun fails ask n phone hash code codes codes
      [event (.codesGet hash) (.ok (some rec)), event (.usersByPhone phone) (.ok x)]
      (.ok none)
  | wrong {rec : PhoneCode} {x y : Option User} (hrec : codes.find hash = some rec)
      (hphone : rec.phone = phone) (hx : ask (n + 1) x) (howner : rec.issuedUserId = ownerId x)
      (hfresh : rec.signUpVerified = false) (hcode : rec.code ≠ code) (hy : ask (n + 3) y)
      (hsame : ownerId x = ownerId y) :
    VerifyRun fails ask n phone hash code codes (codes.countWrong hash rec defaultMaxAttempts)
      [event (.codesGet hash) (.ok (some rec)), event (.usersByPhone phone) (.ok x),
        event (.codesVerifyLogin hash phone code (ownerId x == 0) defaultMaxAttempts) (.ok .invalid),
        event (.usersByPhone phone) (.ok y)]
      (.error .codeInvalid)
  | wrongDrifted {rec : PhoneCode} {x y : Option User} (hrec : codes.find hash = some rec)
      (hphone : rec.phone = phone) (hx : ask (n + 1) x) (howner : rec.issuedUserId = ownerId x)
      (hfresh : rec.signUpVerified = false) (hcode : rec.code ≠ code) (hy : ask (n + 3) y)
      (hdrift : ownerId x ≠ ownerId y) :
    VerifyRun fails ask n phone hash code codes ((codes.countWrong hash rec defaultMaxAttempts).erase hash)
      [event (.codesGet hash) (.ok (some rec)), event (.usersByPhone phone) (.ok x),
        event (.codesVerifyLogin hash phone code (ownerId x == 0) defaultMaxAttempts) (.ok .invalid),
        event (.usersByPhone phone) (.ok y), event (.codesDel hash) (.ok ())]
      (.error .codeInvalid)
  | rightDrifted {rec rec' : PhoneCode} {codes' : Codes} {x y : Option User}
      (hrec : codes.find hash = some rec) (hphone : rec.phone = phone) (hx : ask (n + 1) x)
      (howner : rec.issuedUserId = ownerId x) (hfresh : rec.signUpVerified = false)
      (hcode : rec.code = code) (hy : ask (n + 3) y) (hdrift : ownerId x ≠ ownerId y)
      (hothers : ∀ h, h ≠ hash → codes'.find h = codes.find h) (hgone : codes'.find hash = none) :
    VerifyRun fails ask n phone hash code codes codes'
      [event (.codesGet hash) (.ok (some rec)), event (.usersByPhone phone) (.ok x),
        event (.codesVerifyLogin hash phone code (ownerId x == 0) defaultMaxAttempts) (.ok (.accepted rec')),
        event (.usersByPhone phone) (.ok y), event (.codesDel hash) (.ok ())]
      (.error .codeInvalid)
  | kept {rec : PhoneCode} {x y : Option User} (hrec : codes.find hash = some rec)
      (hphone : rec.phone = phone) (hx : ask (n + 1) x) (howner : rec.issuedUserId = ownerId x)
      (hfresh : rec.signUpVerified = false) (hcode : rec.code = code) (hy : ask (n + 3) y)
      (hsame : ownerId x = ownerId y) (hnone : ownerId x = 0) :
    VerifyRun fails ask n phone hash code codes (codes.upsert hash { rec with signUpVerified := true })
      [event (.codesGet hash) (.ok (some rec)), event (.usersByPhone phone) (.ok x),
        event (.codesVerifyLogin hash phone code (ownerId x == 0) defaultMaxAttempts)
          (.ok (.accepted { rec with signUpVerified := true })),
        event (.usersByPhone phone) (.ok y)]
      (.ok none)
  | used {rec : PhoneCode} {x y z : Option User} (hrec : codes.find hash = some rec)
      (hphone : rec.phone = phone) (hx : ask (n + 1) x) (howner : rec.issuedUserId = ownerId x)
      (hfresh : rec.signUpVerified = false) (hcode : rec.code = code) (hy : ask (n + 3) y)
      (hsame : ownerId x = ownerId y) (hsome : ownerId x ≠ 0) (hz : ask (n + 4) z) :
    VerifyRun fails ask n phone hash code codes (codes.erase hash)
      [event (.codesGet hash) (.ok (some rec)), event (.usersByPhone phone) (.ok x),
        event (.codesVerifyLogin hash phone code (ownerId x == 0) defaultMaxAttempts) (.ok (.accepted rec)),
        event (.usersByPhone phone) (.ok y), event (.usersByPhone phone) (.ok z)]
      (.ok z)
  | unreadBefore {rec : PhoneCode} {e : Exn} (hfails : fails) (hrec : codes.find hash = some rec)
      (hphone : rec.phone = phone) :
    VerifyRun fails ask n phone hash code codes codes
      [event (.codesGet hash) (.ok (some rec)), event (.usersByPhone phone) (.error e)]
      (.error e)
  | unreadWrong {rec : PhoneCode} {x : Option User} {e : Exn} (hfails : fails) (hrec : codes.find hash = some rec)
      (hphone : rec.phone = phone) (hx : ask (n + 1) x) (howner : rec.issuedUserId = ownerId x)
      (hfresh : rec.signUpVerified = false) (hcode : rec.code ≠ code) :
    VerifyRun fails ask n phone hash code codes (codes.countWrong hash rec defaultMaxAttempts)
      [event (.codesGet hash) (.ok (some rec)), event (.usersByPhone phone) (.ok x),
        event (.codesVerifyLogin hash phone code (ownerId x == 0) defaultMaxAttempts) (.ok .invalid),
        event (.usersByPhone phone) (.error e)]
      (.error e)
  | unreadKept {rec : PhoneCode} {x : Option User} {e : Exn} (hfails : fails) (hrec : codes.find hash = some rec)
      (hphone : rec.phone = phone) (hx : ask (n + 1) x) (howner : rec.issuedUserId = ownerId x)
      (hfresh : rec.signUpVerified = false) (hcode : rec.code = code) (hnone : ownerId x = 0) :
    VerifyRun fails ask n phone hash code codes (codes.upsert hash { rec with signUpVerified := true })
      [event (.codesGet hash) (.ok (some rec)), event (.usersByPhone phone) (.ok x),
        event (.codesVerifyLogin hash phone code (ownerId x == 0) defaultMaxAttempts)
          (.ok (.accepted { rec with signUpVerified := true })),
        event (.usersByPhone phone) (.error e)]
      (.error e)
  | unreadUsed {rec : PhoneCode} {x : Option User} {owners : List StoreEvent} {e : Exn} (hfails : fails)
      (hrec : codes.find hash = some rec) (hphone : rec.phone = phone) (hx : ask (n + 1) x)
      (howner : rec.issuedUserId = ownerId x) (hfresh : rec.signUpVerified = false) (hcode : rec.code = code)
      (hsome : ownerId x ≠ 0) (howners : ∀ v ∈ owners, v.1 = .usersByPhone phone) :
    VerifyRun fails ask n phone hash code codes (codes.erase hash)
      (event (.codesGet hash) (.ok (some rec)) :: event (.usersByPhone phone) (.ok x) ::
        event (.codesVerifyLogin hash phone code (ownerId x == 0) defaultMaxAttempts) (.ok (.accepted rec)) :: owners)
      (.error e)

/-- The runs of the end of `verifyLoginCode`, once `owner` was read and the comparison gave a result. -/
inductive FinishRun (fails : Prop) (ask : Nat → Option User → Prop) (n : Nat) (phone hash : Bytes) (codes : Codes)
    (owner : Int64) :
    LoginCodeVerifyResult → Codes → List StoreEvent → Except Exn (Option User) → Prop where
  | unread {result : LoginCodeVerifyResult} {e : Exn} (hfails : fails) :
    FinishRun fails ask n phone hash codes owner result codes [event (.usersByPhone phone) (.error e)] (.error e)
  | drifted {result : LoginCodeVerifyResult} {y : Option User} (hy : ask n y) (hdrift : owner ≠ ownerId y) :
    FinishRun fails ask n phone hash codes owner result (codes.erase hash)
      [event (.usersByPhone phone) (.ok y), event (.codesDel hash) (.ok ())] (.error .codeInvalid)
  | missing {y : Option User} (hy : ask n y) (hsame : owner = ownerId y) :
    FinishRun fails ask n phone hash codes owner .missing codes [event (.usersByPhone phone) (.ok y)]
      (.error .codeExpired)
  | wrong {y : Option User} (hy : ask n y) (hsame : owner = ownerId y) :
    FinishRun fails ask n phone hash codes owner .invalid codes [event (.usersByPhone phone) (.ok y)]
      (.error .codeInvalid)
  | kept {rec : PhoneCode} {y : Option User} (hy : ask n y) (hsame : owner = ownerId y) (hnone : owner = 0) :
    FinishRun fails ask n phone hash codes owner (.accepted rec) codes [event (.usersByPhone phone) (.ok y)] (.ok none)
  | unreadUsed {rec : PhoneCode} {y : Option User} {e : Exn} (hfails : fails) (hsome : owner ≠ 0) :
    FinishRun fails ask n phone hash codes owner (.accepted rec) codes
      [event (.usersByPhone phone) (.ok y), event (.usersByPhone phone) (.error e)] (.error e)
  | used {rec : PhoneCode} {y z : Option User} (hy : ask n y) (hsame : owner = ownerId y) (hsome : owner ≠ 0)
      (hz : ask (n + 1) z) :
    FinishRun fails ask n phone hash codes owner (.accepted rec) codes
      [event (.usersByPhone phone) (.ok y), event (.usersByPhone phone) (.ok z)] (.ok z)

section Verify

variable {P : Primitives} {fails : Prop} {ex : (call : StoreCall) → Stores → Except Exn call.Res × Stores}
  {env : Nat → Stores → Stores} {ask : Nat → Option User → Prop} {I : Stores → Prop} {phone : Bytes} (hash : Bytes)

/-- **Every run of the end of `verifyLoginCode` is one of these.** -/
theorem finishLoginCode_run (hex : Attempts P fails ex) (haround : Around env phone ask I) (n : Nat) (s : Stores)
    (hs : I s) (owner : Int64) (result : LoginCodeVerifyResult) :
    let o := (finishLoginCode phone hash owner result).run ex env n s
    FinishRun fails ask n phone hash s.codes owner result o.state.codes o.trace o.result := by
  have henv := haround.codes
  have hy := haround.ask n s hs
  unfold finishLoginCode
  rw [run_currentPhoneOwnerId_bind hex]
  rcases owner_answer hex phone (env n s) with hread | ⟨hfails, e, hread⟩
  case inr =>
    simp only [hread, henv]
    exact .unread hfails
  simp only [hread]
  generalize (env n s).usersByPhone phone = y at hy ⊢
  -- A new owner ends the login whatever the comparison gave; otherwise its result decides.
  by_cases hsame : owner = ownerId y
  case neg =>
    simp only [ne_eq, hsame, not_false_eq_true, if_true, Prog.run_perform_bind,
      hex.others (.codesDel hash) _ rfl, StoreCall.exec, run_throw_bind, henv]
    exact .drifted hy hsame
  subst hsame
  simp only [ne_eq, not_true_eq_false, if_false]
  cases result with
  | missing =>
    simp only [Prog.run_throw, henv]
    exact .missing hy rfl
  | invalid =>
    simp only [Prog.run_throw, henv]
    exact .wrong hy rfl
  | accepted rec =>
    by_cases hnone : ownerId y = 0
    case pos =>
      simp only [hnone, if_true, Prog.run_pure, henv]
      rw [← hnone]
      exact .kept hy rfl hnone
    have hz := haround.ask (n + 1) (env n s) (haround.keeps n s hs)
    have hstate := owner_state hex phone (env (n + 1) (env n s))
    simp only [hnone, if_false, Prog.run_perform, hstate, henv]
    rcases owner_answer hex phone (env (n + 1) (env n s)) with hread' | ⟨hfails, e, hread'⟩
    · rw [hread']
      exact .used hy rfl hnone hz
    · rw [hread']
      exact .unreadUsed hfails hnone

/-- The runs of `verifyLoginCode` once it compares the code: the code is wrong, or it is right and a phone
without an owner keeps it for the sign-up. -/
theorem compareLoginCode_run (hex : Attempts P fails ex) (code : Bytes) (haround : Around env phone ask I) (n : Nat)
    (s : Stores) (hs : I s) {rec : PhoneCode} {x : Option User} (hrec : s.codes.find hash = some rec)
    (hphone : rec.phone = phone) (hx : ask (n + 1) x) (howner : rec.issuedUserId = ownerId x)
    (hverified : rec.signUpVerified = false) :
    let o := (do
      let result ← codesVerifyLogin hash phone code (ownerId x == 0) defaultMaxAttempts
      finishLoginCode phone hash (ownerId x) result).run ex env (n + 2) s
    VerifyRun fails ask n phone hash code s.codes o.state.codes
      (event (.codesGet hash) (.ok (some rec)) :: event (.usersByPhone phone) (.ok x) :: o.trace) o.result := by
  have henv := haround.codes
  have hs' := haround.keeps (n + 2) s hs
  have hfinish := fun codes => finishLoginCode_run hash hex haround (n + 3) { env (n + 2) s with codes }
    (haround.withCodes _ codes hs') (ownerId x)
  rw [Prog.run_perform_bind, hex.others (.codesVerifyLogin ..) _ rfl]
  simp only [StoreCall.exec, henv]
  -- A wrong guess is counted in the row, a right one ends it or marks it for `SignUp`.
  by_cases hcode : rec.code = code
  case neg =>
    rw [Codes.verifyLogin_wrong hrec hphone hcode]
    have hrun := hfinish (s.codes.countWrong hash rec defaultMaxAttempts) .invalid
    generalize (finishLoginCode phone hash (ownerId x) _).run ex env (n + 3) _ = o at hrun ⊢
    obtain ⟨answer, s', trace⟩ := o
    simp only at hrun ⊢
    generalize s'.codes = codes' at hrun ⊢
    cases hrun with
    | unread hfails => exact .unreadWrong hfails hrec hphone hx howner hverified hcode
    | drifted hy hdrift => exact .wrongDrifted hrec hphone hx howner hverified hcode hy hdrift
    | wrong hy hsame => exact .wrong hrec hphone hx howner hverified hcode hy hsame
  rw [Codes.verifyLogin_right hrec hphone hcode]
  -- The row stays exactly if nobody owned the phone when it was compared.
  by_cases hnone : ownerId x = 0
  case pos =>
    have hkeep : (ownerId x == 0) = true := by simpa using hnone
    have hrun := hfinish (s.codes.upsert hash { rec with signUpVerified := true })
      (.accepted { rec with signUpVerified := true })
    simp only [hkeep, if_true] at hrun ⊢
    generalize (finishLoginCode phone hash (ownerId x) _).run ex env (n + 3) _ = o at hrun ⊢
    obtain ⟨answer, s', trace⟩ := o
    simp only at hrun ⊢
    generalize s'.codes = codes' at hrun ⊢
    cases hrun with
    | unread hfails => exact .unreadKept hfails hrec hphone hx howner hverified hcode hnone
    | drifted hy hdrift =>
      refine .rightDrifted hrec hphone hx howner hverified hcode hy hdrift (fun h hne => ?_) ?_
      · simp [hne]
      · simp
    | kept hy hsame => exact .kept hrec hphone hx howner hverified hcode hy hsame hnone
    | unreadUsed _ hsome => exact absurd hnone hsome
    | used _ _ hsome => exact absurd hnone hsome
  case neg =>
    have hkeep : (ownerId x == 0) = false := by simpa using hnone
    have hrun := hfinish (s.codes.erase hash) (.accepted rec)
    simp only [hkeep, Bool.false_eq_true, if_false] at hrun ⊢
    generalize (finishLoginCode phone hash (ownerId x) _).run ex env (n + 3) _ = o at hrun ⊢
    obtain ⟨answer, s', trace⟩ := o
    simp only at hrun ⊢
    generalize s'.codes = codes' at hrun ⊢
    cases hrun with
    | unread hfails => exact .unreadUsed hfails hrec hphone hx howner hverified hcode hnone (by simp)
    | drifted hy hdrift =>
      refine .rightDrifted hrec hphone hx howner hverified hcode hy hdrift (fun h hne => ?_) ?_
      · simp [hne]
      · simp
    | kept _ _ hnone' => exact absurd hnone' hnone
    | unreadUsed hfails => exact .unreadUsed hfails hrec hphone hx howner hverified hcode hnone (by simp)
    | used hy hsame _ hz => exact .used hrec hphone hx howner hverified hcode hy hsame hnone hz

/-- **Every run of `verifyLoginCode` is one of these.** -/
theorem verifyLoginCode_run (hex : Attempts P fails ex) (code : Bytes) (haround : Around env phone ask I) (n : Nat)
    (s : Stores) (hs : I s) :
    let o := (verifyLoginCode phone hash code).run ex env n s
    VerifyRun fails ask n phone hash code s.codes o.state.codes o.trace o.result := by
  have henv := haround.codes
  have hs₁ := haround.keeps n s hs
  have hcodes : (env (n + 1) (env n s)).codes = s.codes := by rw [henv, henv]
  unfold verifyLoginCode
  rw [Prog.run_perform_bind, hex.others (.codesGet hash) _ rfl]
  simp only [StoreCall.exec, henv]
  cases hrec : s.codes.find hash with
  | none => simpa [henv] using VerifyRun.missing hrec
  | some rec =>
    by_cases hphone : rec.phone = phone
    case neg => simpa [hphone, run_throw_bind, henv] using VerifyRun.otherPhone hrec hphone
    have hx := haround.ask (n + 1) (env n s) hs₁
    simp only [ne_eq, hphone, not_true_eq_false, if_false, run_currentPhoneOwnerId_bind hex]
    rcases owner_answer hex phone (env (n + 1) (env n s)) with hread | ⟨hfails, e, hread⟩
    case inr =>
      simp only [hread, hcodes]
      exact .unreadBefore hfails hrec hphone
    simp only [hread]
    generalize (env (n + 1) (env n s)).usersByPhone phone = x at hx ⊢
    by_cases howner : rec.issuedUserId = ownerId x
    case neg =>
      simpa [howner, Prog.run_perform_bind, hex.others (.codesDel hash) _ rfl, StoreCall.exec, run_throw_bind, henv] using
        VerifyRun.drifted hrec hphone hx howner
    simp only [howner, not_true_eq_false, if_false]
    -- A row that was verified before is only compared again, without counting.
    cases hverified : rec.signUpVerified with
    | true =>
      by_cases hbad : ownerId x ≠ 0 ∨ rec.code ≠ code
      case pos =>
        simpa [hbad, run_throw_bind, henv] using VerifyRun.againRefused hrec hphone hx howner hverified hbad
      case neg =>
        have hcode : rec.code = code := by simpa using fun h => hbad (Or.inr h)
        simpa [hbad, henv] using VerifyRun.again hrec hphone hx howner hverified hcode
    | false =>
      simp only [Bool.false_eq_true, if_false]
      have hcompare := compareLoginCode_run hash hex code haround n (env (n + 1) (env n s))
        (haround.keeps (n + 1) _ hs₁) (by rwa [hcodes]) hphone hx howner hverified
      rwa [hcodes] at hcompare

end Verify

/-- Checking a code reads accounts and changes codes. -/
theorem VerifyRun.area_of_mem {fails : Prop} {ask : Nat → Option User → Prop} {n : Nat} {phone hash code : Bytes}
    {codes codes' : Codes} {trace : List StoreEvent} {result : Except Exn (Option User)}
    (h : VerifyRun fails ask n phone hash code codes codes' trace result) :
    ∀ x ∈ trace, x.1.area = none ∨ x.1.area = some .codes := by
  cases h with
  | unreadUsed _ _ _ _ _ _ _ _ howners =>
    intro v hv
    simp only [List.mem_cons] at hv
    rcases hv with rfl | rfl | rfl | hv
    · exact .inl rfl
    · exact .inl rfl
    · exact .inr rfl
    · rw [howners v hv]
      exact .inl rfl
  | _ => simp [StoreCall.area]

theorem VerifyRun.binds_eq_nil {fails : Prop} {ask : Nat → Option User → Prop} {n : Nat} {phone hash code : Bytes}
    {codes codes' : Codes} {trace : List StoreEvent} {result : Except Exn (Option User)}
    (h : VerifyRun fails ask n phone hash code codes codes' trace result) : binds trace = [] := by
  cases h with
  | unreadUsed _ _ _ _ _ _ _ _ howners =>
    exact Auth.binds_eq_nil fun v hv => by
      simp only [List.mem_cons] at hv
      rcases hv with rfl | rfl | rfl | hv
      · rfl
      · rfl
      · rfl
      · obtain ⟨call, answer⟩ := v
        cases howners _ hv
        rfl
  | _ => rfl

/-- An account comes out of `verifyLoginCode` in one way only: the code was right, the phone had its
issued owner at the first two reads, and the account is what the third read gave. -/
theorem VerifyRun.of_some {fails : Prop} {ask : Nat → Option User → Prop} {n : Nat} {phone hash code : Bytes}
    {codes codes' : Codes} {trace : List StoreEvent} {u : User}
    (h : VerifyRun fails ask n phone hash code codes codes' trace (.ok (some u))) :
    ∃ rec x y, codes.find hash = some rec ∧ rec.phone = phone ∧ rec.signUpVerified = false ∧
      rec.code = code ∧ ask (n + 1) x ∧ rec.issuedUserId = ownerId x ∧ ask (n + 3) y ∧
      ownerId x = ownerId y ∧ ownerId x ≠ 0 ∧ ask (n + 4) (some u) ∧ codes' = codes.erase hash ∧
      event (.usersByPhone phone) (.ok (some u)) ∈ trace := by
  cases h with
  | used hrec hphone hx howner hfresh hcode hy hsame hsome hz =>
    exact ⟨_, _, _, hrec, hphone, hfresh, hcode, hx, howner, hy, hsame, hsome, hz, rfl, by simp⟩

/-- The right code of a phone that keeps its issued owner gives the account of the third read, if no read throws. -/
theorem VerifyRun.result_of_right {fails : Prop} {ask : Nat → Option User → Prop} {n : Nat} {phone hash code : Bytes}
    {codes codes' : Codes} {trace : List StoreEvent} {result : Except Exn (Option User)} {rec : PhoneCode}
    (h : VerifyRun fails ask n phone hash code codes codes' trace result) (hrec : codes.find hash = some rec)
    (hphone : rec.phone = phone) (hfresh : rec.signUpVerified = false) (hcode : rec.code = code)
    (hissued : rec.issuedUserId ≠ 0) (h1 : ∀ x, ask (n + 1) x → ownerId x = rec.issuedUserId)
    (h3 : ∀ y, ask (n + 3) y → ownerId y = rec.issuedUserId) (hanswers : ¬fails) :
    ∃ z, ask (n + 4) z ∧ result = .ok z := by
  cases h with
  | unreadBefore hfails | unreadWrong hfails | unreadKept hfails | unreadUsed hfails => exact absurd hfails hanswers
  | missing hrec' => simp [hrec] at hrec'
  | otherPhone hrec' hphone' => exact absurd hphone (Option.some.inj (hrec.symm.trans hrec') ▸ hphone')
  | drifted hrec' _ hx hdrift =>
    cases hrec.symm.trans hrec'
    exact absurd (h1 _ hx).symm hdrift
  | againRefused hrec' _ _ _ hverified _ | again hrec' _ _ _ hverified _ =>
    cases hrec.symm.trans hrec'
    rw [hfresh] at hverified
    cases hverified
  | wrong hrec' _ _ _ _ hcode' | wrongDrifted hrec' _ _ _ _ hcode' =>
    cases hrec.symm.trans hrec'
    exact absurd hcode hcode'
  | rightDrifted hrec' _ hx _ _ _ hy hdrift =>
    cases hrec.symm.trans hrec'
    exact absurd ((h1 _ hx).trans (h3 _ hy).symm) hdrift
  | kept hrec' _ hx _ _ _ _ _ hnone =>
    cases hrec.symm.trans hrec'
    exact absurd ((h1 _ hx).symm.trans hnone) hissued
  | used _ _ _ _ _ _ _ _ _ hz => exact ⟨_, hz, rfl⟩

/-! ## Sending a code -/

/-- A record as `sendCode` stores it. -/
structure Issued (phone : Bytes) (owner : Int64) (rec : PhoneCode) : Prop where
  issuedUserId : rec.issuedUserId = owner
  phone : rec.phone = phone
  signUpVerified : rec.signUpVerified = false
  attempts : rec.attempts = 0
  maxAttempts : rec.maxAttempts = 5

/-- The runs of `sendCode`, for a normalized phone and the hash it drew. -/
inductive SendRun (fails : Prop) (ask : Nat → Option User → Prop) (n : Nat) (phone hash : Bytes) (codes : Codes) :
    Codes → List StoreEvent → Except Exn Bytes → Prop where
  | malformed : SendRun fails ask n phone hash codes codes [] (.error .phoneNumberInvalid)
  | sent {rec : PhoneCode} {x : Option User} {deliveries : List StoreEvent} {result : Except Exn Bytes}
      (hx : ask n x) (hrec : Issued phone (ownerId x) rec)
      (hdeliveries : ∀ v ∈ deliveries, ∃ r, v.1 = .otpDeliver r) :
    SendRun fails ask n phone hash codes (codes.upsert hash rec)
      (event (.usersByPhone phone) (.ok x) :: event (.codesSet hash rec) (.ok ()) :: deliveries) result
  | undelivered {rec : PhoneCode} {x : Option User} {r : DeliveryRequest} {reason : String}
      (hx : ask n x) (hrec : Issued phone (ownerId x) rec) :
    SendRun fails ask n phone hash codes ((codes.upsert hash rec).erase hash)
      [event (.usersByPhone phone) (.ok x), event (.codesSet hash rec) (.ok ()),
        event (.otpDeliver r) (.error (.deliveryFailed reason)), event (.codesDel hash) (.ok ())]
      (.error (.deliveryFailed reason))
  | unread {e : Exn} (hfails : fails) :
    SendRun fails ask n phone hash codes codes [event (.usersByPhone phone) (.error e)] (.error e)

/-! ## Signing in -/

/-- What `passwordNeeded` reads, and what that says: `PasswordReads passwords userId needed reads`. -/
inductive PasswordReads : Bool → Int64 → Bool → List StoreEvent → Prop where
  | noStore (userId : Int64) : PasswordReads false userId false []
  | read (userId : Int64) (found : Option PasswordSettings) :
    PasswordReads true userId (found.any PasswordSettings.hasPassword)
      [event (.passwordsGetByUser userId) (.ok found)]

theorem PasswordReads.call_eq {passwords needed : Bool} {userId : Int64} {reads : List StoreEvent}
    (h : PasswordReads passwords userId needed reads) : ∀ x ∈ reads, x.1 = .passwordsGetByUser userId := by
  cases h <;> simp

/-- The runs of `signIn`, for a normalized phone. -/
inductive SignInRun (fails : Prop) (ask : Nat → Option User → Prop) (n : Nat) (template : Authorization)
    (phone hash code : Bytes) (passwords : Bool) (codes : Codes) :
    Codes → List StoreEvent → Except Exn SignInResult → Prop where
  | refused {codes' : Codes} {trace : List StoreEvent} {e : Exn}
      (hverify : VerifyRun fails ask n phone hash code codes codes' trace (.error e)) :
    SignInRun fails ask n template phone hash code passwords codes codes' trace (.error e)
  | needSignUp {codes' : Codes} {trace : List StoreEvent}
      (hverify : VerifyRun fails ask n phone hash code codes codes' trace (.ok none)) :
    SignInRun fails ask n template phone hash code passwords codes codes' trace (.ok { needSignUp := true, user := {} })
  | bound {codes' : Codes} {trace reads : List StoreEvent} {u : User} {needed : Bool}
      {a : Authorization} {answer : Except Exn Unit}
      (hverify : VerifyRun fails ask n phone hash code codes codes' trace (.ok (some u)))
      (hreads : PasswordReads passwords u.id needed reads)
      (ha : a = { template with userId := u.id, passwordPending := needed }) :
    SignInRun fails ask n template phone hash code passwords codes codes'
      (trace ++ reads ++ [event (.authorizationsBind a) answer])
      (answer >>= fun _ =>
        if needed then .error .sessionPasswordNeeded else .ok { needSignUp := false, user := u })
  | unreadPassword {codes' : Codes} {trace : List StoreEvent} {u : User} {e : Exn} (hfails : fails)
      (hverify : VerifyRun fails ask n phone hash code codes codes' trace (.ok (some u))) :
    SignInRun fails ask n template phone hash code passwords codes codes'
      (trace ++ [event (.passwordsGetByUser u.id) (.error e)]) (.error e)

theorem SignInRun.binds_eq {fails : Prop} {ask : Nat → Option User → Prop} {n : Nat} {template : Authorization}
    {phone hash code : Bytes} {passwords : Bool} {codes codes' : Codes} {trace : List StoreEvent}
    {result : Except Exn SignInResult}
    (h : SignInRun fails ask n template phone hash code passwords codes codes' trace result) :
    binds trace = [] ∨ ∃ u tr a, VerifyRun fails ask n phone hash code codes codes' tr (.ok (some u)) ∧
      (∀ x ∈ tr, x ∈ trace) ∧ a.userId = u.id ∧ binds trace = [a] := by
  cases h with
  | refused hverify => exact .inl hverify.binds_eq_nil
  | needSignUp hverify => exact .inl hverify.binds_eq_nil
  | @bound tr reads u needed a answer hverify hreads ha =>
    refine .inr ⟨u, tr, a, hverify, fun x hx => by simp [hx], by rw [ha], ?_⟩
    have hnone := Auth.binds_eq_nil fun x hx => by
      obtain ⟨call, answer⟩ := x
      cases hreads.call_eq _ hx
      rfl
    rw [binds_append, binds_append, hverify.binds_eq_nil, hnone]
    rfl
  | unreadPassword _ hverify => exact .inl (by rw [binds_append, hverify.binds_eq_nil]; rfl)

/-- The runs of `signUp`, for a normalized phone. -/
inductive SignUpRun (fails : Prop) (ask : Nat → Option User → Prop) (n : Nat) (template : Authorization)
    (phone hash firstName lastName : Bytes) (accessHash : Int64) (codes : Codes) :
    Codes → List StoreEvent → Except Exn User → Prop where
  | malformed {e : Exn} :
    SignUpRun fails ask n template phone hash firstName lastName accessHash codes codes [] (.error e)
  | missing (hrec : codes.find hash = none) :
    SignUpRun fails ask n template phone hash firstName lastName accessHash codes codes
      [event (.codesGet hash) (.ok none)] (.error .codeExpired)
  | unfit {rec : PhoneCode} (hrec : codes.find hash = some rec) :
    SignUpRun fails ask n template phone hash firstName lastName accessHash codes codes
      [event (.codesGet hash) (.ok (some rec))] (.error .codeInvalid)
  | claimed {rec : PhoneCode} {x : Option User} (hrec : codes.find hash = some rec)
      (hx : ask (n + 1) x) (howner : ownerId x ≠ 0) :
    SignUpRun fails ask n template phone hash firstName lastName accessHash codes (codes.erase hash)
      [event (.codesGet hash) (.ok (some rec)), event (.usersByPhone phone) (.ok x),
        event (.codesDel hash) (.ok ())]
      (.error .codeInvalid)
  | claimedLate {rec : PhoneCode} {x y : Option User} (hrec : codes.find hash = some rec)
      (hx : ask (n + 1) x) (hfree : ownerId x = 0) (hy : ask (n + 3) y) (howner : ownerId y ≠ 0) :
    SignUpRun fails ask n template phone hash firstName lastName accessHash codes (codes.erase hash)
      [event (.codesGet hash) (.ok (some rec)), event (.usersByPhone phone) (.ok x),
        event (.codesConsumeSignUpVerified hash phone) (.ok (some rec)),
        event (.usersByPhone phone) (.ok y)]
      (.error .codeInvalid)
  | notCreated {rec : PhoneCode} {x y : Option User} {e : Exn} (hrec : codes.find hash = some rec)
      (hphone : rec.phone = phone) (hverified : rec.signUpVerified = true) :
    SignUpRun fails ask n template phone hash firstName lastName accessHash codes (codes.erase hash)
      [event (.codesGet hash) (.ok (some rec)), event (.usersByPhone phone) (.ok x),
        event (.codesConsumeSignUpVerified hash phone) (.ok (some rec)),
        event (.usersByPhone phone) (.ok y),
        event (.usersCreate { phone, firstName, lastName, accessHash }) (.error e)]
      (.error e)
  | created {rec : PhoneCode} {x y : Option User} {u : User} {a : Authorization}
      {answer : Except Exn Unit} (hrec : codes.find hash = some rec) (hphone : rec.phone = phone)
      (hverified : rec.signUpVerified = true) (ha : a = { template with userId := u.id }) :
    SignUpRun fails ask n template phone hash firstName lastName accessHash codes (codes.erase hash)
      [event (.codesGet hash) (.ok (some rec)), event (.usersByPhone phone) (.ok x),
        event (.codesConsumeSignUpVerified hash phone) (.ok (some rec)),
        event (.usersByPhone phone) (.ok y),
        event (.usersCreate { phone, firstName, lastName, accessHash }) (.ok u),
        event (.authorizationsBind a) answer]
      (answer >>= fun _ => .ok u)
  | unread {rec : PhoneCode} {e : Exn} (hfails : fails) (hrec : codes.find hash = some rec) :
    SignUpRun fails ask n template phone hash firstName lastName accessHash codes codes
      [event (.codesGet hash) (.ok (some rec)), event (.usersByPhone phone) (.error e)] (.error e)
  | unreadLate {rec : PhoneCode} {x : Option User} {e : Exn} (hfails : fails) (hrec : codes.find hash = some rec) :
    SignUpRun fails ask n template phone hash firstName lastName accessHash codes (codes.erase hash)
      [event (.codesGet hash) (.ok (some rec)), event (.usersByPhone phone) (.ok x),
        event (.codesConsumeSignUpVerified hash phone) (.ok (some rec)),
        event (.usersByPhone phone) (.error e)]
      (.error e)

section Runs

variable {P : Primitives} {fails : Prop} {ex : (call : StoreCall) → Stores → Except Exn call.Res × Stores}
  {lib : PhoneLibrary} {env : Nat → Stores → Stores} {ask : Nat → Option User → Prop} {I : Stores → Prop}

/-- The runs of a delivery. -/
theorem deliverOrRollBack_run (hex : Attempts P fails ex) (hash : Bytes) (request : DeliveryRequest)
    (henv : ∀ n s, (env n s).codes = s.codes) (n : Nat) (s : Stores) :
    let o := (deliverOrRollBack hash request).run ex env n s
    (∃ answer, o.state.codes = s.codes ∧ o.trace = [event (.otpDeliver request) answer] ∧
        o.result = answer) ∨
      ∃ reason, o.state.codes = s.codes.erase hash ∧
        o.trace = [event (.otpDeliver request) (.error (.deliveryFailed reason)),
          event (.codesDel hash) (.ok ())] ∧
        o.result = .error (.deliveryFailed reason) := by
  unfold deliverOrRollBack
  rw [Prog.run_tryCatch, Prog.run_perform, hex.others (.otpDeliver request) _ rfl]
  simp only [StoreCall.exec]
  cases (env n s).moment.delivery with
  | ok _ => exact .inl ⟨.ok (), henv n s, rfl, rfl⟩
  | error e =>
    cases e with
    | deliveryFailed reason =>
      refine .inr ⟨reason, ?_⟩
      simp [Prog.run_perform_bind, hex.others (.codesDel hash) _ rfl, StoreCall.exec, henv]
    | _ => exact .inl ⟨.error _, henv n s, rfl, rfl⟩

/-- **Every run of `sendCode` is one of these.** -/
theorem sendCode_run (hex : Attempts P fails ex) (phoneNumber fixedCode : Bytes) (sender : Option OtpSender) (codeTtl : Int)
    (draw : SendCodeDraw) (haround : Around env (normalizePhone lib phoneNumber) ask I)
    (n : Nat) (s : Stores) (hs : I s) :
    let o := (sendCode lib phoneNumber fixedCode sender codeTtl draw).run ex env n s
    SendRun fails ask n (normalizePhone lib phoneNumber) (randomHex draw.hash.toList) s.codes o.state.codes
      o.trace o.result := by
  have henv := haround.codes
  unfold sendCode
  simp only
  generalize normalizePhone lib phoneNumber = phone at *
  generalize randomHex draw.hash.toList = hash
  by_cases hvalid : validPhone lib phone
  case neg => simpa [hvalid, run_throw_bind] using SendRun.malformed
  have hx := haround.ask n s hs
  simp only [hvalid, Bool.not_true, Bool.false_eq_true, if_false, run_currentPhoneOwnerId_bind hex]
  rcases owner_answer hex phone (env n s) with hread | ⟨hfails, e, hread⟩
  case inr =>
    simp only [hread, henv]
    exact .unread hfails
  simp only [hread, Prog.run_perform_bind, hex.others (.codesSet ..) _ rfl, StoreCall.exec]
  generalize (env n s).usersByPhone phone = x at hx ⊢
  -- The owner is read once, and the row is written before anything is delivered.
  cases sender with
  | none =>
    simp only [Option.isSome_none, Bool.false_eq_true, if_false, Prog.run_pure, henv]
    exact .sent hx ⟨rfl, rfl, rfl, rfl, rfl⟩ fun _ h => absurd h List.not_mem_nil
  | some otp =>
    simp only [Option.isSome_some, if_true, Prog.run_bind, henv]
    generalize randomDigits otp.codeLength draw.digits = code
    generalize DeliveryRequest.mk _ _ _ _ _ _ = request
    generalize hs' : Stores.mk (s.codes.upsert hash _) _ _ _ _ _ _ _ _ _ _ = s'
    have hcodes : s'.codes = s.codes.upsert hash { issuedUserId := ownerId x, phone, code } := by
      rw [← hs']
    rcases deliverOrRollBack_run hex hash request henv (n + 1 + 1) s' with
      ⟨answer, hstate, htrace, hres⟩ | ⟨reason, hstate, htrace, hres⟩
    · rw [hcodes] at hstate
      have hsent : ∀ result, SendRun fails ask n phone hash s.codes _
          [event (.usersByPhone phone) (.ok x),
            event (.codesSet hash { issuedUserId := ownerId x, phone, code }) (.ok ()),
            event (.otpDeliver request) answer] result := fun result =>
        .sent hx ⟨rfl, rfl, rfl, rfl, rfl⟩ fun v hv => ⟨request, by rw [List.mem_singleton.mp hv]⟩
      cases answer with
      | error e => simpa [hstate, htrace, hres] using hsent _
      | ok _ => simpa [hstate, htrace, hres] using hsent _
    · rw [hcodes] at hstate
      simp only [hstate, htrace, hres]
      exact .undelivered hx ⟨rfl, rfl, rfl, rfl, rfl⟩

/-- `passwordNeeded` is a read. -/
theorem passwordNeeded_run (hex : Attempts P fails ex) (henv : ∀ n s, (env n s).codes = s.codes) (userId : Int64)
    (passwords : Bool) (n : Nat) (s : Stores) :
    let o := (passwordNeeded userId passwords).run ex env n s
    o.state.codes = s.codes ∧ ((∃ needed, o.result = .ok needed ∧ PasswordReads passwords userId needed o.trace) ∨
      fails ∧ ∃ e, o.result = .error e ∧ o.trace = [event (.passwordsGetByUser userId) (.error e)]) := by
  unfold passwordNeeded
  cases passwords with
  | false => exact ⟨rfl, .inl ⟨false, rfl, .noStore userId⟩⟩
  | true =>
    have hcodes := (hex.agree (.passwordsGetByUser userId) (env n s)).codes nofun
    have hanswer := @read_answer P fails ex hex (.passwordsGetByUser userId) rfl (env n s)
    simp only [Bool.not_true, Bool.false_eq_true, if_false, Prog.run_perform_bind]
    generalize ex (.passwordsGetByUser userId) (env n s) = r at hcodes hanswer ⊢
    obtain ⟨answer, s'⟩ := r
    rw [henv] at hcodes
    rcases hanswer with hanswer | ⟨hfails, e, hanswer⟩
    · have hreads := PasswordReads.read userId ((env n s).passwordsGetByUser userId)
      simp only [StoreCall.exec] at hanswer
      subst hanswer
      cases h : (env n s).passwordsGetByUser userId with
      | none => exact ⟨hcodes, .inl ⟨false, rfl, by simpa [h] using hreads⟩⟩
      | some settings => exact ⟨hcodes, .inl ⟨settings.hasPassword, rfl, by simpa [h] using hreads⟩⟩
    · subst hanswer
      exact ⟨hcodes, .inr ⟨hfails, e, rfl, rfl⟩⟩

/-- **Every run of `signIn` is one of these.** -/
theorem signIn_run (hex : Attempts P fails ex) (template : Authorization) (phoneNumber hash code : Bytes) (passwords : Bool)
    (haround : Around env (normalizePhone lib phoneNumber) ask I) (n : Nat) (s : Stores) (hs : I s) :
    let o := (signIn lib template phoneNumber hash code passwords).run ex env n s
    SignInRun fails ask n template (normalizePhone lib phoneNumber) hash code passwords s.codes o.state.codes
      o.trace o.result := by
  have henv := haround.codes
  have hverify := verifyLoginCode_run hash hex code haround n s hs
  unfold signIn
  rw [Prog.run_bind]
  generalize (verifyLoginCode (normalizePhone lib phoneNumber) hash code).run ex env n s = v at hverify ⊢
  obtain ⟨e | _ | u, s', trace⟩ := v
  · exact .refused hverify
  · simpa using SignInRun.needSignUp hverify
  obtain ⟨hcodes, hneeded⟩ := passwordNeeded_run hex henv u.id passwords (n + trace.length) s'
  simp only
  rw [Prog.run_bind]
  generalize (passwordNeeded u.id passwords).run ex env (n + trace.length) s' = v at hcodes hneeded ⊢
  obtain ⟨result, s'', reads⟩ := v
  simp only at hcodes hneeded
  rcases hneeded with ⟨needed, hres, hreads⟩ | ⟨hfails, e, hres, htrace⟩
  case inr =>
    subst hres htrace
    simp only [hcodes]
    exact .unreadPassword hfails hverify
  subst hres
  simp only [Prog.run_perform_bind]
  generalize hbind : Authorization.mk _ _ _ _ _ _ _ _ _ _ needed _ _ = a
  -- A login touches no code, whether it goes through or throws.
  have hcodes' := (hex.agree (.authorizationsBind a) (env (n + trace.length + reads.length) s'')).codes nofun
  rw [henv, hcodes] at hcodes'
  generalize ex (.authorizationsBind a) _ = r at hcodes' ⊢
  obtain ⟨answer, s₃⟩ := r
  simp only at hcodes'
  have hrun : SignInRun fails ask n template (normalizePhone lib phoneNumber) hash code passwords s.codes s'.codes
      (trace ++ reads ++ [event (.authorizationsBind a) answer])
      (answer >>= fun _ =>
        if needed then .error .sessionPasswordNeeded else .ok { needSignUp := false, user := u }) :=
    .bound hverify hreads hbind.symm
  cases answer with
  | error e =>
    rw [error_bind] at hrun
    simpa [hcodes'] using hrun
  | ok _ =>
    rw [ok_bind] at hrun
    cases needed <;> simpa [hcodes', run_throw_bind] using hrun

/-- The runs of the end of `signUp`: `create` throws, or the login follows. -/
theorem finishSignUp_run (hex : Attempts P fails ex) (template : Authorization) (draft : User)
    (henv : ∀ n s, (env n s).codes = s.codes) (n : Nat) (s : Stores) :
    let o := (finishSignUp template draft).run ex env n s
    o.state.codes = s.codes ∧
      ((∃ e, o.trace = [event (.usersCreate draft) (.error e)] ∧ o.result = .error e) ∨
        ∃ u answer, o.trace = [event (.usersCreate draft) (.ok u),
            event (.authorizationsBind { template with userId := u.id }) answer] ∧
          o.result = answer >>= fun _ => .ok u) := by
  unfold finishSignUp
  have hcreate := (hex.agree (.usersCreate draft) (env n s)).codes nofun
  rw [henv] at hcreate
  rw [Prog.run_perform_bind]
  generalize ex (.usersCreate draft) (env n s) = r at hcreate ⊢
  obtain ⟨e | u, s'⟩ := r
  · exact ⟨hcreate, .inl ⟨e, rfl, rfl⟩⟩
  · have hbind := (hex.agree (.authorizationsBind { template with userId := u.id }) (env (n + 1) s')).codes nofun
    rw [henv, hcreate] at hbind
    simp only [Prog.run_perform_bind]
    generalize ex (.authorizationsBind { template with userId := u.id }) (env (n + 1) s') = r at hbind ⊢
    obtain ⟨answer, s''⟩ := r
    cases answer with
    | error e => exact ⟨hbind, .inr ⟨u, .error e, rfl, rfl⟩⟩
    | ok _ => exact ⟨hbind, .inr ⟨u, .ok (), rfl, rfl⟩⟩

/-- **Every run of `signUp` is one of these.** -/
theorem signUp_run (hex : Attempts P fails ex) (template : Authorization) (phoneNumber hash firstName lastName : Bytes)
    (accessHash : Int64) (haround : Around env (normalizePhone lib phoneNumber) ask I)
    (n : Nat) (s : Stores) (hs : I s) :
    let o := (signUp lib template phoneNumber hash firstName lastName accessHash).run ex env n s
    SignUpRun fails ask n template (normalizePhone lib phoneNumber) hash firstName lastName accessHash s.codes
      o.state.codes o.trace o.result := by
  have henv := haround.codes
  have hs₁ := haround.keeps n s hs
  have hs₃ := haround.keeps (n + 2) _ (haround.keeps (n + 1) _ hs₁)
  unfold signUp
  simp only
  by_cases hvalid : validPhone lib (normalizePhone lib phoneNumber)
  case neg => simpa [hvalid, run_throw_bind] using SignUpRun.malformed
  by_cases hname : firstName = []
  case pos => simpa [hvalid, hname, run_throw_bind] using SignUpRun.malformed
  generalize normalizePhone lib phoneNumber = phone at *
  simp only [hvalid, hname, Bool.not_true, Bool.false_eq_true, if_false, Prog.run_perform_bind,
    hex.others (.codesGet hash) _ rfl, StoreCall.exec, henv]
  cases hrec : s.codes.find hash with
  | none => simpa [henv] using SignUpRun.missing hrec
  | some rec =>
    -- The checks in the order of the source: the row, its owner, and the owner once more behind the row.
    by_cases hunfit : rec.phone ≠ phone ∨ (!rec.signUpVerified) = true ∨ rec.issuedUserId ≠ 0
    case pos =>
      simp only [hunfit, if_true, run_throw_bind, henv]
      exact .unfit hrec
    simp only [hunfit, if_false, run_currentPhoneOwnerId_bind hex]
    have hx := haround.ask (n + 1) (env n s) hs₁
    rcases owner_answer hex phone (env (n + 1) (env n s)) with hread | ⟨hfails, e, hread⟩
    case inr =>
      simp only [hread, henv]
      exact .unread hfails hrec
    simp only [hread]
    generalize (env (n + 1) (env n s)).usersByPhone phone = x at hx ⊢
    by_cases hfree : ownerId x = 0
    case neg =>
      simpa [hfree, Prog.run_perform_bind, hex.others (.codesDel hash) _ rfl, StoreCall.exec, run_throw_bind, henv]
        using SignUpRun.claimed hrec hx hfree
    have hphone : rec.phone = phone := by simpa using fun h => hunfit (.inl h)
    have hverified : rec.signUpVerified = true := by simpa using fun h => hunfit (.inr (.inl h))
    have hissued : rec.issuedUserId = 0 := by simpa using fun h => hunfit (.inr (.inr h))
    have hconsume : Codes.consumeSignUpVerified s.codes hash phone = (some rec, s.codes.erase hash) := by
      simp [Codes.consumeSignUpVerified, hrec, hphone, hverified]
    simp only [hfree, ne_eq, not_true_eq_false, if_false, Prog.run_perform_bind,
      hex.others (.codesConsumeSignUpVerified ..) _ rfl, StoreCall.exec, henv, hconsume, hissued, hverified,
      Bool.not_true, Bool.false_eq_true, or_false, run_currentPhoneOwnerId_bind hex]
    obtain ⟨s₄, hs₄⟩ : ∃ s₄ : Stores, s₄ = { env (n + 2) (env (n + 1) (env n s)) with
      codes := s.codes.erase hash } := ⟨_, rfl⟩
    have hcodes : s₄.codes = s.codes.erase hash := by rw [hs₄]
    have hy := haround.ask (n + 3) s₄ (hs₄ ▸ haround.withCodes _ _ hs₃)
    simp only [Nat.add_assoc, Nat.reduceAdd, ← hs₄]
    rcases owner_answer hex phone (env (n + 3) s₄) with hread' | ⟨hfails, e, hread'⟩
    case inr =>
      simp only [hread', henv, hcodes]
      exact .unreadLate hfails hrec
    simp only [hread']
    generalize (env (n + 3) s₄).usersByPhone phone = y at hy ⊢
    by_cases howner : ownerId y = 0
    case neg =>
      simpa [howner, run_throw_bind, henv, hcodes] using SignUpRun.claimedLate hrec hx hfree hy howner
    simp only [howner, not_true_eq_false, if_false]
    obtain ⟨hstate, ⟨e, htrace, hres⟩ | ⟨u, answer, htrace, hres⟩⟩ :=
      finishSignUp_run hex template { phone, firstName, lastName, accessHash } henv (n + 4) (env (n + 3) s₄)
    · simp only [hstate, htrace, hres, henv, hcodes]
      exact .notCreated hrec hphone hverified
    · simp only [hstate, htrace, hres, henv, hcodes]
      exact .created hrec hphone hverified rfl

end Runs

end ShuzaGram.Auth

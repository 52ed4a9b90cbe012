import Mathlib.Algebra.GroupWithZero.Nat
import Mathlib.Data.List.Induction
import ShuzaGram.Auth.LoginRuns
import ShuzaGram.Infra.History
import ShuzaGram.Properties.FailedLogin

/-!
# The life of a login code

Any sequence of `sendCode`, `signIn` and `signUp`, on a code store that starts empty. Everything but the
codes may change in any way before every single store call (`Interference`), and the database may leave
any read unanswered; the codes are the server's own.

A record goes from fresh through counted wrong codes to either used up, or verified for a sign-up and
then used up. `Track` is what the history says about one hash, kept by every call (`track_step`).
-/

namespace ShuzaGram.Auth

open Infra Domain Store Mtproto.Crypto

/-! ## Sequences of calls -/

/-- What the other parties do before each store call of one login call: anything but to the codes. -/
structure Interference where
  act : Nat → Stores → Stores
  codes : ∀ n s, (act n s).codes = s.codes

inductive LoginCall where
  | sendCode (phoneNumber fixedCode : Bytes) (sender : Option OtpSender) (codeTtl : Int) (draw : SendCodeDraw)
  | signIn (template : Authorization) (phoneNumber hash code : Bytes) (passwords : Bool)
  | signUp (template : Authorization) (phoneNumber hash firstName lastName : Bytes) (accessHash : Int64)

inductive LoginResult where
  | sent (result : Except Exn Bytes)
  | signedIn (result : Except Exn SignInResult)
  | signedUp (result : Except Exn User)
deriving DecidableEq

def LoginResult.threw : LoginResult → Prop
  | sent result => ∃ e, result = .error e
  | signedIn result => ∃ e, result = .error e
  | signedUp result => ∃ e, result = .error e

/-- A call that was made: its store calls and its result. -/
structure Done where
  call : LoginCall
  trace : List StoreEvent
  result : LoginResult

section

variable (P : Primitives) (lib : PhoneLibrary)

def runCall (env : Interference) (s : Stores) : LoginCall → Done × Stores
  | .sendCode phone fixedCode sender ttl draw =>
    let o := (sendCode lib phone fixedCode sender ttl draw).run (StoreCall.attempt P) env.act 0 s
    ({ call := .sendCode phone fixedCode sender ttl draw, trace := o.trace, result := .sent o.result }, o.state)
  | .signIn template phone hash code passwords =>
    let o := (signIn lib template phone hash code passwords).run (StoreCall.attempt P) env.act 0 s
    ({ call := .signIn template phone hash code passwords, trace := o.trace, result := .signedIn o.result },
      o.state)
  | .signUp template phone hash first last accessHash =>
    let o := (signUp lib template phone hash first last accessHash).run (StoreCall.attempt P) env.act 0 s
    ({ call := .signUp template phone hash first last accessHash, trace := o.trace,
       result := .signedUp o.result }, o.state)

/-- Run a sequence of calls: the history and the stores they leave. -/
def runLogins (calls : List (LoginCall × Interference)) (s : Stores) : List Done × Stores :=
  calls.foldl (fun (hist, s) (call, env) =>
    let (d, s') := runCall P lib env s call
    (hist ++ [d], s')) ([], s)

theorem runLogins_snoc (calls : List (LoginCall × Interference)) (call : LoginCall) (env : Interference)
    (s : Stores) :
    runLogins P lib (calls ++ [(call, env)]) s =
      ((runLogins P lib calls s).1 ++ [(runCall P lib env (runLogins P lib calls s).2 call).1],
        (runCall P lib env (runLogins P lib calls s).2 call).2) := by
  simp [runLogins]

end

/-! ## What a history says about a hash -/

/-- The phone and the hash that a call is about. -/
def LoginCall.target : LoginCall → Option (Bytes × Bytes)
  | .sendCode .. => none
  | .signIn _ phone hash _ _ => some (phone, hash)
  | .signUp _ phone hash _ _ _ => some (phone, hash)

/-- The call is made with the hash. -/
def LoginCall.With (call : LoginCall) (hash : Bytes) : Prop := call.target.map Prod.snd = some hash

instance (call : LoginCall) (hash : Bytes) : Decidable (call.With hash) :=
  inferInstanceAs (Decidable (_ = _))

/-- A code that is stored under a hash. -/
def setCall : StoreEvent → Option (Bytes × PhoneCode)
  | ⟨.codesSet hash rec, _⟩ => some (hash, rec)
  | _ => none

def isDel : StoreEvent → Bool
  | ⟨.codesDel _, _⟩ => true
  | _ => false

/-- The codes that a call issues: what it stored, unless it took that back. -/
def issuedBy (trace : List StoreEvent) : List (Bytes × PhoneCode) :=
  if trace.any isDel then [] else trace.filterMap setCall

/-- The codes issued so far, with their hashes. -/
def issued (hist : List Done) : List (Bytes × PhoneCode) := hist.flatMap fun d => issuedBy d.trace

/-- A wrong code was compared with the record under the hash. -/
def isWrong (hash : Bytes) : StoreEvent → Bool
  | ⟨.codesVerifyLogin h _ _ _ _, .ok .invalid⟩ => h = hash
  | _ => false

/-- How many wrong codes were compared with the record under the hash. -/
def wrongCodes (hash : Bytes) (hist : List Done) : Nat :=
  (hist.map fun d => d.trace.countP (isWrong hash)).sum

/-- The logins asked for on behalf of the hash. -/
def bindsFor (hash : Bytes) (hist : List Done) : List Authorization :=
  hist.flatMap fun d => if d.call.With hash then binds d.trace else []

/-- The code was accepted, and then the owner of the phone could not be read again. -/
def AcceptedUnread (hash phone code : Bytes) (trace : List StoreEvent) : Prop :=
  ∃ before rec e, trace = before ++ [event (.codesVerifyLogin hash phone code true defaultMaxAttempts)
    (.ok (.accepted rec)), event (.usersByPhone phone) (.error e)]

/-- A `signIn` that presented the code and was told to sign up, or that threw because the owner of the phone could not
be read after the code was accepted. -/
def AcceptedFor (lib : PhoneLibrary) (hash phone code : Bytes) (d : Done) : Prop :=
  ∃ template phoneNumber passwords, d.call = .signIn template phoneNumber hash code passwords ∧
    normalizePhone lib phoneNumber = phone ∧
      ((∃ user, d.result = .signedIn (.ok { needSignUp := true, user })) ∨
        (∃ e, d.result = .signedIn (.error e)) ∧ AcceptedUnread hash phone code d.trace)

section Snoc

variable (hash : Bytes) (hist : List Done) (d : Done)

theorem issued_snoc : issued (hist ++ [d]) = issued hist ++ issuedBy d.trace := by simp [issued]

theorem wrongCodes_snoc : wrongCodes hash (hist ++ [d]) = wrongCodes hash hist + d.trace.countP (isWrong hash) := by
  simp [wrongCodes]

theorem bindsFor_snoc : bindsFor hash (hist ++ [d]) =
    bindsFor hash hist ++ if d.call.With hash then binds d.trace else [] := by
  simp [bindsFor]

end Snoc

/-- What is known of a record in the store. -/
structure Live (lib : PhoneLibrary) (hist : List Done) (hash : Bytes) (rec : PhoneCode) : Prop where
  issued : ∃ rec₀, (hash, rec₀) ∈ issued hist ∧ rec₀.phone = rec.phone ∧ rec₀.code = rec.code
  maxAttempts : rec.maxAttempts = 5
  attempts : rec.attempts = wrongCodes hash hist
  attempts_lt : rec.attempts < rec.maxAttempts
  unbound : bindsFor hash hist = []
  verified : rec.signUpVerified = true → ∃ d ∈ hist, AcceptedFor lib hash rec.phone rec.code d

/-- What is known of a hash. -/
structure Track (lib : PhoneLibrary) (hist : List Done) (codes : Codes) (hash : Bytes) : Prop where
  unissued : (∀ rec, (hash, rec) ∉ issued hist) →
    codes.find hash = none ∧ wrongCodes hash hist = 0 ∧ bindsFor hash hist = []
  live : ∀ rec, codes.find hash = some rec → Live lib hist hash rec
  wrong_le : wrongCodes hash hist ≤ 5
  binds_le : (bindsFor hash hist).length ≤ 1

namespace Track

variable {lib : PhoneLibrary} {hist : List Done} {codes codes' : Codes} {hash : Bytes} {d : Done}
  {rec : PhoneCode}

/-- A call that has nothing to do with the hash. -/
theorem quiet (ht : Track lib hist codes hash) (hfind : codes'.find hash = codes.find hash)
    (hwrong : d.trace.countP (isWrong hash) = 0) (hbinds : d.call.With hash → binds d.trace = []) :
    Track lib (hist ++ [d]) codes' hash := by
  have hw : wrongCodes hash (hist ++ [d]) = wrongCodes hash hist := by rw [wrongCodes_snoc, hwrong, Nat.add_zero]
  have hb : bindsFor hash (hist ++ [d]) = bindsFor hash hist := by
    rw [bindsFor_snoc]
    split
    · next h => rw [hbinds h, List.append_nil]
    · rw [List.append_nil]
  refine ⟨fun h => ?_, fun rec hrec => ?_, by rw [hw]; exact ht.wrong_le, by rw [hb]; exact ht.binds_le⟩
  · rw [hfind, hw, hb]
    exact ht.unissued fun rec hmem => h rec (by rw [issued_snoc]; exact List.mem_append_left _ hmem)
  · have hlive := ht.live rec (hfind ▸ hrec)
    obtain ⟨rec₀, hmem, hsame⟩ := hlive.issued
    refine ⟨⟨rec₀, by rw [issued_snoc]; exact List.mem_append_left _ hmem, hsame⟩, hlive.maxAttempts,
      by rw [hw]; exact hlive.attempts, hlive.attempts_lt, by rw [hb]; exact hlive.unbound, fun hv => ?_⟩
    obtain ⟨d', hd', haccepted⟩ := hlive.verified hv
    exact ⟨d', List.mem_append_left _ hd', haccepted⟩

/-- A call that ends the record under the hash. -/
theorem ended (ht : Track lib hist codes hash) (hrec : codes.find hash = some rec)
    (hfind : codes'.find hash = none) (hwrong : d.trace.countP (isWrong hash) ≤ 1)
    (hbinds : (binds d.trace).length ≤ 1) : Track lib (hist ++ [d]) codes' hash := by
  have hlive := ht.live rec hrec
  obtain ⟨rec₀, hmem, -⟩ := hlive.issued
  have hlt : wrongCodes hash hist < 5 := by
    have h := hlive.attempts_lt
    rw [hlive.attempts, hlive.maxAttempts] at h
    omega
  refine ⟨fun h => ?_, fun rec' hrec' => ?_, ?_, ?_⟩
  · exact absurd (by rw [issued_snoc]; exact List.mem_append_left _ hmem) (h rec₀)
  · rw [hfind] at hrec'
    cases hrec'
  · rw [wrongCodes_snoc]
    omega
  · rw [bindsFor_snoc, hlive.unbound, List.nil_append]
    split
    · exact hbinds
    · exact Nat.zero_le 1

/-- A call that changes the record under the hash: wrong codes are counted, a verification is kept. -/
theorem changed (rec' : PhoneCode) (ht : Track lib hist codes hash) (hrec : codes.find hash = some rec)
    (hfind : codes'.find hash = some rec') (hphone : rec'.phone = rec.phone) (hcode : rec'.code = rec.code)
    (hmax : rec'.maxAttempts = rec.maxAttempts)
    (hattempts : rec'.attempts = rec.attempts + d.trace.countP (isWrong hash))
    (hlt : rec'.attempts < rec.maxAttempts) (hbinds : binds d.trace = [])
    (hverified : rec'.signUpVerified = true → rec.signUpVerified = true ∨
      AcceptedFor lib hash rec.phone rec.code d) : Track lib (hist ++ [d]) codes' hash := by
  have hlive := ht.live rec hrec
  obtain ⟨rec₀, hmem, hsame⟩ := hlive.issued
  have hmem' : (hash, rec₀) ∈ issued (hist ++ [d]) := by rw [issued_snoc]; exact List.mem_append_left _ hmem
  have hw : rec'.attempts = wrongCodes hash (hist ++ [d]) := by
    rw [hattempts, hlive.attempts, wrongCodes_snoc]
    omega
  have hb : bindsFor hash (hist ++ [d]) = [] := by
    rw [bindsFor_snoc, hlive.unbound, hbinds, List.nil_append, ite_self]
  refine ⟨fun h => absurd hmem' (h rec₀), fun rec'' hrec'' => ?_, ?_, by rw [hb]; exact Nat.zero_le 1⟩
  · rw [hfind] at hrec''
    cases hrec''
    refine ⟨⟨rec₀, hmem', ?_⟩, hmax.trans hlive.maxAttempts, hw, hmax ▸ hlt, hb, fun hv => ?_⟩
    · rw [hphone, hcode]
      exact hsame
    · rw [hphone, hcode]
      rcases hverified hv with hv | haccepted
      · obtain ⟨d', hd', haccepted⟩ := hlive.verified hv
        exact ⟨d', List.mem_append_left _ hd', haccepted⟩
      · exact ⟨d, by simp, haccepted⟩
  · rw [hlive.maxAttempts] at hlt
    omega

/-- A call that issues a code under the hash. -/
theorem stored (ht : Track lib hist codes hash) (hnew : ∀ rec, (hash, rec) ∉ issued hist) {phone : Bytes}
    {owner : Int64} (hissued : Issued phone owner rec) (hset : (hash, rec) ∈ issuedBy d.trace)
    (hfind : codes'.find hash = some rec) (hwrong : d.trace.countP (isWrong hash) = 0)
    (hbinds : binds d.trace = []) : Track lib (hist ++ [d]) codes' hash := by
  obtain ⟨-, hw, hb⟩ := ht.unissued hnew
  have hw' : wrongCodes hash (hist ++ [d]) = 0 := by rw [wrongCodes_snoc, hw, hwrong]
  have hb' : bindsFor hash (hist ++ [d]) = [] := by
    rw [bindsFor_snoc, hb, hbinds, ite_self, List.append_nil]
  have hmem : (hash, rec) ∈ issued (hist ++ [d]) := by rw [issued_snoc]; exact List.mem_append_right _ hset
  refine ⟨fun h => absurd hmem (h rec), fun rec' hrec' => ?_, by omega, by rw [hb']; exact Nat.zero_le 1⟩
  rw [hfind] at hrec'
  cases hrec'
  refine ⟨⟨rec, hmem, rfl, rfl⟩, hissued.maxAttempts, by rw [hw', hissued.attempts]; rfl, ?_, hb', fun hv => ?_⟩
  · rw [hissued.attempts, hissued.maxAttempts]
    decide
  · rw [hissued.signUpVerified] at hv
    cases hv

end Track

/-! ## What the calls do to a hash -/

section Calls

variable {lib : PhoneLibrary} {fails : Prop} {ask : Nat → Option User → Prop} {n : Nat} {template : Authorization}
  {phone hash code firstName lastName : Bytes} {accessHash : Int64} {passwords : Bool} {codes codes' : Codes}
  {trace : List StoreEvent}

/-- A read compares no code. -/
theorem isWrong_read (h : Bytes) {v : StoreEvent} (hreads : v.1.reads = true) : ¬isWrong h v = true := by
  obtain ⟨call, answer⟩ := v
  cases call with
  | codesVerifyLogin => cases hreads
  | _ => simp [isWrong]

/-- Checking a code leaves the other hashes alone. -/
theorem VerifyRun.others {result : Except Exn (Option User)}
    (hrun : VerifyRun fails ask n phone hash code codes codes' trace result) {h : Bytes} (hne : h ≠ hash) :
    codes'.find h = codes.find h ∧ trace.countP (isWrong h) = 0 := by
  cases hrun with
  | rightDrifted hrec hphone hx howner hfresh hcode hy hdrift hothers hgone =>
    exact ⟨hothers h hne, by simp [isWrong]⟩
  | unreadUsed _ _ _ _ _ _ _ _ howners =>
    have howners' := List.countP_eq_zero.mpr fun v hv => isWrong_read h (by rw [howners v hv]; rfl)
    exact ⟨by simp [hne], by simp [isWrong, howners']⟩
  | _ => simp [isWrong, hne, Ne.symm hne, Codes.find_countWrong_of_ne hne]

theorem SignInRun.others {result : Except Exn SignInResult}
    (hrun : SignInRun fails ask n template phone hash code passwords codes codes' trace result) {h : Bytes}
    (hne : h ≠ hash) : codes'.find h = codes.find h ∧ trace.countP (isWrong h) = 0 := by
  cases hrun with
  | refused hverify => exact hverify.others hne
  | needSignUp hverify => exact hverify.others hne
  | @bound tr reads u needed a answer hverify hreads ha =>
    refine ⟨(hverify.others hne).1, ?_⟩
    have hreads' : reads.countP (isWrong h) = 0 :=
      List.countP_eq_zero.mpr fun x hx => isWrong_read h (by rw [hreads.call_eq x hx]; rfl)
    rw [List.countP_append, List.countP_append, (hverify.others hne).2, hreads']
    rfl
  | unreadPassword _ hverify =>
    refine ⟨(hverify.others hne).1, ?_⟩
    rw [List.countP_append, (hverify.others hne).2]
    rfl

theorem SignUpRun.others {result : Except Exn User}
    (hrun : SignUpRun fails ask n template phone hash firstName lastName accessHash codes codes' trace result)
    {h : Bytes} (hne : h ≠ hash) : codes'.find h = codes.find h ∧ trace.countP (isWrong h) = 0 := by
  cases hrun <;> simp [isWrong, hne]

/-- A fresh record after a wrong code: counted, or gone with the last attempt. -/
theorem Track.wrong {hist : List Done} {d : Done} {rec : PhoneCode} (ht : Track lib hist codes hash)
    (hrec : codes.find hash = some rec) (hwrong : d.trace.countP (isWrong hash) = 1)
    (hbinds : binds d.trace = []) : Track lib (hist ++ [d]) (codes.countWrong hash rec defaultMaxAttempts) hash := by
  have hlive := ht.live rec hrec
  have hlimit : rec.limit defaultMaxAttempts = rec.maxAttempts := by
    simp [PhoneCode.limit, hlive.maxAttempts]
  unfold Codes.countWrong
  rw [hlimit]
  split
  · exact ht.ended hrec (by simp) (by omega) (by simp [hbinds])
  · next hlt =>
    refine ht.changed { rec with attempts := rec.attempts + 1 } hrec (by simp) rfl rfl rfl ?_ ?_
      hbinds fun hv => .inl hv
    · rw [hwrong]
      rfl
    · exact Int.not_le.mp hlt

theorem SignInRun.binds_length_le {result : Except Exn SignInResult}
    (hrun : SignInRun fails ask n template phone hash code passwords codes codes' trace result) :
    (binds trace).length ≤ 1 := by
  rcases hrun.binds_eq with hnone | ⟨_, _, _, -, -, -, hone⟩
  · rw [hnone]
    exact Nat.zero_le 1
  · rw [hone]
    exact Nat.le_refl 1

/-- **A `signIn` with the hash keeps the track of it.** -/
theorem SignInRun.track {hist : List Done} {d : Done} {result : Except Exn SignInResult} {phoneNumber : Bytes}
    (hrun : SignInRun fails ask n template (normalizePhone lib phoneNumber) hash code passwords codes codes' d.trace result)
    (hcall : d.call = .signIn template phoneNumber hash code passwords) (hresult : d.result = .signedIn result)
    (ht : Track lib hist codes hash) : Track lib (hist ++ [d]) codes' hash := by
  obtain ⟨call, trace, result'⟩ := d
  simp only at hrun hcall hresult
  subst hcall hresult
  have hone := hrun.binds_length_le
  -- What a sign-in does to the code is what its verification does; the login behind it touches no code.
  cases hrun with
  | @refused tr e hverify =>
    have hbinds := hverify.binds_eq_nil
    cases hverify with
    | missing | otherPhone | againRefused => exact ht.quiet rfl (by simp [isWrong]) fun _ => hbinds
    | drifted hrec => exact ht.ended hrec (by simp) (by simp [isWrong]) (by simp [hbinds])
    | wrong hrec => exact ht.wrong hrec (by simp [isWrong]) hbinds
    | wrongDrifted hrec => exact ht.ended hrec (by simp) (by simp [isWrong]) (by simp [hbinds])
    | rightDrifted hrec _ _ _ _ _ _ _ _ hgone =>
      exact ht.ended hrec hgone (by simp [isWrong]) (by simp [hbinds])
    | unreadBefore => exact ht.quiet rfl (by simp [isWrong]) fun _ => hbinds
    | unreadWrong _ hrec => exact ht.wrong hrec (by simp [isWrong]) hbinds
    | @unreadKept rec x _ hfails hrec hphone hx howner hfresh hcode hnone =>
      refine ht.changed { rec with signUpVerified := true } hrec (by simp) rfl rfl rfl
        (by simp [isWrong]) (ht.live rec hrec).attempts_lt hbinds fun _ => .inr ?_
      have hkeep : (ownerId x == 0) = true := by simpa using hnone
      refine ⟨template, phoneNumber, passwords, by rw [hcode], hphone.symm, .inr ⟨⟨e, rfl⟩, ?_⟩⟩
      exact ⟨[_, _], _, e, by rw [hkeep, hphone, hcode]; rfl⟩
    | unreadUsed _ hrec _ _ _ _ _ _ howners =>
      have howners' := List.countP_eq_zero.mpr fun v hv => isWrong_read hash (by rw [howners v hv]; rfl)
      exact ht.ended hrec (by simp) (by simp [isWrong, howners']) (by simp [hbinds])
  | needSignUp hverify =>
    have hbinds := hverify.binds_eq_nil
    cases hverify with
    | again => exact ht.quiet rfl (by simp [isWrong]) fun _ => hbinds
    | @kept rec x y hrec hphone hx howner hfresh hcode =>
      refine ht.changed { rec with signUpVerified := true } hrec (by simp) rfl rfl rfl
        (by simp [isWrong]) (ht.live rec hrec).attempts_lt hbinds fun _ => .inr ?_
      exact ⟨template, phoneNumber, passwords, by rw [hcode], hphone.symm, .inl ⟨{}, rfl⟩⟩
    | used hrec => exact ht.ended hrec (by simp) (by simp [isWrong]) (by simp [hbinds])
  | @bound tr reads u needed a answer hverify hreads ha =>
    have hwrong : reads.countP (isWrong hash) = 0 :=
      List.countP_eq_zero.mpr fun x hx => isWrong_read hash (by rw [hreads.call_eq x hx]; rfl)
    cases hverify with
    | used hrec =>
      refine ht.ended hrec (by simp) ?_ hone
      simp only [List.countP_append, hwrong]
      simp [isWrong]
  | unreadPassword _ hverify =>
    cases hverify with
    | used hrec => exact ht.ended hrec (by simp) (by simp [isWrong]) hone

theorem SignUpRun.binds_length_le {result : Except Exn User}
    (hrun : SignUpRun fails ask n template phone hash firstName lastName accessHash codes codes' trace result) :
    (binds trace).length ≤ 1 := by
  cases hrun with
  | malformed | missing | unfit | claimed | claimedLate | notCreated | unread | unreadLate => exact Nat.zero_le 1
  | created => exact Nat.le_refl 1

/-- **A `signUp` with the hash keeps the track of it.** -/
theorem SignUpRun.track {hist : List Done} {d : Done} {result : Except Exn User}
    (hrun : SignUpRun fails ask n template phone hash firstName lastName accessHash codes codes' d.trace result)
    (ht : Track lib hist codes hash) : Track lib (hist ++ [d]) codes' hash := by
  obtain ⟨call, trace, result'⟩ := d
  simp only at hrun
  have hone := hrun.binds_length_le
  cases hrun with
  | malformed | missing | unfit | unread => exact ht.quiet rfl (by simp [isWrong]) fun _ => rfl
  | claimed hrec | claimedLate hrec | notCreated hrec | created hrec | unreadLate _ hrec =>
    exact ht.ended hrec (by simp) (by simp [isWrong]) hone

/-- **A `sendCode` keeps the track of every hash**, where the one it issues is new. -/
theorem SendRun.track {hist : List Done} {d : Done} {result : Except Exn Bytes}
    (hrun : SendRun fails ask n phone hash codes codes' d.trace result) {h : Bytes}
    (hnew : ∀ rec, (h, rec) ∈ issuedBy d.trace → ∀ rec', (h, rec') ∉ issued hist)
    (ht : Track lib hist codes h) : Track lib (hist ++ [d]) codes' h := by
  obtain ⟨call, trace, result'⟩ := d
  simp only at hrun hnew
  cases hrun with
  | malformed => exact ht.quiet rfl (by simp) fun _ => rfl
  | unread => exact ht.quiet rfl (by simp [isWrong]) fun _ => rfl
  | @sent rec x deliveries result hx hrec hdeliveries =>
    have hdeliver : ∀ v ∈ deliveries, setCall v = none ∧ isDel v = false ∧ isWrong h v = false ∧
        bindCall v = none := fun v hv => by
      obtain ⟨call, res⟩ := v
      obtain ⟨r, hr⟩ := hdeliveries _ hv
      cases hr
      exact ⟨rfl, rfl, rfl, rfl⟩
    have hwrong : deliveries.countP (isWrong h) = 0 :=
      List.countP_eq_zero.mpr fun v hv => by simp [(hdeliver v hv).2.2.1]
    have hbinds : binds deliveries = [] := Auth.binds_eq_nil fun v hv => (hdeliver v hv).2.2.2
    by_cases hh : h = hash
    case neg => exact ht.quiet (by simp [hh]) (by simp [isWrong, hwrong]) fun _ => by simpa [binds, bindCall] using hbinds
    case pos =>
      subst hh
      have hissued : (h, rec) ∈ issuedBy
          (event (.usersByPhone phone) (.ok x) :: event (.codesSet h rec) (.ok ()) :: deliveries) := by
        have hdel : deliveries.any isDel = false := List.any_eq_false.mpr fun v hv => by simp [(hdeliver v hv).2.1]
        simp [issuedBy, isDel, hdel, setCall]
      exact ht.stored (hnew rec hissued) hrec hissued (by simp) (by simp [isWrong, hwrong])
        (by simpa [binds, bindCall] using hbinds)
  | undelivered hx hrec =>
    by_cases hh : h = hash
    case neg => exact ht.quiet (by simp [hh]) (by simp [isWrong]) fun _ => rfl
    case pos =>
      subst hh
      cases hold : codes.find h with
      | none => exact ht.quiet (by simp [hold]) (by simp [isWrong]) fun _ => rfl
      | some rec => exact ht.ended hold (by simp) (by simp [isWrong]) (Nat.zero_le 1)

/-! ### Their results -/

/-- `id` is the account of the phone, as the call read it or made it. -/
def AccountOf (phone : Bytes) (trace : List StoreEvent) (id : Int64) : Prop :=
  (∃ u, u.id = id ∧ u.phone = phone ∧ event (.usersByPhone phone) (.ok (some u)) ∈ trace) ∨
    ∃ u draft, u.id = id ∧ draft.phone = phone ∧ event (.usersCreate draft) (.ok u) ∈ trace

/-- The call logs in to and creates accounts of the phone only. -/
structure ForPhone (phone : Bytes) (trace : List StoreEvent) : Prop where
  binds : ∀ a ∈ binds trace, AccountOf phone trace a.userId
  creates : ∀ draft ∈ creates trace, draft.phone = phone

theorem VerifyRun.creates_eq_nil {result : Except Exn (Option User)}
    (hrun : VerifyRun fails ask n phone hash code codes codes' trace result) : creates trace = [] := by
  refine List.filterMap_eq_nil_iff.mpr fun x hx => ?_
  obtain ⟨call, answer⟩ := x
  rcases hrun.area_of_mem _ hx with h | h <;> cases call <;> first | rfl | cases h

theorem SignInRun.creates_eq_nil {result : Except Exn SignInResult}
    (hrun : SignInRun fails ask n template phone hash code passwords codes codes' trace result) : creates trace = [] := by
  cases hrun with
  | refused hverify => exact hverify.creates_eq_nil
  | needSignUp hverify => exact hverify.creates_eq_nil
  | @bound tr reads u needed a answer hverify hreads ha =>
    have hreads' : creates reads = [] := List.filterMap_eq_nil_iff.mpr fun x hx => by
      obtain ⟨call, res⟩ := x
      cases hreads.call_eq _ hx
      rfl
    unfold creates at hreads' ⊢
    rw [List.filterMap_append, List.filterMap_append, hreads', ← creates, hverify.creates_eq_nil]
    rfl
  | unreadPassword _ hverify =>
    unfold creates
    rw [List.filterMap_append, ← creates, hverify.creates_eq_nil]
    rfl

/-- A login or a new account needs a record for the phone, and is for that phone. -/
theorem SignInRun.forPhone {result : Except Exn SignInResult}
    (hrun : SignInRun fails ask n template phone hash code passwords codes codes' trace result)
    (hask : ∀ k u, ask k (some u) → u.phone = phone) :
    (binds trace = [] ∧ creates trace = []) ∨
      ∃ rec, codes.find hash = some rec ∧ rec.phone = phone ∧ ForPhone phone trace := by
  rcases hrun.binds_eq with hnone | ⟨u, tr, a, hverify, hsub, ha, hone⟩
  · exact .inl ⟨hnone, hrun.creates_eq_nil⟩
  · obtain ⟨rec, x, y, hrec, hphone, -, -, -, -, -, -, -, hz, -, hmem⟩ := hverify.of_some
    refine .inr ⟨rec, hrec, hphone, ⟨fun b hb => ?_, fun draft hdraft => ?_⟩⟩
    · rw [hone, List.mem_singleton] at hb
      exact .inl ⟨u, by rw [hb, ha], hask _ u hz, hsub _ hmem⟩
    · rw [hrun.creates_eq_nil] at hdraft
      cases hdraft

theorem SignUpRun.forPhone {result : Except Exn User}
    (hrun : SignUpRun fails ask n template phone hash firstName lastName accessHash codes codes' trace result) :
    (binds trace = [] ∧ creates trace = []) ∨
      ∃ rec, codes.find hash = some rec ∧ rec.phone = phone ∧ ForPhone phone trace := by
  cases hrun with
  | malformed | missing | unfit | claimed | claimedLate | unread | unreadLate => exact .inl ⟨rfl, rfl⟩
  | notCreated hrec hphone hverified =>
    refine .inr ⟨_, hrec, hphone, ⟨fun a ha => ?_, fun draft hdraft => ?_⟩⟩
    · simp [binds, bindCall] at ha
    · simp only [creates, createCall, List.filterMap_cons, List.filterMap_nil, List.mem_singleton] at hdraft
      rw [hdraft]
  | @created rec x y u a answer hrec hphone hverified ha =>
    refine .inr ⟨rec, hrec, hphone, ⟨fun b hb => ?_, fun draft hdraft => ?_⟩⟩
    · simp only [binds, bindCall, List.filterMap_cons, List.filterMap_nil, List.mem_singleton] at hb
      exact .inr ⟨u, { phone, firstName, lastName, accessHash }, by rw [hb, ha], rfl, by simp⟩
    · simp only [creates, createCall, List.filterMap_cons, List.filterMap_nil, List.mem_singleton] at hdraft
      rw [hdraft]

/-- Without a record every `signIn` throws. -/
theorem SignInRun.threw_of_missing {result : Except Exn SignInResult}
    (hrun : SignInRun fails ask n template phone hash code passwords codes codes' trace result)
    (hmissing : codes.find hash = none) : ∃ e, result = .error e := by
  cases hrun with
  | @refused _ e hverify => exact ⟨e, rfl⟩
  | needSignUp hverify =>
    cases hverify with
    | again hrec | kept hrec | used hrec => simp [hmissing] at hrec
  | bound hverify =>
    obtain ⟨rec, _, _, hrec, -⟩ := hverify.of_some
    simp [hmissing] at hrec
  | unreadPassword => exact ⟨_, rfl⟩

theorem SignUpRun.threw_of_missing {result : Except Exn User}
    (hrun : SignUpRun fails ask n template phone hash firstName lastName accessHash codes codes' trace result)
    (hmissing : codes.find hash = none) : ∃ e, result = .error e := by
  cases hrun with
  | malformed | missing | unread | unreadLate => exact ⟨_, rfl⟩
  | unfit hrec | claimed hrec | claimedLate hrec | notCreated hrec | created hrec => simp [hmissing] at hrec

/-- A `signUp` that returns had a record of the phone that was verified before. -/
theorem SignUpRun.verified_of_ok {u : User}
    (hrun : SignUpRun fails ask n template phone hash firstName lastName accessHash codes codes' trace (.ok u)) :
    ∃ rec, codes.find hash = some rec ∧ rec.phone = phone ∧ rec.signUpVerified = true := by
  generalize hresult : (Except.ok u : Except Exn User) = result at hrun
  cases hrun with
  | created hrec hphone hverified => exact ⟨_, hrec, hphone, hverified⟩
  | malformed | missing | unfit | claimed | claimedLate | notCreated | unread | unreadLate => cases hresult

end Calls

/-! ## Every sequence -/

/-- What a call of the sequence satisfies, given the calls before it. -/
structure CallFacts (lib : PhoneLibrary) (pre : List Done) (d : Done) : Prop where
  /-- After five wrong codes, nothing goes through with the hash. -/
  exhausted : ∀ hash, d.call.With hash → wrongCodes hash pre = 5 → d.result.threw
  /-- Who signs up has presented the code in an earlier `signIn` for the same phone, which accepted it. -/
  signedUp : ∀ template phoneNumber hash firstName lastName accessHash u,
    d.call = .signUp template phoneNumber hash firstName lastName accessHash →
    d.result = .signedUp (.ok u) → ∃ rec, (hash, rec) ∈ issued pre ∧
      ∃ d' ∈ pre, AcceptedFor lib hash (normalizePhone lib phoneNumber) rec.code d'
  /-- Logins and new accounts are for the phone that the hash was issued for. -/
  samePhone : ∀ hash, d.call.With hash → (binds d.trace = [] ∧ creates d.trace = []) ∨
    ∃ rec, (hash, rec) ∈ issued pre ∧ ForPhone rec.phone d.trace

/-- The life of the login codes, as a history and the codes after it show it. -/
structure Lifecycle (lib : PhoneLibrary) (hist : List Done) (codes : Codes) : Prop where
  binds_le : ∀ hash, (bindsFor hash hist).length ≤ 1
  wrong_le : ∀ hash, wrongCodes hash hist ≤ 5
  gone : ∀ hash, wrongCodes hash hist = 5 → codes.find hash = none
  attempts_lt : ∀ hash rec, codes.find hash = some rec → rec.attempts < rec.maxAttempts
  calls : Always (CallFacts lib) hist

section Runs

variable {P : Primitives} {lib : PhoneLibrary}

/-- The others leave the codes alone, and whoever is found under a phone has that phone. -/
theorem Interference.around (env : Interference) (phone : Bytes) :
    Around env.act phone (fun _ x => ∀ u, x = some u → u.phone = phone) fun _ => True where
  codes := env.codes
  keeps _ _ _ := trivial
  withCodes _ _ _ := trivial
  ask _ _ _ _ hu := phone_of_phoneOwner hu

/-- A code that is issued under a hash of its own. -/
theorem new_of_nodup {hist : List Done} {d : Done} (hnodup : ((issued (hist ++ [d])).map Prod.fst).Nodup)
    {h : Bytes} (rec : PhoneCode) (hrec : (h, rec) ∈ issuedBy d.trace) (rec' : PhoneCode) :
    (h, rec') ∉ issued hist := by
  intro hmem
  rw [issued_snoc, List.map_append, List.nodup_append] at hnodup
  exact hnodup.2.2 h (List.mem_map.mpr ⟨_, hmem, rfl⟩) h (List.mem_map.mpr ⟨_, hrec, rfl⟩) rfl

/-- **One call keeps the track of every hash.** -/
theorem track_step (env : Interference) (s : Stores) (call : LoginCall) {hist : List Done}
    (ht : ∀ h, Track lib hist s.codes h)
    (hnodup : ((issued (hist ++ [(runCall P lib env s call).1])).map Prod.fst).Nodup) (h : Bytes) :
    Track lib (hist ++ [(runCall P lib env s call).1]) (runCall P lib env s call).2.codes h := by
  cases call with
  | sendCode phoneNumber fixedCode sender ttl draw =>
    have hrun := sendCode_run (attempts_attempt P) phoneNumber fixedCode sender ttl draw
      (env.around (normalizePhone lib phoneNumber)) 0 s trivial
    exact SendRun.track hrun (fun rec hrec => new_of_nodup hnodup rec hrec) (ht h)
  | signIn template phoneNumber hash code passwords =>
    have hrun := signIn_run (attempts_attempt P) template phoneNumber hash code passwords
      (env.around (normalizePhone lib phoneNumber)) 0 s trivial
    by_cases hh : h = hash
    case pos =>
      subst hh
      exact SignInRun.track hrun rfl rfl (ht h)
    case neg =>
      obtain ⟨hfind, hwrong⟩ := hrun.others hh
      exact (ht h).quiet hfind hwrong fun hwith => absurd (Option.some.inj hwith).symm hh
  | signUp template phoneNumber hash firstName lastName accessHash =>
    have hrun := signUp_run (attempts_attempt P) template phoneNumber hash firstName lastName accessHash
      (env.around (normalizePhone lib phoneNumber)) 0 s trivial
    by_cases hh : h = hash
    case pos =>
      subst hh
      exact SignUpRun.track hrun (ht h)
    case neg =>
      obtain ⟨hfind, hwrong⟩ := hrun.others hh
      exact (ht h).quiet hfind hwrong fun hwith => absurd (Option.some.inj hwith).symm hh

/-- After five wrong codes the record is gone. -/
theorem Track.gone {hist : List Done} {codes : Codes} {hash : Bytes} (ht : Track lib hist codes hash)
    (hwrong : wrongCodes hash hist = 5) : codes.find hash = none := by
  cases hrec : codes.find hash with
  | none => rfl
  | some rec =>
    have hlive := ht.live rec hrec
    have hlt := hlive.attempts_lt
    rw [hlive.attempts, hlive.maxAttempts, hwrong] at hlt
    exact absurd hlt (by decide)

/-- The phone of a record in the store is one that its hash was issued for. -/
theorem Track.samePhone {hist : List Done} {codes : Codes} {hash phone : Bytes} {trace : List StoreEvent}
    (ht : Track lib hist codes hash)
    (h : (binds trace = [] ∧ creates trace = []) ∨
      ∃ rec, codes.find hash = some rec ∧ rec.phone = phone ∧ ForPhone phone trace) :
    (binds trace = [] ∧ creates trace = []) ∨ ∃ rec, (hash, rec) ∈ issued hist ∧ ForPhone rec.phone trace := by
  rcases h with hnone | ⟨rec, hrec, hphone, hfor⟩
  · exact .inl hnone
  · obtain ⟨rec₀, hmem, hsame, -⟩ := (ht.live rec hrec).issued
    exact .inr ⟨rec₀, hmem, by rw [hsame, hphone]; exact hfor⟩

/-- **What one call satisfies.** -/
theorem callFacts_step (env : Interference) (s : Stores) (call : LoginCall) {hist : List Done}
    (ht : ∀ h, Track lib hist s.codes h) : CallFacts lib hist (runCall P lib env s call).1 := by
  cases call with
  | sendCode phoneNumber fixedCode sender ttl draw =>
    have hnone : ∀ h, ¬ (LoginCall.sendCode phoneNumber fixedCode sender ttl draw).With h := fun h => by
      simp [LoginCall.With, LoginCall.target]
    exact ⟨fun h hwith => absurd hwith (hnone h), fun _ _ _ _ _ _ _ hcall => (by cases hcall),
      fun h hwith => absurd hwith (hnone h)⟩
  | signIn template phoneNumber hash code passwords =>
    have hrun := signIn_run (attempts_attempt P) template phoneNumber hash code passwords
      (env.around (normalizePhone lib phoneNumber)) 0 s trivial
    refine ⟨fun h hwith hfive => ?_, fun _ _ _ _ _ _ _ hcall => (by cases hcall), fun h hwith => ?_⟩
    · obtain rfl := Option.some.inj hwith
      exact hrun.threw_of_missing ((ht hash).gone hfive)
    · obtain rfl := Option.some.inj hwith
      exact (ht hash).samePhone (hrun.forPhone fun _ u hu => hu u rfl)
  | signUp template phoneNumber hash firstName lastName accessHash =>
    have hrun := signUp_run (attempts_attempt P) template phoneNumber hash firstName lastName accessHash
      (env.around (normalizePhone lib phoneNumber)) 0 s trivial
    refine ⟨fun h hwith hfive => ?_, fun t p h f l a u hcall hres => ?_, fun h hwith => ?_⟩
    · obtain rfl := Option.some.inj hwith
      exact hrun.threw_of_missing ((ht hash).gone hfive)
    · cases hcall
      have hok := LoginResult.signedUp.inj hres
      simp only [hok] at hrun
      obtain ⟨rec, hrec, hphone, hverified⟩ := hrun.verified_of_ok
      have hlive := (ht hash).live rec hrec
      obtain ⟨rec₀, hmem, -, hcode⟩ := hlive.issued
      refine ⟨rec₀, hmem, ?_⟩
      rw [hcode, ← hphone]
      exact hlive.verified hverified
    · obtain rfl := Option.some.inj hwith
      exact (ht hash).samePhone hrun.forPhone

theorem track_nil (hash : Bytes) : Track lib [] Table.empty hash where
  unissued _ := ⟨rfl, rfl, rfl⟩
  live _ hrec := by cases hrec
  wrong_le := Nat.zero_le 5
  binds_le := Nat.zero_le 1

/-- The track of every hash along a sequence, with what each of its calls satisfies. -/
theorem runLogins_track (calls : List (LoginCall × Interference)) (s : Stores) (hs : s.codes = Table.empty)
    (hnodup : ((issued (runLogins P lib calls s).1).map Prod.fst).Nodup) :
    (∀ h, Track lib (runLogins P lib calls s).1 (runLogins P lib calls s).2.codes h) ∧
      Always (CallFacts lib) (runLogins P lib calls s).1 := by
  induction calls using List.reverseRecOn with
  | nil => exact ⟨fun h => by simpa [runLogins, hs] using track_nil h, always_nil _⟩
  | append_singleton calls last ih =>
    obtain ⟨call, env⟩ := last
    rw [runLogins_snoc] at hnodup ⊢
    have hnodup' : ((issued (runLogins P lib calls s).1).map Prod.fst).Nodup := by
      rw [issued_snoc, List.map_append] at hnodup
      exact hnodup.of_append_left
    obtain ⟨htrack, halways⟩ := ih hnodup'
    exact ⟨track_step env _ call htrack hnodup, halways.snoc (callFacts_step env _ call htrack)⟩

/-- **The life of a login code**, in every sequence of calls that issues no hash twice. -/
theorem runLogins_lifecycle (P : Primitives) (lib : PhoneLibrary) (calls : List (LoginCall × Interference))
    (s : Stores) (hs : s.codes = Table.empty)
    (hnodup : ((issued (runLogins P lib calls s).1).map Prod.fst).Nodup) :
    Lifecycle lib (runLogins P lib calls s).1 (runLogins P lib calls s).2.codes := by
  obtain ⟨htrack, halways⟩ := runLogins_track calls s hs hnodup
  exact ⟨fun h => (htrack h).binds_le, fun h => (htrack h).wrong_le, fun h => (htrack h).gone,
    fun h rec hrec => ((htrack h).live rec hrec).attempts_lt, halways⟩

end Runs

/-- Nobody else acts. -/
def undisturbed : Interference := ⟨fun _ s => s, fun _ _ => rfl⟩

/-- A code for a phone without an account: a wrong code, the right one, and the sign-up. -/
def sampleLogins : List (LoginCall × Interference) :=
  [.sendCode samplePhone sampleCode none 300 sampleDraw,
    .signIn { authKeyId := Arr.zero 8 } samplePhone sampleHash (ascii "54321") true,
    .signIn { authKeyId := Arr.zero 8 } samplePhone sampleHash sampleCode true,
    .signUp { authKeyId := Arr.zero 8 } samplePhone sampleHash (ascii "Ann") [] 77].map (·, undisturbed)

def sampleLoginRun : List Done × Stores :=
  runLogins constPrimitives sampleLibrary sampleLogins { sampleStores with users := Table.empty }

/-- The connection to the database is lost at some calls. -/
def lostAt (lost : Nat → Bool) : Interference where
  act n s := { s with moment := { s.moment with unread := if lost n then some "08006" else none } }
  codes _ _ := rfl

/-- The right code, with the connection lost when the owner of the phone is read again. -/
def lostLogins : List (LoginCall × Interference) :=
  [(.sendCode samplePhone sampleCode none 300 sampleDraw, undisturbed),
    (.signIn { authKeyId := Arr.zero 8 } samplePhone sampleHash sampleCode true, lostAt (· == 3))]

/-- The sign-up behind it. -/
def lostSignUp : LoginCall × Interference :=
  (.signUp { authKeyId := Arr.zero 8 } samplePhone sampleHash (ascii "Ann") [] 77, lostAt fun _ => false)

def lostLoginRun : List Done × Stores :=
  runLogins constPrimitives sampleLibrary (lostLogins ++ [lostSignUp]) { sampleStores with users := Table.empty }

theorem runLogins_lifecycle_sample :
    Lifecycle sampleLibrary sampleLoginRun.1 sampleLoginRun.2.codes ∧ wrongCodes sampleHash sampleLoginRun.1 = 1 ∧
      (bindsFor sampleHash sampleLoginRun.1).map Authorization.userId = [8] ∧
      Lifecycle sampleLibrary lostLoginRun.1 lostLoginRun.2.codes ∧
      (bindsFor sampleHash lostLoginRun.1).map Authorization.userId = [8] :=
  ⟨runLogins_lifecycle constPrimitives sampleLibrary sampleLogins { sampleStores with users := Table.empty } rfl
      (by decide +kernel), by decide +kernel, by decide +kernel,
    runLogins_lifecycle constPrimitives sampleLibrary (lostLogins ++ [lostSignUp])
      { sampleStores with users := Table.empty } rfl (by decide +kernel), by decide +kernel⟩

def LoginResult.needsSignUp : LoginResult → Bool
  | signedIn (.ok result) => result.needSignUp
  | _ => false

/-- Who signs up was told so by an earlier `signIn` with the hash. -/
def NeedSignUpFirst (before : List Done) (d : Done) : Prop :=
  ∀ template phoneNumber hash firstName lastName accessHash u,
    d.call = .signUp template phoneNumber hash firstName lastName accessHash → d.result = .signedUp (.ok u) →
    ∃ d' ∈ before, d'.call.With hash ∧ d'.result.needsSignUp = true

/-- **A sign-up goes through although no `signIn` returned that one is needed.** -/
theorem lostSignUp_not_needed :
    ((issued lostLoginRun.1).map Prod.fst).Nodup ∧ ¬Always NeedSignUpFirst lostLoginRun.1 := by
  refine ⟨by decide +kernel, fun halways => ?_⟩
  let before := runLogins constPrimitives sampleLibrary lostLogins { sampleStores with users := Table.empty }
  let signUp := (runCall constPrimitives sampleLibrary lostSignUp.2 before.2 lostSignUp.1).1
  have hsplit : lostLoginRun.1 = before.1 ++ signUp :: [] :=
    congrArg Prod.fst (runLogins_snoc constPrimitives sampleLibrary lostLogins lostSignUp.1 lostSignUp.2 _)
  have hcreated : ∃ u, signUp.result = .signedUp (.ok u) :=
    ⟨{ id := 8, accessHash := 77, phone := samplePhone, firstName := ascii "Ann" }, by decide +kernel⟩
  obtain ⟨u, hu⟩ := hcreated
  obtain ⟨d', hmem, -, hneeded⟩ := halways _ _ _ hsplit _ _ _ _ _ _ u rfl hu
  have hnever : ∀ d ∈ before.1, d.result.needsSignUp = false := by decide +kernel
  rw [hnever d' hmem] at hneeded
  cases hneeded

end ShuzaGram.Auth

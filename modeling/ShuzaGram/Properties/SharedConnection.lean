import ShuzaGram.Server.Threads

/-!
# One transaction at a time on the shared connection

The comment on `db_mutex` says that it serializes every operation of the process that touches the
database. The threads of the server keep the connection exclusive exactly as long as none of them serves
a request, that it can read, of a handler that does not take the mutex.

* `keepsMutex_methodThread` — every other thread makes its calls inside a scope with the mutex
* `handle_unguarded` — a handler without the mutex starts with a call to the database
-/

namespace ShuzaGram.Server

open Infra Infra.Mutex Store Mtproto Mtproto.Messages Mtproto.Crypto Auth Users

/-- A request that its handler can read and serves without `db_mutex`: `users.getUsers`,
`account.updateStatus`, `account.getAuthorizations`, `account.updateProfile`, `account.checkUsername`,
`account.updateUsername` or `account.updateBirthday`. -/
def Job.Unguarded : Job → Prop
  | .request method _ body _ => method.locks = false ∧ method.readable body = true
  | _ => False

/-! ## Reading a request -/

theorem decode_of_not_reads {α : Type} {x : Get α} {body : Bytes} (h : reads x body = false) :
    ∃ e, decode x body = .fail e := by
  unfold reads at h
  unfold decode
  cases hx : x body with
  | ok a rest =>
    rw [hx] at h
    cases h
  | error e rest => exact ⟨e, rfl⟩

theorem decode_of_reads {α : Type} {x : Get α} {body : Bytes} (h : reads x body = true) : ∃ a, decode x body = .ret a := by
  unfold reads at h
  unfold decode
  cases hx : x body with
  | ok a rest => exact ⟨a, rfl⟩
  | error e rest =>
    rw [hx] at h
    cases h

section Unreadable

variable (cfg : Config) (draw : HandlerDraw) (ctx : RpcContext) {body : Bytes}

/-- A handler that cannot read its request makes no call. -/
theorem handle_unreadable {m : Method} (h : m.readable body = false) :
    (∃ a, handle cfg draw ctx body m = .ret a) ∨ ∃ e, handle cfg draw ctx body m = .fail e := by
  cases m with
  | authSendCode =>
    obtain ⟨e, he⟩ := decode_of_not_reads h
    exact .inr ⟨e, by rw [handle, handleAuthSendCode, he]; rfl⟩
  | authSignIn =>
    obtain ⟨e, he⟩ := decode_of_not_reads h
    exact .inr ⟨e, by rw [handle, handleAuthSignIn, he]; rfl⟩
  | authSignUp =>
    obtain ⟨e, he⟩ := decode_of_not_reads h
    exact .inr ⟨e, by rw [handle, handleAuthSignUp, he]; rfl⟩
  | accountGetPassword => cases h
  | authCheckPassword =>
    obtain ⟨e, he⟩ := decode_of_not_reads h
    exact .inr ⟨e, by rw [handle, handleAuthCheckPassword, he]; rfl⟩
  | usersGetUsers =>
    obtain ⟨e, he⟩ := decode_of_not_reads h
    exact .inl ⟨_, by rw [handle, handleUsersGetUsers, he]; rfl⟩
  | accountUpdateStatus =>
    obtain ⟨e, he⟩ := decode_of_not_reads h
    exact .inl ⟨_, by rw [handle, handleAccountUpdateStatus, he]; rfl⟩
  | accountGetAuthorizations => cases h
  | accountUpdateProfile =>
    obtain ⟨e, he⟩ := decode_of_not_reads h
    exact .inl ⟨_, by rw [handle, handleAccountUpdateProfile, he]; rfl⟩
  | accountCheckUsername =>
    obtain ⟨e, he⟩ := decode_of_not_reads h
    exact .inl ⟨_, by rw [handle, handleAccountCheckUsername, he]; rfl⟩
  | accountUpdateUsername =>
    obtain ⟨e, he⟩ := decode_of_not_reads h
    exact .inl ⟨_, by rw [handle, handleAccountUpdateUsername, he]; rfl⟩
  | accountUpdateBirthday =>
    obtain ⟨e, he⟩ := decode_of_not_reads h
    exact .inl ⟨_, by rw [handle, handleAccountUpdateBirthday, he]; rfl⟩

/-- A handler that does not take the mutex starts by asking for the login of its key. -/
theorem handle_unguarded {m : Method} (hlocks : m.locks = false) (h : m.readable body = true) :
    ∃ k, handle cfg draw ctx body m = .call (.authorizationsByAuthKey ctx.authKeyId) k := by
  cases m with
  | usersGetUsers =>
    obtain ⟨a, ha⟩ := decode_of_reads h
    exact ⟨_, by rw [handle, handleUsersGetUsers, ha]; rfl⟩
  | accountUpdateStatus =>
    obtain ⟨a, ha⟩ := decode_of_reads h
    exact ⟨_, by rw [handle, handleAccountUpdateStatus, ha]; rfl⟩
  | accountGetAuthorizations => exact ⟨_, rfl⟩
  | accountUpdateProfile =>
    obtain ⟨a, ha⟩ := decode_of_reads h
    exact ⟨_, by rw [handle, handleAccountUpdateProfile, ha]; rfl⟩
  | accountCheckUsername =>
    obtain ⟨a, ha⟩ := decode_of_reads h
    exact ⟨_, by rw [handle, handleAccountCheckUsername, ha]; rfl⟩
  | accountUpdateUsername =>
    obtain ⟨a, ha⟩ := decode_of_reads h
    exact ⟨_, by rw [handle, handleAccountUpdateUsername, ha]; rfl⟩
  | accountUpdateBirthday =>
    obtain ⟨a, ha⟩ := decode_of_reads h
    exact ⟨_, by rw [handle, handleAccountUpdateBirthday, ha]; rfl⟩
  | _ => cases hlocks

end Unreadable

/-! ## The threads -/

section Threads

variable (cfg : Config) (openInner : OpenBindAuthKeyInner)

theorem only_bindTempAuthKey (req : BindTempAuthKeyRequest) (now₁ now₂ : Int) :
    (bindTempAuthKey openInner req now₁ now₂).Only (fun call => call ≠ .lock ∧ call ≠ .unlock) := by
  have hload : ∀ t p, (Prog.perform (DbCall.authKeysLoadBindingKeys t p) : DbProg _).Only
      (fun call => call ≠ .lock ∧ call ≠ .unlock) := fun _ _ => Prog.only_perform ⟨nofun, nofun⟩
  have hsave : ∀ b, (Prog.perform (DbCall.tempKeysSaveWithState b) : DbProg _).Only
      (fun call => call ≠ .lock ∧ call ≠ .unlock) := fun _ => Prog.only_perform ⟨nofun, nofun⟩
  have hlive : ∀ pair now, (liveTemporary pair now).Only (fun call => call ≠ .lock ∧ call ≠ .unlock) := by
    intro pair now
    unfold liveTemporary
    split
    · exact trivial
    · exact Prog.Only.ite trivial trivial
  have hproof : ∀ pair, (checkProof openInner pair req).Only (fun call => call ≠ .lock ∧ call ≠ .unlock) := by
    intro pair
    unfold checkProof
    split
    · exact trivial
    · refine Prog.Only.ite trivial ?_
      split
      · exact trivial
      · exact Prog.Only.ite trivial trivial
  refine Prog.Only.ite trivial ?_
  refine (hload _ _).bind fun pair => (hlive pair now₁).bind fun temporary => (hproof pair).bind fun _ => ?_
  exact Prog.Only.ite trivial (hsave _)

theorem keepsMutex_handleAuthBindTempAuthKey (ctx : RpcContext) (body : Bytes) (now₁ now₂ : Int) :
    KeepsMutex false (handleAuthBindTempAuthKey openInner ctx body now₁ now₂) := by
  unfold handleAuthBindTempAuthKey
  split
  · exact keepsMutex_throw _
  · refine KeepsMutex.tryCatch (fun _ => keepsMutex_pure _) ?_
    exact (keepsMutex_lockGuard (only_bindTempAuthKey openInner _ now₁ now₂)).bind fun _ => keepsMutex_pure _

theorem keepsMutex_methodThread {draw : HandlerDraw} {ctx : RpcContext} {body : Bytes} {m : Method}
    (h : ¬(m.locks = false ∧ m.readable body = true)) : KeepsMutex false (methodThread cfg draw ctx body m) := by
  unfold methodThread
  split
  · exact keepsMutex_lockGuard (only_onDb _)
  · next hlocked =>
    have hunread : m.readable body = false := by
      cases hlocks : m.locks <;> cases hread : m.readable body <;> simp_all
    rcases handle_unreadable cfg draw ctx hunread with ⟨a, ha⟩ | ⟨e, he⟩
    · rw [ha]
      exact keepsMutex_pure a
    · rw [he]
      exact keepsMutex_throw e

/-- **A thread that does not serve a request without the mutex takes guarded steps.** -/
theorem guarded_of_takes {job : Job} (h : ¬job.Unguarded) {steps : List Step} (htakes : job.Takes cfg openInner steps) :
    Guarded .outside steps := by
  cases job with
  | request method ctx body draw => exact (keepsMutex_methodThread cfg h).guarded htakes
  | bindTempAuthKey ctx body now₁ now₂ =>
    exact (keepsMutex_handleAuthBindTempAuthKey openInner ctx body now₁ now₂).guarded htakes
  | getConfig =>
    cases htakes
    trivial
  | lookUp id =>
    have honly : (Prog.perform (DbCall.authKeysGet id) : DbProg _).Only (fun call => call ≠ .lock ∧ call ≠ .unlock) :=
      Prog.only_perform ⟨nofun, nofun⟩
    have hget : KeepsMutex false (lookUpThread id) := (keepsMutex_lockGuard honly).tryCatch fun _ => keepsMutex_pure _
    exact hget.guarded htakes
  | save result =>
    have honly : (Prog.perform (DbCall.authKeysSave (authKeyDataOf cfg.primitives result)) : DbProg _).Only
        (fun call => call ≠ .lock ∧ call ≠ .unlock) := Prog.only_perform ⟨nofun, nofun⟩
    have hsave : KeepsMutex false (saveThread cfg.primitives result) :=
      (keepsMutex_lockGuard honly).tryCatch fun _ => keepsMutex_pure _
    exact hsave.guarded htakes

theorem Job.exists_takes (job : Job) : ∃ steps, job.Takes cfg openInner steps := by
  cases job with
  | getConfig => exact ⟨[], rfl⟩
  | _ => exact Store.exists_takes _

/-- A request that is served without the mutex may open a transaction first. -/
theorem takes_of_unguarded {job : Job} (h : job.Unguarded) : ∃ rest, job.Takes cfg openInner (.open :: .commit :: rest) := by
  cases job with
  | request method ctx body draw =>
    obtain ⟨hlocks, hread⟩ := h
    obtain ⟨k, hk⟩ := handle_unguarded cfg draw ctx hlocks hread
    obtain ⟨rest, hrest⟩ := Store.exists_takes (onDb (k (.ok none)))
    refine ⟨rest, ?_⟩
    show Store.Takes (methodThread cfg draw ctx body method) _
    unfold methodThread
    rw [hlocks, Bool.false_and, if_neg (by decide), hk]
    exact ⟨.ok none, [.open, .commit], rest, .commit (.none 0), hrest, rfl⟩
  | _ => exact h.elim

/-- **The connection is exclusive exactly when no thread serves a request without the mutex.** For every
set of threads: in every state that some interleaving of their steps reaches, at most one transaction is
open and its thread holds `db_mutex`, if and only if none of them is unguarded. -/
theorem exclusive_iff_guarded {ι : Type} [DecidableEq ι] (jobs : ι → Job) :
    (∀ scripts : ι → List Step, (∀ i, (jobs i).Takes cfg openInner (scripts i)) →
      ∀ m, (Machine.start scripts).Reaches m → m.Exclusive) ↔ ∀ i, ¬(jobs i).Unguarded := by
  constructor
  · intro hexclusive i hi
    obtain ⟨rest, hrest⟩ := takes_of_unguarded cfg openInner hi
    choose others hothers using fun j => (jobs j).exists_takes cfg openInner
    have htakes : ∀ j, (jobs j).Takes cfg openInner (Function.update others i (.open :: .commit :: rest) j) := by
      intro j
      by_cases hj : j = i
      · subst hj
        rw [Function.update_self]
        exact hrest
      · rw [Function.update_of_ne hj]
        exact hothers j
    -- The thread opens its transaction before anyone has taken the mutex.
    have hstep := Machine.Next.take (m := Machine.start (Function.update others i (.open :: .commit :: rest)))
      (i := i) (Function.update_self ..) nofun
    obtain ⟨-, hholder⟩ := hexclusive _ htakes _ (.single hstep)
    exact absurd (hholder i List.mem_cons_self) nofun
  · intro hguarded scripts htakes m hrun
    exact exclusive_of_guarded (fun i => guarded_of_takes cfg openInner (hguarded i) (htakes i)) hrun

end Threads

/-- Two requests of `account.getAuthorizations`. -/
def twoListings (_ : Bool) : Job :=
  .request .accountGetAuthorizations { authKeyId := Arr.zero 8, sessionId := 0 } []
    { sendCode := { hash := Arr.zero 8, digits := fun _ => 0, deliveryId := Arr.zero 16, now := 0 }
      accessHash := 0
      challenge := { secret := Arr.zero 256, srpId := 0 }
      now := 0 }

def bareConfig : Config where
  primitives := blankPrimitives
  phones := { formatE164 := fun _ => none }
  otpSender := none

/-- Two listings have a transaction open at the same time, and nobody holds the mutex. -/
theorem twoListings_not_exclusive :
    ∃ scripts : Bool → List Step, (∀ i, (twoListings i).Takes bareConfig (fun _ _ => none) (scripts i)) ∧
      ∃ m, (Machine.start scripts).Reaches m ∧ m.opened = [true, false] ∧ m.holder = none ∧ ¬m.Exclusive := by
  have hunguarded : (twoListings false).Unguarded := ⟨rfl, rfl⟩
  obtain ⟨rest, hrest⟩ := takes_of_unguarded bareConfig (fun _ _ => none) hunguarded
  have hfirst := Machine.Next.take (m := Machine.start fun _ : Bool => Step.open :: .commit :: rest) (i := false) rfl nofun
  have hsecond := Machine.Next.take (m := (Machine.start fun _ : Bool => Step.open :: .commit :: rest).take false .open
    (.commit :: rest)) (i := true) rfl nofun
  refine ⟨fun _ => .open :: .commit :: rest, fun i => hrest, _, .tail (.single hfirst) hsecond, rfl, rfl, ?_⟩
  rintro ⟨hsingle, -⟩
  exact absurd hsingle (by simp [Machine.take, Machine.start])

end ShuzaGram.Server

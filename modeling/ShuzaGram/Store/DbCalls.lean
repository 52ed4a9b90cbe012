import ShuzaGram.Infra.Mutex
import ShuzaGram.Store.AuthKeyStore
import ShuzaGram.Store.Calls

/-!
# Calls on the shared connection

The stores of the database share one connection, on which every call runs its transactions. The threads
of the server are programs over the calls of all stores and over the mutex `db_mutex`, and a program
gives the steps that a thread takes on the mutex and on the connection.

What a call answers decides how its thread goes on. Here an answer may be anything, so that the steps of
a thread do not depend on what the stores hold.
-/

namespace ShuzaGram.Store

open Infra Infra.Mutex Domain

/-- `domain::TempAuthKeyBinding`. -/
structure TempAuthKeyBinding where
  tempAuthKeyId : Arr 8
  permAuthKeyId : Int64
  nonce : Int64
  tempSessionId : Int64
  expiresAt : Int
  encryptedMessage : Bytes

/-- `domain::TempAuthKeyBindingResult`. -/
structure TempAuthKeyBindingResult where
  layer : Int
  layerObservationId : Int64

/-- The mutex, and the calls of all stores. -/
inductive DbCall where
  | lock
  | unlock
  | store (call : StoreCall)
  | authKeysSave (key : AuthKeyData)
  | authKeysGet (id : Arr 8)
  | authKeysLoadBindingKeys (tempId permId : Arr 8)
  | tempKeysSaveWithState (binding : TempAuthKeyBinding)

@[reducible] def DbCall.Res : DbCall → Type
  | lock | unlock | authKeysSave .. => Unit
  | store call => call.Res
  | authKeysGet .. => Option AuthKeyData
  | authKeysLoadBindingKeys .. => AuthKeyBindingKeys
  | tempKeysSaveWithState .. => TempAuthKeyBindingResult

abbrev DbProg := Prog DbCall DbCall.Res Exn

/-- The calls of the stores, among those of the threads. -/
def onDb {α : Type} : StoreProg α → DbProg α
  | .ret a => .ret a
  | .fail e => .fail e
  | .call call k => .call (.store call) fun r => onDb (k r)

/-- The end of the scope of a `std::lock_guard`, however it is left. -/
def releasing {α : Type} : DbProg α → DbProg α
  | .ret a => .call .unlock fun _ => .ret a
  | .fail e => .call .unlock fun _ => .fail e
  | .call call k => .call call fun r => releasing (k r)

/-- A scope with a `std::lock_guard` on `db_mutex`. -/
def lockGuard {α : Type} (p : DbProg α) : DbProg α := .call .lock fun _ => releasing p

/-! ## Transactions -/

/-- `kAuthIdentityTxMaxAttempts`. -/
def authIdentityTxMaxAttempts : Nat := 3

/-- How many transactions a call of a store opens at most. The code store is in memory, and some
questions are answered without asking the database. -/
def StoreCall.transactions : StoreCall → Nat
  | codesSet .. | codesGet .. | codesDel .. | codesVerifyLogin .. | codesConsumeSignUpVerified .. => 0
  | otpDeliver .. => 0
  | usersByIds ids => if ids = [] then 0 else 1
  | usersByPhone phone => if phone = [] then 0 else 1
  | usersByUsername username => if trimUsername username = [] then 0 else 1
  | usersById .. | usersCreate .. | usersUpdateLastSeen .. | usersUpdateProfile .. => 1
  | usersUpdateUsername .. | usersUpdateBirthday .. => 1
  | authorizationsBind .. => authIdentityTxMaxAttempts
  | authorizationsByAuthKey .. | authorizationsListByUser .. | authorizationsMarkPasswordPassed .. => 1
  | passwordsGetByUser .. | passwordsSave .. => 1

def DbCall.transactions : DbCall → Nat
  | lock | unlock => 0
  | store call => call.transactions
  | authKeysSave key => if validNewAuthKeyProtocolExpiry key.expiresAt then 1 else 0
  | authKeysGet .. | authKeysLoadBindingKeys .. => 1
  | tempKeysSaveWithState binding =>
    if binding.expiresAt ≤ 0 ∨ binding.expiresAt > 2147483647 then 0 else authIdentityTxMaxAttempts

/-- Up to `n` transactions, one after another. Each of them is committed or aborted. -/
inductive Transactions : Nat → List Step → Prop where
  | none (n : Nat) : Transactions n []
  | commit {n : Nat} {rest : List Step} (h : Transactions n rest) : Transactions (n + 1) (.open :: .commit :: rest)
  | abort {n : Nat} {rest : List Step} (h : Transactions n rest) : Transactions (n + 1) (.open :: .abort :: rest)

/-- The steps that a call can take. -/
def DbCall.Takes (call : DbCall) (steps : List Step) : Prop :=
  match call with
  | lock => steps = [.lock]
  | unlock => steps = [.unlock]
  | call => Transactions call.transactions steps

/-- The steps that a thread can take, whatever its calls are answered. -/
def Takes {α : Type} : DbProg α → List Step → Prop
  | .ret _, steps => steps = []
  | .fail _, steps => steps = []
  | .call call k, steps => ∃ r first rest, call.Takes first ∧ Takes (k r) rest ∧ steps = first ++ rest

theorem DbCall.exists_takes (call : DbCall) : ∃ steps, call.Takes steps := by
  cases call with
  | lock => exact ⟨_, rfl⟩
  | unlock => exact ⟨_, rfl⟩
  | _ => exact ⟨[], .none _⟩

/-- Every thread can take some steps to its end. -/
theorem exists_takes {α : Type} : ∀ p : DbProg α, ∃ steps, Takes p steps
  | .ret _ => ⟨[], rfl⟩
  | .fail _ => ⟨[], rfl⟩
  | .call call k => by
    obtain ⟨first, hfirst⟩ := call.exists_takes
    obtain ⟨rest, hrest⟩ := exists_takes (k (.error .bufferUnderrun))
    exact ⟨first ++ rest, _, first, rest, hfirst, hrest, rfl⟩

/-! ## Threads that keep to the mutex -/

/-- Whether the mutex is held after a call; `none` for a call that breaks the discipline. -/
def DbCall.mutexAfter (held : Bool) : DbCall → Option Bool
  | lock => if held then none else some true
  | unlock => if held then some false else none
  | call => if call.transactions = 0 ∨ held = true then some held else none

/-- Every transaction of the program is inside a scope with the mutex; `held` says whether the program
starts in one. -/
def KeepsMutex {α : Type} : Bool → DbProg α → Prop
  | held, .ret _ => held = false
  | held, .fail _ => held = false
  | held, .call call k => ∃ held', call.mutexAfter held = some held' ∧ ∀ r, KeepsMutex held' (k r)

def phaseOf (held : Bool) : Phase := if held then .holding else .outside

theorem guarded_transactions {n : Nat} {steps rest : List Step} (h : Transactions n steps) (hrest : Guarded .holding rest) :
    Guarded .holding (steps ++ rest) := by
  induction h with
  | none n => exact hrest
  | commit _ ih => exact ih
  | abort _ ih => exact ih

/-- The step lemma: the steps of a call lead from one phase to the next. -/
theorem guarded_takes {call : DbCall} {held held' : Bool} (hafter : call.mutexAfter held = some held')
    {steps rest : List Step} (htakes : call.Takes steps) (hrest : Guarded (phaseOf held') rest) :
    Guarded (phaseOf held) (steps ++ rest) := by
  -- A call of the store is allowed where it takes no transaction, or the mutex is held.
  have hstore : ∀ c : DbCall, (if c.transactions = 0 ∨ held = true then some held else none) = some held' →
      Transactions c.transactions steps → Guarded (phaseOf held) (steps ++ rest) := by
    intro c hc htx
    split at hc
    · next hcond =>
      cases hc
      rcases hcond with hzero | rfl
      · rw [hzero] at htx
        cases htx
        exact hrest
      · exact guarded_transactions htx hrest
    · cases hc
  cases call with
  | lock =>
    cases held <;> cases hafter
    cases htakes
    exact hrest
  | unlock =>
    cases held <;> cases hafter
    cases htakes
    exact hrest
  | store c => exact hstore _ hafter htakes
  | authKeysSave key => exact hstore _ hafter htakes
  | authKeysGet id => exact hstore _ hafter htakes
  | authKeysLoadBindingKeys t p => exact hstore _ hafter htakes
  | tempKeysSaveWithState b => exact hstore _ hafter htakes

/-- **A program that keeps to the mutex takes guarded steps**, whatever its calls are answered. -/
theorem KeepsMutex.guarded {α : Type} : ∀ {p : DbProg α} {held : Bool}, KeepsMutex held p → ∀ {steps}, Takes p steps →
    Guarded (phaseOf held) steps
  | .ret _, _, h, _, htakes => by
    cases h
    cases htakes
    trivial
  | .fail _, _, h, _, htakes => by
    cases h
    cases htakes
    trivial
  | .call _ _, _, ⟨_, hafter, hk⟩, _, ⟨r, _, _, hfirst, hrest, heq⟩ => by
    subst heq
    exact guarded_takes hafter hfirst ((hk r).guarded hrest)

section

variable {α β : Type}

theorem keepsMutex_pure (a : α) : KeepsMutex false (pure a : DbProg α) := rfl

theorem keepsMutex_throw (e : Exn) : KeepsMutex false (throw e : DbProg α) := rfl

theorem KeepsMutex.tryCatch {h : Exn → DbProg α} (hh : ∀ e, KeepsMutex false (h e)) :
    ∀ {p : DbProg α} {held : Bool}, KeepsMutex held p → KeepsMutex held (tryCatch p h)
  | .ret _, _, hp => hp
  | .fail e, _, hp => by
    cases hp
    exact hh e
  | .call _ _, _, ⟨held', hafter, hk⟩ => ⟨held', hafter, fun r => (hk r).tryCatch hh⟩

theorem KeepsMutex.bind {f : α → DbProg β} (hf : ∀ a, KeepsMutex false (f a)) :
    ∀ {p : DbProg α} {held : Bool}, KeepsMutex held p → KeepsMutex held (p >>= f)
  | .ret a, _, hp => by
    cases hp
    exact hf a
  | .fail _, _, hp => hp
  | .call _ _, _, ⟨held', hafter, hk⟩ => ⟨held', hafter, fun r => (hk r).bind hf⟩

/-- A program that leaves the mutex alone may be run in a scope with it. -/
theorem keepsMutex_releasing : ∀ {p : DbProg α}, p.Only (fun call => call ≠ .lock ∧ call ≠ .unlock) →
    KeepsMutex true (releasing p)
  | .ret _, _ => ⟨false, rfl, fun _ => rfl⟩
  | .fail _, _ => ⟨false, rfl, fun _ => rfl⟩
  | .call call _, hp => by
    refine ⟨true, ?_, fun r => keepsMutex_releasing (hp.2 r)⟩
    cases call with
    | lock => exact absurd rfl hp.1.1
    | unlock => exact absurd rfl hp.1.2
    | _ => simp [DbCall.mutexAfter]

theorem keepsMutex_lockGuard {p : DbProg α} (hp : p.Only (fun call => call ≠ .lock ∧ call ≠ .unlock)) :
    KeepsMutex false (lockGuard p) := ⟨true, rfl, fun _ => keepsMutex_releasing hp⟩

theorem only_onDb : ∀ p : StoreProg α, (onDb p).Only (fun call => call ≠ .lock ∧ call ≠ .unlock)
  | .ret _ => trivial
  | .fail _ => trivial
  | .call _ k => ⟨⟨nofun, nofun⟩, fun r => only_onDb (k r)⟩

end

end ShuzaGram.Store

import Mathlib.Tactic.Common

/-!
# Programs over calls

A program that computes by calling operations of an outside world, one after another, and may throw.
The program is data: what it calls next depends on the answers so far. A run gives the calls their
meaning in a state. Between two calls, other parties may change the state; a run with the idle
environment is the program executed alone.

* `Prog` — programs, with sequencing and handlers for exceptions
* `Prog.run` — a run: the result, the state it leaves, and the calls it made with their answers
* `Prog.Only` — every call the program can make is of a certain kind
* `Prog.Yields` — a program ends the same way wherever it starts
* `Prog.run_bind`, `Prog.run_tryCatch` — runs of composed programs
* `Prog.run_preserves` — what the calls of a run and the environment preserve, the run preserves
-/

namespace ShuzaGram.Infra

/-- Programs that call operations `Op`, with answers of type `Res op`, and throw exceptions `ε`. -/
inductive Prog (Op : Type) (Res : Op → Type) (ε α : Type) where
  | ret (a : α)
  | fail (e : ε)
  | call (op : Op) (k : Except ε (Res op) → Prog Op Res ε α)

namespace Prog

variable {Op : Type} {Res : Op → Type} {ε α β S : Type}

def bind : Prog Op Res ε α → (α → Prog Op Res ε β) → Prog Op Res ε β
  | .ret a, f => f a
  | .fail e, _ => .fail e
  | .call op k, f => .call op fun r => (k r).bind f

/-- Run `h` on the exception of a program that throws. -/
def handle : Prog Op Res ε α → (ε → Prog Op Res ε α) → Prog Op Res ε α
  | .ret a, _ => .ret a
  | .fail e, h => h e
  | .call op k, h => .call op fun r => (k r).handle h

instance : Monad (Prog Op Res ε) where
  pure := .ret
  bind := bind

instance : MonadExceptOf ε (Prog Op Res ε) where
  throw := .fail
  tryCatch := handle

theorem ret_bind (a : α) (f : α → Prog Op Res ε β) : (pure a : Prog Op Res ε α) >>= f = f a := rfl

/-- Call an operation; what it throws, the program throws. -/
def perform (op : Op) : Prog Op Res ε (Res op) :=
  .call op fun
    | .ok a => .ret a
    | .error e => .fail e

theorem perform_bind_bind (op : Op) (f : Res op → Prog Op Res ε α) (g : α → Prog Op Res ε β) :
    (perform op >>= f) >>= g = perform op >>= fun a => f a >>= g := by
  refine congrArg (Prog.call op) (funext fun r => ?_)
  cases r with
  | ok a => rfl
  | error e => rfl

/-! ## Runs -/

/-- A call with its answer. -/
abbrev Event (Res : Op → Type) (ε : Type) := (op : Op) × Except ε (Res op)

/-- What a run leaves. -/
structure Outcome (Res : Op → Type) (ε S α : Type) where
  result : Except ε α
  state : S
  trace : List (Event Res ε)

/-- Run a program; `env n` is what the other parties do to the state before the `n`-th call. -/
def run (exec : (op : Op) → S → Except ε (Res op) × S) (env : Nat → S → S) :
    Nat → Prog Op Res ε α → S → Outcome Res ε S α
  | _, .ret a, s => { result := .ok a, state := s, trace := [] }
  | _, .fail e, s => { result := .error e, state := s, trace := [] }
  | n, .call op k, s =>
    let (r, s') := exec op (env n s)
    let o := run exec env (n + 1) (k r) s'
    { o with trace := ⟨op, r⟩ :: o.trace }

/-- Nobody else touches the state. -/
def idle : Nat → S → S := fun _ s => s

/-- A run without other parties. -/
def exec (exec : (op : Op) → S → Except ε (Res op) × S) (p : Prog Op Res ε α) (s : S) :
    Outcome Res ε S α :=
  p.run exec idle 0 s

section Run

variable {ex : (op : Op) → S → Except ε (Res op) × S} {env : Nat → S → S} {n : Nat} {s : S}

@[simp] theorem run_pure (a : α) :
    run ex env n (pure a : Prog Op Res ε α) s = { result := .ok a, state := s, trace := [] } := rfl

@[simp] theorem run_throw (e : ε) :
    run ex env n (throw e : Prog Op Res ε α) s = { result := .error e, state := s, trace := [] } := rfl

theorem run_call (op : Op) (k : Except ε (Res op) → Prog Op Res ε α) :
    run ex env n (.call op k) s =
      let o := run ex env (n + 1) (k (ex op (env n s)).1) (ex op (env n s)).2
      { o with trace := ⟨op, (ex op (env n s)).1⟩ :: o.trace } := rfl

theorem run_perform (op : Op) :
    run ex env n (perform op : Prog Op Res ε (Res op)) s =
      { result := (ex op (env n s)).1, state := (ex op (env n s)).2,
        trace := [⟨op, (ex op (env n s)).1⟩] } := by
  rw [perform, run_call]
  rcases ex op (env n s) with ⟨_ | _, s'⟩ <;> rfl

/-- A run that starts with a call. -/
theorem run_perform_bind (op : Op) (f : Res op → Prog Op Res ε α) :
    run ex env n (perform op >>= f) s =
      match ex op (env n s) with
      | (.ok a, s') =>
        let o := run ex env (n + 1) (f a) s'
        { o with trace := ⟨op, .ok a⟩ :: o.trace }
      | (.error e, s') => { result := .error e, state := s', trace := [⟨op, .error e⟩] } := by
  show run ex env n (.call op fun r => bind (match r with
    | .ok a => .ret a
    | .error e => .fail e) f) s = _
  rw [run]
  rcases ex op (env n s) with ⟨_ | _, s'⟩ <;> rfl

/-- A run of a sequence is a run of the first part, then of the second in the state it left. -/
theorem run_bind (f : α → Prog Op Res ε β) : ∀ (p : Prog Op Res ε α) (n : Nat) (s : S),
    run ex env n (p >>= f) s =
      let o := run ex env n p s
      match o.result with
      | .ok a =>
        let o' := run ex env (n + o.trace.length) (f a) o.state
        { o' with trace := o.trace ++ o'.trace }
      | .error e => { result := .error e, state := o.state, trace := o.trace }
  | .ret _, _, _ => rfl
  | .fail _, _, _ => rfl
  | .call op k, n, s => by
    have ih := run_bind f (k (ex op (env n s)).1) (n + 1) (ex op (env n s)).2
    have hcount : ∀ l : List (Event Res ε), n + 1 + l.length = n + (l.length + 1) := fun l => by omega
    rw [show (call op k >>= f) = .call op fun r => k r >>= f from rfl, run_call, run_call, ih]
    simp only [List.length_cons, hcount]
    rcases run ex env (n + 1) (k (ex op (env n s)).1) (ex op (env n s)).2 with ⟨_ | _, _, _⟩ <;> rfl

/-- A run of a program with a handler is a run of the program, then of the handler if it threw. -/
theorem run_tryCatch (h : ε → Prog Op Res ε α) : ∀ (p : Prog Op Res ε α) (n : Nat) (s : S),
    run ex env n (tryCatch p h) s =
      let o := run ex env n p s
      match o.result with
      | .ok _ => o
      | .error e =>
        let o' := run ex env (n + o.trace.length) (h e) o.state
        { o' with trace := o.trace ++ o'.trace }
  | .ret _, _, _ => rfl
  | .fail _, _, _ => rfl
  | .call op k, n, s => by
    have ih := run_tryCatch h (k (ex op (env n s)).1) (n + 1) (ex op (env n s)).2
    have hcount : ∀ l : List (Event Res ε), n + 1 + l.length = n + (l.length + 1) := fun l => by omega
    rw [show tryCatch (call op k) h = .call op fun r => tryCatch (k r) h from rfl, run_call, run_call, ih]
    simp only [List.length_cons, hcount]
    rcases run ex env (n + 1) (k (ex op (env n s)).1) (ex op (env n s)).2 with ⟨_ | _, _, _⟩ <;> rfl

/-- **What the environment and the calls of a run preserve, the run preserves.** The calls are those
in its trace, with their answers. -/
theorem run_preserves {P : Event Res ε → Prop} {I : S → Prop} (henv : ∀ n s, I s → I (env n s))
    (hex : ∀ op s, P ⟨op, (ex op s).1⟩ → I s → I (ex op s).2) :
    ∀ (p : Prog Op Res ε α) (n : Nat) (s : S), (∀ x ∈ (run ex env n p s).trace, P x) → I s →
      I (run ex env n p s).state
  | .ret _, _, _, _, hs => hs
  | .fail _, _, _, _, hs => hs
  | .call op k, n, s, hp, hs => by
    have hhead := hex op (env n s) (hp _ List.mem_cons_self) (henv n s hs)
    exact run_preserves henv hex (k _) (n + 1) _ (fun x hx => hp x (List.mem_cons_of_mem _ hx)) hhead

theorem state_of_trace_nil : ∀ (p : Prog Op Res ε α) (n : Nat) (s : S), (run ex env n p s).trace = [] →
    (run ex env n p s).state = s
  | .ret _, _, _, _ => rfl
  | .fail _, _, _, _ => rfl
  | .call _ _, _, _, h => by cases h

/-- **The state at a call of a run.** What the environment and the calls before it preserve holds there,
the answer comes from there, and the run ends there if it is the last call. -/
theorem run_split {I : S → Prop} (henv : ∀ n s, I s → I (env n s)) :
    ∀ (p : Prog Op Res ε α) (n : Nat) (s : S) {pre post : List (Event Res ε)} {x : Event Res ε},
      (run ex env n p s).trace = pre ++ x :: post →
      (∀ op s, ⟨op, (ex op s).1⟩ ∈ pre → I s → I (ex op s).2) → I s →
      ∃ s', I s' ∧ x.2 = (ex x.1 s').1 ∧ (post = [] → (run ex env n p s).state = (ex x.1 s').2)
  | .ret _, _, _, pre, _, _, htrace, _, _ => by cases pre <;> cases htrace
  | .fail _, _, _, pre, _, _, htrace, _, _ => by cases pre <;> cases htrace
  | .call op k, n, s, pre, post, x, htrace, hpre, hs => by
    rw [run_call] at htrace ⊢
    cases pre with
    | nil =>
      obtain ⟨rfl, rfl⟩ := List.cons.inj htrace
      exact ⟨env n s, henv n s hs, rfl, fun hpost => state_of_trace_nil _ _ _ hpost⟩
    | cons y pre =>
      obtain ⟨rfl, htail⟩ := List.cons.inj htrace
      exact run_split henv (k _) (n + 1) _ htail
        (fun op s hmem => hpre op s (List.mem_cons_of_mem _ hmem))
        (hpre op (env n s) List.mem_cons_self (henv n s hs))

end Run

/-! ## Programs that end the same way everywhere -/

/-- From every state with `I`, the program ends with `r`, in a state with `I`. -/
def Yields (ex : (op : Op) → S → Except ε (Res op) × S) (env : Nat → S → S) (I : S → Prop) (p : Prog Op Res ε α)
    (r : Except ε α) : Prop :=
  ∀ n s, I s → (run ex env n p s).result = r ∧ I (run ex env n p s).state

section Yields

variable {ex : (op : Op) → S → Except ε (Res op) × S} {env : Nat → S → S} {I : S → Prop}

theorem yields_pure (a : α) : Yields ex env I (pure a) (.ok a) := fun _ _ hs => ⟨rfl, hs⟩

theorem yields_throw (e : ε) : Yields ex env I (throw e : Prog Op Res ε α) (.error e) := fun _ _ hs => ⟨rfl, hs⟩

theorem yields_perform {op : Op} {r : Except ε (Res op)} (henv : ∀ n s, I s → I (env n s))
    (h : ∀ s, I s → (ex op s).1 = r ∧ I (ex op s).2) : Yields ex env I (perform op) r := by
  intro n s hs
  rw [run_perform]
  exact h (env n s) (henv n s hs)

theorem Yields.bind {p : Prog Op Res ε α} {a : α} {f : α → Prog Op Res ε β} {r : Except ε β}
    (hp : Yields ex env I p (.ok a)) (hf : Yields ex env I (f a) r) : Yields ex env I (p >>= f) r := by
  intro n s hs
  obtain ⟨hresult, hstate⟩ := hp n s hs
  simp only [run_bind, hresult]
  exact hf _ _ hstate

theorem Yields.bind_error {p : Prog Op Res ε α} {e : ε} {f : α → Prog Op Res ε β}
    (hp : Yields ex env I p (.error e)) : Yields ex env I (p >>= f) (.error e) := by
  intro n s hs
  obtain ⟨hresult, hstate⟩ := hp n s hs
  simp only [run_bind, hresult]
  exact ⟨trivial, hstate⟩

theorem Yields.catch_ok {p : Prog Op Res ε α} {a : α} {h : ε → Prog Op Res ε α} (hp : Yields ex env I p (.ok a)) :
    Yields ex env I (tryCatch p h) (.ok a) := by
  intro n s hs
  obtain ⟨hresult, hstate⟩ := hp n s hs
  simp only [run_tryCatch, hresult]
  exact ⟨trivial, hstate⟩

theorem Yields.catch_error {p : Prog Op Res ε α} {e : ε} {h : ε → Prog Op Res ε α} {r : Except ε α}
    (hp : Yields ex env I p (.error e)) (hh : Yields ex env I (h e) r) : Yields ex env I (tryCatch p h) r := by
  intro n s hs
  obtain ⟨hresult, hstate⟩ := hp n s hs
  simp only [run_tryCatch, hresult]
  exact hh _ _ hstate

end Yields

/-! ## Programs that make certain calls only -/

/-- Every call that the program can make satisfies `P`. -/
def Only (P : Op → Prop) : Prog Op Res ε α → Prop
  | .ret _ => True
  | .fail _ => True
  | .call op k => P op ∧ ∀ r, Only P (k r)

section Only

variable {P : Op → Prop}

@[simp] theorem only_pure (a : α) : Only P (pure a : Prog Op Res ε α) := trivial

@[simp] theorem only_throw (e : ε) : Only P (throw e : Prog Op Res ε α) := trivial

theorem only_throw_bind (e : ε) (f : α → Prog Op Res ε β) : Only P ((throw e : Prog Op Res ε α) >>= f) := trivial

theorem only_perform {op : Op} (h : P op) : Only P (perform op : Prog Op Res ε (Res op)) := by
  refine ⟨h, fun r => ?_⟩
  cases r with
  | ok a => trivial
  | error e => trivial

theorem Only.bind {f : α → Prog Op Res ε β} :
    ∀ {p : Prog Op Res ε α}, p.Only P → (∀ a, (f a).Only P) → (p >>= f).Only P
  | .ret a, _, hf => hf a
  | .fail _, _, _ => trivial
  | .call _ _, hp, hf => ⟨hp.1, fun r => Only.bind (hp.2 r) hf⟩

theorem Only.tryCatch {h : ε → Prog Op Res ε α} :
    ∀ {p : Prog Op Res ε α}, p.Only P → (∀ e, (h e).Only P) → (tryCatch p h).Only P
  | .ret _, _, _ => trivial
  | .fail e, _, hh => hh e
  | .call _ _, hp, hh => ⟨hp.1, fun r => Only.tryCatch (hp.2 r) hh⟩

theorem Only.ite {c : Prop} [Decidable c] {p q : Prog Op Res ε α} (hp : p.Only P) (hq : q.Only P) :
    (if c then p else q).Only P := by
  split
  · exact hp
  · exact hq

/-- A run makes only calls of the given kind. -/
theorem mem_trace_run {ex : (op : Op) → S → Except ε (Res op) × S} {env : Nat → S → S} :
    ∀ {p : Prog Op Res ε α}, p.Only P → ∀ (n : Nat) (s : S), ∀ x ∈ (run ex env n p s).trace, P x.1
  | .ret _, _, _, _, _, hx => by cases hx
  | .fail _, _, _, _, _, hx => by cases hx
  | .call op k, hp, n, s, x, hx => by
    rcases List.mem_cons.mp hx with rfl | hx
    · exact hp.1
    · exact mem_trace_run (hp.2 _) (n + 1) _ x hx

end Only

end Prog

end ShuzaGram.Infra

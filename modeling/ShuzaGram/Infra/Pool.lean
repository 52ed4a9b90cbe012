import Mathlib.Logic.Function.Basic
import ShuzaGram.Infra.Prog

/-!
# Programs side by side

Programs that share a state and take turns. In its turn a program makes its next call, as one step;
before it, the surroundings may change the state. A program that has ended lets its turns pass.

* `Pool` — the programs, as far as they have come, and the state
* `Pool.interleave` — a run under a schedule
* `Pool.interleave_rel` — what every turn keeps between the pool and an account of it, the run keeps
-/

namespace ShuzaGram.Infra

structure Pool (ι Op : Type) (Res : Op → Type) (ε α S : Type) where
  progs : ι → Prog Op Res ε α
  state : S

namespace Pool

variable {ι Op : Type} [DecidableEq ι] {Res : Op → Type} {ε α S : Type}

/-- The turn of `i`; `env` is what the surroundings do to the state before its call. -/
def turn (ex : (op : Op) → S → Except ε (Res op) × S) (i : ι) (env : S → S) (c : Pool ι Op Res ε α S) :
    Pool ι Op Res ε α S :=
  match c.progs i with
  | .call op k =>
    let (r, s) := ex op (env c.state)
    { progs := Function.update c.progs i (k r), state := s }
  | _ => c

/-- The turns of a schedule, one after another. -/
def interleave (ex : (op : Op) → S → Except ε (Res op) × S) (sched : List (ι × (S → S)))
    (c : Pool ι Op Res ε α S) : Pool ι Op Res ε α S :=
  sched.foldl (fun c t => c.turn ex t.1 t.2) c

variable {ex : (op : Op) → S → Except ε (Res op) × S} {c : Pool ι Op Res ε α S} {i : ι} {env : S → S}

theorem turn_of_call {op : Op} {k : Except ε (Res op) → Prog Op Res ε α} (h : c.progs i = .call op k) :
    c.turn ex i env =
      { progs := Function.update c.progs i (k (ex op (env c.state)).1), state := (ex op (env c.state)).2 } := by
  simp only [turn, h]

theorem turn_of_ret {a : α} (h : c.progs i = .ret a) : c.turn ex i env = c := by
  simp only [turn, h]

/-- What a program has returned stays. -/
theorem turn_progs_ret {j : ι} {a : α} (h : c.progs j = .ret a) : (c.turn ex i env).progs j = .ret a := by
  cases hi : c.progs i with
  | ret b =>
    rw [turn_of_ret hi]
    exact h
  | fail e =>
    simp only [turn, hi]
    exact h
  | call op k =>
    have hji : j ≠ i := by
      rintro rfl
      rw [h] at hi
      cases hi
    rw [turn_of_call hi]
    exact (Function.update_of_ne hji _ _).trans h

/-- **What every turn keeps between the pool and an account of it, the run keeps.** -/
theorem interleave_rel {τ : Type} {R : Pool ι Op Res ε α S → τ → Prop} (account : ι → τ → τ)
    (sched : List (ι × (S → S))) (c : Pool ι Op Res ε α S) (t : τ)
    (hturn : ∀ i env c t, (i, env) ∈ sched → R c t → R (c.turn ex i env) (account i t)) (h : R c t) :
    R (c.interleave ex sched) ((sched.map Prod.fst).foldl (fun t i => account i t) t) := by
  induction sched generalizing c t with
  | nil => exact h
  | cons x sched ih =>
    exact ih (c.turn ex x.1 x.2) (account x.1 t)
      (fun i env c t hmem => hturn i env c t (List.mem_cons_of_mem _ hmem))
      (hturn x.1 x.2 c t List.mem_cons_self h)

end Pool

end ShuzaGram.Infra

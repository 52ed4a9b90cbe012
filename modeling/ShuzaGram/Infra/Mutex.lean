import Mathlib.Logic.Function.Basic
import Mathlib.Logic.Relation
import Mathlib.Tactic.Common

/-!
# Transactions under a mutex

Threads that take and release one mutex and that open and end transactions on one connection. A thread is
the list of steps it still takes; a machine takes the next step of any thread, in any order, except that
the mutex can only be taken when nobody holds it.

* `Mutex.Exclusive` — at most one transaction is open, and its thread holds the mutex
* `Mutex.Guarded` — a thread that opens transactions only while it holds the mutex, one at a time
* `Mutex.exclusive_of_guarded` — threads that are guarded keep the connection exclusive in every state
  that can be reached
-/

namespace ShuzaGram.Infra.Mutex

inductive Step where
  | lock
  | unlock
  | open
  | commit
  | abort
deriving DecidableEq

/-- What every thread still does, who holds the mutex, and whose transactions are open. -/
structure Machine (ι : Type) where
  scripts : ι → List Step
  holder : Option ι
  opened : List ι

variable {ι : Type} [DecidableEq ι]

/-- Threads at their start. -/
def Machine.start (scripts : ι → List Step) : Machine ι := { scripts, holder := none, opened := [] }

/-- The machine after a thread has taken the first of its steps. -/
def Machine.take (m : Machine ι) (i : ι) : Step → List Step → Machine ι
  | .lock, rest => { m with scripts := Function.update m.scripts i rest, holder := some i }
  | .unlock, rest => { m with scripts := Function.update m.scripts i rest, holder := none }
  | .open, rest => { m with scripts := Function.update m.scripts i rest, opened := i :: m.opened }
  | .commit, rest => { m with scripts := Function.update m.scripts i rest, opened := m.opened.erase i }
  | .abort, rest => { m with scripts := Function.update m.scripts i rest, opened := m.opened.erase i }

/-- One step of one thread. -/
inductive Machine.Next (m : Machine ι) : Machine ι → Prop where
  | take {i : ι} {step : Step} {rest : List Step} (hscript : m.scripts i = step :: rest)
    (hfree : step = .lock → m.holder = none) : Next m (m.take i step rest)

/-- The states that an interleaving can reach. -/
def Machine.Reaches (m m' : Machine ι) : Prop := Relation.ReflTransGen Machine.Next m m'

def Machine.Exclusive (m : Machine ι) : Prop := m.opened.length ≤ 1 ∧ ∀ i ∈ m.opened, m.holder = some i

/-! ## Threads that keep to the mutex -/

/-- Where a thread is: without the mutex, with it, or in a transaction with it. -/
inductive Phase where
  | outside
  | holding
  | within
deriving DecidableEq

/-- The steps of a thread from a phase on keep to the mutex. -/
def Guarded : Phase → List Step → Prop
  | .outside, [] => True
  | .outside, .lock :: rest => Guarded .holding rest
  | .holding, .unlock :: rest => Guarded .outside rest
  | .holding, .open :: rest => Guarded .within rest
  | .within, .commit :: rest => Guarded .holding rest
  | .within, .abort :: rest => Guarded .holding rest
  | _, _ => False

/-- Every thread is guarded from its phase on; the holder is the one thread that is not outside, and the
open transactions are those of the threads within one. -/
structure Disciplined (m : Machine ι) (phase : ι → Phase) : Prop where
  guarded : ∀ i, Guarded (phase i) (m.scripts i)
  holder : ∀ i, m.holder = some i ↔ phase i ≠ .outside
  opened : ∀ i, i ∈ m.opened ↔ phase i = .within
  single : m.opened.length ≤ 1

omit [DecidableEq ι] in
theorem Disciplined.exclusive {m : Machine ι} {phase : ι → Phase} (h : Disciplined m phase) : m.Exclusive := by
  refine ⟨h.single, fun i hi => (h.holder i).mpr ?_⟩
  rw [(h.opened i).mp hi]
  exact nofun

/-- A thread that moves on leaves the steps of the others alone. -/
theorem guarded_update {m : Machine ι} {phase : ι → Phase} (h : ∀ j, Guarded (phase j) (m.scripts j)) (i : ι)
    {p : Phase} {rest : List Step} (hi : Guarded p rest) (j : ι) :
    Guarded (Function.update phase i p j) (Function.update m.scripts i rest j) := by
  by_cases hj : j = i
  · subst hj
    rw [Function.update_self, Function.update_self]
    exact hi
  · rw [Function.update_of_ne hj, Function.update_of_ne hj]
    exact h j

omit [DecidableEq ι] in
/-- Two threads are never away from the outside together. -/
theorem Disciplined.outside_of_ne {m : Machine ι} {phase : ι → Phase} (h : Disciplined m phase) {i j : ι}
    (hi : phase i ≠ .outside) (hj : j ≠ i) : phase j = .outside := by
  by_contra hne
  have hholder := (h.holder i).mpr hi
  rw [(h.holder j).mpr hne] at hholder
  exact hj (Option.some.inj hholder)

/-- A machine in which the thread `i` has come to the phase `p`: what is left to check is who holds the
mutex and which transactions are open. -/
theorem Disciplined.move {m m' : Machine ι} {phase : ι → Phase} (h : Disciplined m phase) {i : ι} {p : Phase}
    {rest : List Step} (hscripts : m'.scripts = Function.update m.scripts i rest) (hrest : Guarded p rest)
    (hothers : ∀ j, j ≠ i → phase j = .outside) (hholder : m'.holder = if p = .outside then none else some i)
    (hopened : m'.opened = if p = .within then [i] else []) : Disciplined m' (Function.update phase i p) := by
  have hphase : ∀ j, j ≠ i → Function.update phase i p j = .outside := fun j hj => by
    rw [Function.update_of_ne hj, hothers j hj]
  refine ⟨fun j => ?_, fun j => ?_, fun j => ?_, ?_⟩
  · rw [hscripts]
    exact guarded_update h.guarded i hrest j
  · rw [hholder]
    by_cases hj : j = i
    · subst hj
      rw [Function.update_self]
      split <;> simp_all
    · rw [hphase j hj]
      split <;> simp_all [eq_comm]
  · rw [hopened]
    by_cases hj : j = i
    · subst hj
      rw [Function.update_self]
      split <;> simp_all
    · rw [hphase j hj]
      split <;> simp_all
  · rw [hopened]
    split <;> simp

/-- The steps that a guarded thread can take next. -/
theorem guarded_cons {p : Phase} {step : Step} {rest : List Step} (h : Guarded p (step :: rest)) :
    (p = .outside ∧ step = .lock ∧ Guarded .holding rest) ∨
      (p = .holding ∧ step = .unlock ∧ Guarded .outside rest) ∨
      (p = .holding ∧ step = .open ∧ Guarded .within rest) ∨
      (p = .within ∧ (step = .commit ∨ step = .abort) ∧ Guarded .holding rest) := by
  cases p <;> cases step <;> simp_all [Guarded]

omit [DecidableEq ι] in
theorem Disciplined.opened_eq_nil {m : Machine ι} {phase : ι → Phase} (h : Disciplined m phase)
    (hnone : ∀ i, phase i ≠ .within) : m.opened = [] :=
  List.eq_nil_iff_forall_not_mem.mpr fun i hi => hnone i ((h.opened i).mp hi)

omit [DecidableEq ι] in
/-- While a thread only holds the mutex, no transaction is open. -/
theorem Disciplined.opened_eq_nil_of_holding {m : Machine ι} {phase : ι → Phase} (h : Disciplined m phase) {i : ι}
    (hi : phase i = .holding) : m.opened = [] := by
  refine h.opened_eq_nil fun j hj => ?_
  by_cases hji : j = i
  · rw [hji, hi] at hj
    cases hj
  · rw [h.outside_of_ne (by rw [hi]; exact nofun) hji] at hj
    cases hj

omit [DecidableEq ι] in
theorem Disciplined.opened_eq_singleton {m : Machine ι} {phase : ι → Phase} (h : Disciplined m phase) {i : ι}
    (hi : phase i = .within) : m.opened = [i] := by
  have hmem := (h.opened i).mpr hi
  have hsingle := h.single
  match hopened : m.opened, hmem, hsingle with
  | [j], hmem, _ => rw [List.mem_singleton.mp hmem]
  | _ :: _ :: _, _, hsingle => simp at hsingle

/-- The step lemma: a step of a disciplined machine leaves a disciplined one. -/
theorem Disciplined.next {m m' : Machine ι} {phase : ι → Phase} (h : Disciplined m phase) (hnext : m.Next m') :
    ∃ phase', Disciplined m' phase' := by
  cases hnext with
  | @take i step rest hscript hfree =>
    have hi := h.guarded i
    rw [hscript] at hi
    rcases guarded_cons hi with ⟨hp, rfl, hrest⟩ | ⟨hp, rfl, hrest⟩ | ⟨hp, rfl, hrest⟩ | ⟨hp, hstep, hrest⟩
    · have hall : ∀ j, phase j = .outside := by
        intro j
        by_contra hne
        have hholder := (h.holder j).mpr hne
        rw [hfree rfl] at hholder
        cases hholder
      have hopened := h.opened_eq_nil fun j => by rw [hall j]; exact nofun
      exact ⟨_, h.move rfl hrest (fun j _ => hall j) rfl hopened⟩
    · have hothers := fun j hj => h.outside_of_ne (i := i) (j := j) (by rw [hp]; exact nofun) hj
      exact ⟨_, h.move rfl hrest hothers rfl (h.opened_eq_nil_of_holding hp)⟩
    · have hothers := fun j hj => h.outside_of_ne (i := i) (j := j) (by rw [hp]; exact nofun) hj
      have hholder : m.holder = some i := (h.holder i).mpr (by rw [hp]; exact nofun)
      exact ⟨_, h.move rfl hrest hothers hholder (by simp [Machine.take, h.opened_eq_nil_of_holding hp])⟩
    · have hothers := fun j hj => h.outside_of_ne (i := i) (j := j) (by rw [hp]; exact nofun) hj
      have hholder : m.holder = some i := (h.holder i).mpr (by rw [hp]; exact nofun)
      have hopened := h.opened_eq_singleton hp
      rcases hstep with rfl | rfl
      · exact ⟨_, h.move rfl hrest hothers hholder (by simp [Machine.take, hopened])⟩
      · exact ⟨_, h.move rfl hrest hothers hholder (by simp [Machine.take, hopened])⟩

/-- The run lemma. -/
theorem Disciplined.reaches {m m' : Machine ι} {phase : ι → Phase} (h : Disciplined m phase) (hrun : m.Reaches m') :
    ∃ phase', Disciplined m' phase' := by
  induction hrun with
  | refl => exact ⟨phase, h⟩
  | tail _ hstep ih =>
    obtain ⟨phase', h'⟩ := ih
    exact h'.next hstep

/-- **Threads that keep to the mutex keep the connection exclusive**, in every state that an interleaving
of any number of them can reach. -/
theorem exclusive_of_guarded {scripts : ι → List Step} (h : ∀ i, Guarded .outside (scripts i)) {m : Machine ι}
    (hrun : (Machine.start scripts).Reaches m) : m.Exclusive := by
  have hstart : Disciplined (Machine.start scripts) fun _ => .outside := by
    refine ⟨h, fun i => ?_, fun i => ?_, Nat.zero_le _⟩
    · exact ⟨nofun, fun hne => absurd rfl hne⟩
    · exact ⟨nofun, nofun⟩
  obtain ⟨_, hm⟩ := hstart.reaches hrun
  exact hm.exclusive

end ShuzaGram.Infra.Mutex

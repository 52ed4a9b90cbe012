import Mathlib.Data.DFinsupp.WellFounded
import Mathlib.Data.List.Dedup
import Mathlib.SetTheory.Cardinal.Order
import ShuzaGram.Infra.LockOrder

/-!
# Runs that end

A transaction is a finite program and is tried a limited number of times. So finitely many sessions make finitely many
steps; where they take their locks in order, and a statement always has an answer, they stop only when all are over.

* `no_infinite_run` — no interleaving goes on forever
* `exists_canGo` — as long as a session is not over, one can go on without being refused
-/

namespace ShuzaGram.Infra.Transactions

variable {Db W L Op C ε M : Type} {Res : Op → Type} {ι : Type}

/-! ## Stages -/

/-- Where a session is, without what it has seen. -/
inductive Stage (Op C : Type) (Res : Op → Type) (ε : Type) where
  | resting
  | running (rest : Tx Op C Res ε Unit)
  | looking (op : Op) (k : Except ε (Res op) → Tx Op C Res ε Unit)
  | ended

def Phase.stage : Phase Db W Op C Res ε → Stage Op C Res ε
  | .resting => .resting
  | .running rest => .running rest
  | .looking op k _ _ => .looking op k
  | .ended _ => .ended

/-- The first stage is closer to the end of an attempt than the second. -/
inductive Stage.Closer : Stage Op C Res ε → Stage Op C Res ε → Prop where
  | ended {s} (h : s ≠ .ended) : Closer .ended s
  | resting {p} : Closer .resting (.running p)
  | refused {a e} : Closer (.running (.fail e)) (.running (.ret a))
  | answered {op k r} : Closer (.running (k r)) (.looking op k)
  | looking {op k} : Closer (.looking op k) (.running (.call (.sql op) k))
  | assigned {c k} : Closer (.running (k (.ok ()))) (.running (.call (.assign c) k))

theorem acc_ended : Acc Stage.Closer (.ended : Stage Op C Res ε) := by
  refine ⟨_, fun s h => ?_⟩
  cases h with
  | ended h => exact absurd rfl h

theorem acc_resting : Acc Stage.Closer (.resting : Stage Op C Res ε) := by
  refine ⟨_, fun s h => ?_⟩
  cases h with
  | ended => exact acc_ended

theorem acc_fail (e : ε) : Acc Stage.Closer (.running (.fail e) : Stage Op C Res ε) := by
  refine ⟨_, fun s h => ?_⟩
  cases h with
  | ended => exact acc_ended
  | resting => exact acc_resting

/-- An attempt ends: by induction on what is left of its transaction. -/
theorem acc_running : ∀ p : Tx Op C Res ε Unit, Acc Stage.Closer (.running p)
  | .ret a => by
    refine ⟨_, fun s h => ?_⟩
    cases h with
    | ended => exact acc_ended
    | resting => exact acc_resting
    | refused => exact acc_fail _
  | .fail e => acc_fail e
  | .call (.sql op) k => by
    have hlooking : Acc Stage.Closer (.looking op k : Stage Op C Res ε) := by
      refine ⟨_, fun s h => ?_⟩
      cases h with
      | ended => exact acc_ended
      | answered => exact acc_running _
    refine ⟨_, fun s h => ?_⟩
    cases h with
    | ended => exact acc_ended
    | resting => exact acc_resting
    | looking => exact hlooking
  | .call (.assign c) k => by
    refine ⟨_, fun s h => ?_⟩
    cases h with
    | ended => exact acc_ended
    | resting => exact acc_resting
    | assigned => exact acc_running _

theorem wellFounded_closer : WellFounded (Stage.Closer : Stage Op C Res ε → Stage Op C Res ε → Prop) := by
  refine ⟨fun s => ?_⟩
  cases s with
  | resting => exact acc_resting
  | running p => exact acc_running p
  | looking op k => exact (acc_running (.call (.sql op) k)).inv .looking
  | ended => exact acc_ended

/-! ## Steps -/

/-- How often a session may still begin. -/
def Session.left (attempts : Nat) (s : Session Db W L Op C Res ε) : Nat :=
  match s.phase with
  | .resting => attempts - s.attempt
  | .ended _ => 0
  | _ => attempts - (s.attempt + 1)

/-- What is left of a session. -/
def Session.remaining (attempts : Nat) (s : Session Db W L Op C Res ε) : Nat × Stage Op C Res ε :=
  (s.left attempts, s.phase.stage)

/-- Less is left. -/
def Less : Nat × Stage Op C Res ε → Nat × Stage Op C Res ε → Prop := Prod.Lex (· < ·) Stage.Closer

theorem wellFounded_less : WellFounded (Less : Nat × Stage Op C Res ε → Nat × Stage Op C Res ε → Prop) :=
  WellFounded.prod_lex Nat.lt_wfRel.wf wellFounded_closer

theorem Session.remaining_observe (attempts : Nat) (ws : List W) (s : Session Db W L Op C Res ε) :
    (s.observe ws).remaining attempts = s.remaining attempts := by
  rcases s with ⟨phase, attempt, captured, writes, held⟩
  cases phase <;> rfl

variable [DecidableEq ι] {S : System ι Db W L Op C Res ε M} {w w' : World ι Db W L Op C Res ε}

/-- One session comes closer to its end, and the others stay where they are. -/
def Progresses (attempts : Nat) (w w' : World ι Db W L Op C Res ε) : Prop :=
  ∃ i, Less ((w'.sessions i).remaining attempts) ((w.sessions i).remaining attempts) ∧
    ∀ j ≠ i, (w'.sessions j).remaining attempts = (w.sessions j).remaining attempts

theorem progresses_set {attempts : Nat} {i : ι} {s : Session Db W L Op C Res ε}
    (h : Less (s.remaining attempts) ((w.sessions i).remaining attempts)) : Progresses attempts w (w.set i s) := by
  refine ⟨i, ?_, fun j hj => ?_⟩
  · simp only [World.set, Function.update_self]
    exact h
  · simp only [World.set, Function.update_of_ne hj]

/-- A session that is over has less left than one that is not. -/
theorem less_of_ended {attempts : Nat} {s s' : Session Db W L Op C Res ε} {outcome : Except ε C}
    (hs : s'.phase = .ended outcome) (hopen : ∀ outcome', s.phase ≠ .ended outcome') :
    Less (s'.remaining attempts) (s.remaining attempts) := by
  have hzero : s'.left attempts = 0 := by
    unfold Session.left
    rw [hs]
  have hcloser : s'.phase.stage.Closer s.phase.stage := by
    rw [hs]
    refine .ended fun hended => ?_
    cases hphase : s.phase with
    | ended outcome' => exact hopen outcome' hphase
    | _ => rw [hphase] at hended; cases hended
  unfold Session.remaining
  rw [hzero]
  rcases Nat.eq_zero_or_pos (s.left attempts) with hleft | hleft
  · rw [hleft]
    exact Prod.Lex.right _ hcloser
  · exact Prod.Lex.left _ _ hleft

/-- The step lemma: every step is one of a session towards its end. -/
theorem progresses_of_next (hnext : S.Next w w') : Progresses S.attempts w w' := by
  -- within an attempt, the stage is what changes
  have hstage : ∀ {i : ι} {s : Session Db W L Op C Res ε},
      s.left S.attempts = (w.sessions i).left S.attempts → s.phase.stage.Closer (w.sessions i).phase.stage →
      Progresses S.attempts w (w.set i s) := by
    intro i s hleft hcloser
    refine progresses_set ?_
    unfold Session.remaining
    rw [hleft]
    exact Prod.Lex.right _ hcloser
  cases hnext with
  | @begin i m hphase hleft =>
    refine progresses_set (Prod.Lex.left _ _ ?_)
    unfold Session.left Session.leave
    rw [hphase]
    simp only
    omega
  | @giveUp i hphase hleft =>
    exact progresses_set (less_of_ended rfl fun outcome h => by rw [hphase] at h; cases h)
  | @look i op k hphase =>
    refine hstage ?_ ?_
    · unfold Session.left
      rw [hphase]
    · rw [hphase]
      exact .looking
  | @finish i op k snapshot since r ws ls hphase hstmt hfree =>
    refine hstage ?_ ?_
    · unfold Session.left
      rw [hphase]
    · rw [hphase]
      exact .answered
  | @fault i op k snapshot since e hphase =>
    refine hstage ?_ ?_
    · unfold Session.left
      rw [hphase]
    · rw [hphase]
      exact .answered
  | @assign i c k hphase =>
    refine hstage ?_ ?_
    · unfold Session.left
      rw [hphase]
    · rw [hphase]
      exact .assigned
  | @commit i hphase =>
    refine ⟨i, ?_, fun j hj => ?_⟩
    · simp only [System.commit, if_pos]
      exact less_of_ended rfl fun outcome h => by rw [hphase] at h; cases h
    · simp only [System.commit, if_neg hj, Session.remaining_observe]
  | @refuse i e hphase =>
    refine hstage ?_ ?_
    · unfold Session.left
      rw [hphase]
    · rw [hphase]
      exact .refused
  | @retry i e hphase hagain =>
    refine hstage ?_ ?_
    · unfold Session.left Session.leave
      rw [hphase]
    · rw [hphase]
      exact .resting
  | @fail i e hphase hagain =>
    exact progresses_set (less_of_ended rfl fun outcome h => by rw [hphase] at h; cases h)

/-- **No interleaving of finitely many sessions goes on forever.** -/
theorem no_infinite_run [Finite ι] (run : Nat → World ι Db W L Op C Res ε) : ¬∀ n, S.Next (run n) (run (n + 1)) := by
  intro hrun
  have hwf := Pi.Lex.wellFounded (WellOrderingRel : ι → ι → Prop)
    (s := fun {_} => (Less : Nat × Stage Op C Res ε → Nat × Stage Op C Res ε → Prop)) fun _ => wellFounded_less
  refine (wellFounded_iff_isEmpty_descending_chain.mp hwf).false
    ⟨fun n i => ((run n).sessions i).remaining S.attempts, fun n => ?_⟩
  obtain ⟨i, hless, hothers⟩ := progresses_of_next (hrun n)
  exact ⟨i, fun j hj => hothers j fun heq => irrefl (r := WellOrderingRel) i (heq ▸ hj), hless⟩

/-! ## Answers -/

/-- A statement is always answered, whatever its transaction has written and others have committed. -/
def Engine.Answers (E : Engine Db W L Op Res) : Prop :=
  ∀ op own snapshot since, ∃ r ws ls,
    E.stmt op (E.writeAll own snapshot) since (E.writeAll own (E.writeAll since snapshot)) r ws ls

/-- A locking statement finds its rows, however many others have touched since. -/
theorem exists_finds {κ ρ : Type} (p : κ → ρ → Prop) {seen now : κ → Option ρ} {touched : κ → Prop} {keys : List κ}
    (hkeys : ∀ k r, seen k = some r → k ∈ keys) (hsame : ∀ k, ¬touched k → now k = seen k) :
    ∃ found, Finds p seen now touched found := by
  classical
  let found := keys.dedup.filter fun k => ∃ r, seen k = some r ∧ p k r ∧ ¬touched k
  have hmem : ∀ k, k ∈ found ↔ ∃ r, seen k = some r ∧ p k r ∧ ¬touched k := by
    intro k
    rw [List.mem_filter, List.mem_dedup, decide_eq_true_eq]
    exact ⟨And.right, fun h => ⟨h.elim fun r hr => hkeys k r hr.1, h⟩⟩
  refine ⟨found, (List.nodup_dedup keys).filter _, fun k hk => ?_, fun k hk => ?_, fun k r hr hp htouched => ?_⟩
  · obtain ⟨r, hr, hp, -⟩ := (hmem k).mp hk
    exact ⟨r, hr, hp⟩
  · obtain ⟨r, hr, hp, htouched⟩ := (hmem k).mp hk
    exact ⟨r, (hsame k htouched).trans hr, hp⟩
  · exact (hmem k).mpr ⟨r, hr, hp, htouched⟩

theorem Finds.perm {κ ρ : Type} {p : κ → ρ → Prop} {seen now : κ → Option ρ} {touched : κ → Prop}
    {keys keys' : List κ} (h : Finds p seen now touched keys) (hperm : keys'.Perm keys) :
    Finds p seen now touched keys' where
  nodup := hperm.nodup_iff.mpr h.nodup
  picked k hk := h.picked k (hperm.mem_iff.mp hk)
  current k hk := h.current k (hperm.mem_iff.mp hk)
  untouched k r hr hp htouched := hperm.mem_iff.mpr (h.untouched k r hr hp htouched)

/-- A statement in progress knows all that was committed since its snapshot. -/
def World.Current (E : Engine Db W L Op Res) (w : World ι Db W L Op C Res ε) : Prop :=
  ∀ i op k snapshot since, (w.sessions i).phase = .looking op k snapshot since →
    w.committed = E.writeAll since snapshot

theorem World.Current.set {E : Engine Db W L Op Res} (h : w.Current E) {i : ι} {s : Session Db W L Op C Res ε}
    (hs : ∀ op k snapshot since, s.phase = .looking op k snapshot since → w.committed = E.writeAll since snapshot) :
    (w.set i s).Current E := by
  intro j op k snapshot since hphase
  by_cases hj : j = i
  · subst hj
    simp only [World.set, Function.update_self] at hphase
    exact hs op k snapshot since hphase
  · simp only [World.set, Function.update_of_ne hj] at hphase
    exact h j op k snapshot since hphase

theorem World.Current.next (h : w.Current S.engine) (hnext : S.Next w w') : w'.Current S.engine := by
  cases hnext with
  | begin _ _ | giveUp _ _ | finish _ _ _ | fault _ | assign _ | refuse _ | retry _ _ | fail _ _ =>
    exact h.set fun _ _ _ _ hphase => by cases hphase
  | look _ =>
    refine h.set fun _ _ _ _ hphase => ?_
    cases hphase
    rfl
  | @commit i _ =>
    intro j op k snapshot since hphase
    simp only [System.commit] at hphase ⊢
    by_cases hj : j = i
    · rw [if_pos hj] at hphase
      cases hphase
    · rw [if_neg hj] at hphase
      unfold Session.observe at hphase
      split at hphase
      · next hlooking =>
        cases hphase
        rw [Engine.writeAll_append, ← h j _ _ _ _ hlooking]
      · next hnot => exact absurd hphase (hnot _ _ _ _)

theorem current_of_reaches {db : Db} {c : C} (hreach : S.Reaches (World.start db c) w) : w.Current S.engine := by
  induction hreach with
  | refl => exact fun _ _ _ _ _ hphase => by cases hphase
  | tail _ hnext ih => exact ih.next hnext

variable {R : Type} [Preorder R] {O : LockOrder L R}

/-- The session is not over, and goes on without being refused: it is between two statements, or its statement has an
answer and nobody holds what that locks. -/
def System.CanGo (S : System ι Db W L Op C Res ε M) (w : World ι Db W L Op C Res ε) (i : ι) : Prop :=
  ¬w.Over i ∧ ∀ op k snapshot since, (w.sessions i).phase = .looking op k snapshot since →
    ∃ r ws ls, S.engine.stmt op (S.engine.writeAll (w.sessions i).writes snapshot) since
        (S.engine.writeAll (w.sessions i).writes w.committed) r ws ls ∧
      ∀ l ∈ ls, ∀ j ≠ i, l ∉ (w.sessions j).held

/-- **As long as a session is not over, one can go on.** -/
theorem exists_canGo [Finite ι] (hbody : ∀ i m, Ordered S.engine O (fun _ _ => True) (S.body i m) [])
    (hanswers : S.engine.Answers) {db : Db} {c : C} (hreach : S.Reaches (World.start db c) w) (hopen : ∃ i, ¬w.Over i) :
    ∃ i, S.CanGo w i := by
  obtain ⟨i, hi, hfree⟩ := exists_unhindered hbody hreach hopen
  refine ⟨i, hi, fun op k snapshot since hphase => ?_⟩
  obtain ⟨r, ws, ls, hstmt⟩ := hanswers op (w.sessions i).writes snapshot since
  rw [← current_of_reaches hreach i op k snapshot since hphase] at hstmt
  exact ⟨r, ws, ls, hstmt, fun l hl j hj hheld => hfree j ⟨hj, op, k, snapshot, since, r, ws, ls, hphase, hstmt, l, hl, hheld⟩⟩

end ShuzaGram.Infra.Transactions

import Mathlib.Data.Bool.Basic
import Mathlib.Data.List.Induction
import Mathlib.Data.List.Infix
import Mathlib.Logic.Function.Basic
import Mathlib.Tactic.Common

/-!
# Two parties that read, change and write a cell

Each party has `lead` turns in which it does not touch the cell, then reads it, then writes back what
it makes of the value it read. It does not write where it would change nothing. Whether the change of a
party is lost depends on the order of the turns only: it can be, exactly where both have read before
either writes.

* `Race.turn` — one turn
* `Together` — at some point of the schedule both have read and neither has written
* `Race.Account` — what the cell and the values read are, whatever the order of the turns
* `Race.cell_eq_iff` — when the cell ends with the changes of both
-/

namespace ShuzaGram.Infra

structure Race (σ : Type) where
  cell : σ
  turns : Bool → Nat
  seen : Bool → σ

namespace Race

variable {σ : Type} [DecidableEq σ]

/-- Nobody has had a turn. -/
def start (x : σ) : Race σ := { cell := x, turns := fun _ => 0, seen := fun _ => x }

/-- The turn of `i`. -/
def turn (lead : Nat) (change : Bool → σ → σ) (i : Bool) (c : Race σ) : Race σ where
  cell :=
    if c.turns i = lead + 1 ∧ change i (c.seen i) ≠ c.seen i then change i (c.seen i) else c.cell
  turns := Function.update c.turns i (c.turns i + 1)
  seen := if c.turns i = lead then Function.update c.seen i c.cell else c.seen

def run (lead : Nat) (change : Bool → σ → σ) (sched : List Bool) (c : Race σ) : Race σ :=
  sched.foldl (fun c i => c.turn lead change i) c

/-- Party `i` has written, or has read and has nothing to write. -/
def Finished (lead : Nat) (change : Bool → σ → σ) (c : Race σ) (i : Bool) : Prop :=
  lead + 2 ≤ c.turns i ∨ c.turns i = lead + 1 ∧ change i (c.seen i) = c.seen i

end Race

/-- At some point of the schedule both have read and neither has written. -/
def Together (lead : Nat) (sched : List Bool) : Prop :=
  ∃ pre, pre <+: sched ∧ ∀ i, pre.count i = lead + 1

instance (lead : Nat) (sched : List Bool) : Decidable (Together lead sched) :=
  decidable_of_iff (∃ pre ∈ sched.inits, ∀ i, pre.count i = lead + 1) (by simp [Together])

namespace Race

variable {σ : Type} [DecidableEq σ] {lead : Nat} {change : Bool → σ → σ} {x : σ}

theorem run_concat (sched : List Bool) (i : Bool) (c : Race σ) :
    c.run lead change (sched ++ [i]) = (c.run lead change sched).turn lead change i := by
  simp [run]

theorem turns_run (sched : List Bool) (i : Bool) :
    ((start x).run lead change sched).turns i = sched.count i := by
  induction sched using List.reverseRecOn with
  | nil => rfl
  | append_singleton sched j ih =>
    rw [run_concat, List.count_append, List.count_singleton, ← ih]
    simp only [turn, Function.update_apply]
    by_cases hij : i = j
    · simp [hij]
    · simp [hij, Ne.symm hij]

end Race

theorem together_concat {lead : Nat} {sched : List Bool} {i : Bool} :
    Together lead (sched ++ [i]) ↔ Together lead sched ∨ ∀ j, (sched ++ [i]).count j = lead + 1 := by
  constructor
  · rintro ⟨pre, hpre, hcount⟩
    rcases List.prefix_concat_iff.mp hpre with rfl | hpre
    · exact .inr hcount
    · exact .inl ⟨pre, hpre, hcount⟩
  · rintro (⟨pre, hpre, hcount⟩ | hcount)
    · exact ⟨pre, hpre.trans (List.prefix_append _ _), hcount⟩
    · exact ⟨_, List.prefix_rfl, hcount⟩

namespace Race

variable {σ : Type} [DecidableEq σ] {lead : Nat} {change : Bool → σ → σ} {x : σ}

/-! ## One turn -/

theorem turns_turn (lead : Nat) (change : Bool → σ → σ) (c : Race σ) (i : Bool) :
    (c.turn lead change i).turns i = c.turns i + 1 ∧ (c.turn lead change i).turns (!i) = c.turns (!i) := by
  simp [turn]

theorem seen_turn_not (lead : Nat) (change : Bool → σ → σ) (c : Race σ) (i : Bool) :
    (c.turn lead change i).seen (!i) = c.seen (!i) := by
  simp only [turn]
  split <;> simp

/-- Before and after its read and its write a turn changes nothing. -/
theorem turn_elsewhere {c : Race σ} {i : Bool} (hread : c.turns i ≠ lead) (hwrite : c.turns i ≠ lead + 1) :
    (c.turn lead change i).cell = c.cell ∧ (c.turn lead change i).seen = c.seen := by
  simp [turn, hread, hwrite]

theorem turn_read {c : Race σ} {i : Bool} (h : c.turns i = lead) :
    (c.turn lead change i).cell = c.cell ∧ (c.turn lead change i).seen i = c.cell ∧
      (c.turn lead change i).seen (!i) = c.seen (!i) := by
  simp [turn, h]

theorem turn_write {c : Race σ} {i : Bool} (h : c.turns i = lead + 1) :
    (c.turn lead change i).seen = c.seen ∧
      (c.turn lead change i).cell =
        if change i (c.seen i) = c.seen i then c.cell else change i (c.seen i) := by
  simp only [turn, h, true_and, ne_eq, ite_not]
  simp

/-! ## The account of a run -/

/-- What the cell and the values read are after some turns that began at the value `x`; `together` says
whether both had read before either wrote. -/
structure Account (lead : Nat) (change : Bool → σ → σ) (x : σ) (together : Prop) (c : Race σ) : Prop where
  met : (∀ i, c.turns i = lead + 1) → together
  reached : together → ∀ i, lead + 1 ≤ c.turns i
  /-- Nobody has written. -/
  unwritten : (∀ i, c.turns i ≤ lead + 1) → c.cell = x ∧ ∀ i, c.turns i = lead + 1 → c.seen i = x
  /-- `i` has written and the other has not read. -/
  first : ∀ i, lead + 2 ≤ c.turns i → c.turns (!i) ≤ lead → c.cell = change i x
  /-- `i` has written and the other has read. -/
  second : ∀ i, lead + 2 ≤ c.turns i → c.turns (!i) = lead + 1 →
    c.cell = change i x ∧ (together → c.seen (!i) = x) ∧ (¬ together → c.seen (!i) = change i x)
  /-- Both have written. -/
  both : (∀ i, lead + 2 ≤ c.turns i) →
    (together → ∃ i, c.cell = if change i x = x then change (!i) x else change i x) ∧
      (¬ together → ∃ i, c.cell = change i (change (!i) x))

theorem account_start : Account lead change x (Together lead []) (start x) where
  met h := absurd (h true) (by simp [start])
  reached := by
    rintro ⟨pre, hpre, hcount⟩
    have hlength := hcount true
    rw [List.prefix_nil.mp hpre] at hlength
    simp at hlength
  unwritten _ := ⟨rfl, fun _ _ => rfl⟩
  first _ h := by simp [start] at h
  second _ h := by simp [start] at h
  both h := absurd (h true) (by simp [start])

/-- Both parties, the one whose turn it is first. -/
theorem forall_side {p : Bool → Prop} (i : Bool) : (∀ j, p j) ↔ p i ∧ p (!i) := by
  cases i <;> simp [and_comm]

section Turn

variable {together together' : Prop} {c : Race σ} {i : Bool}
  (h : Account lead change x together c)
  (ht : together' ↔ together ∨ ∀ j, (c.turn lead change i).turns j = lead + 1)
include h ht

/-- A turn that neither reads nor writes. -/
theorem Account.turn_elsewhere (hread : c.turns i ≠ lead) (hwrite : c.turns i ≠ lead + 1) :
    Account lead change x together' (c.turn lead change i) := by
  obtain ⟨hself, hother⟩ := turns_turn lead change c i
  have hkept : (c.turn lead change i).cell = c.cell ∧ (c.turn lead change i).seen = c.seen :=
    Race.turn_elsewhere hread hwrite
  have hsame : together' ↔ together := by
    rw [ht, forall_side i, hself]
    exact or_iff_left fun hmet => hread (by omega)
  constructor <;> simp only [forall_side i, Bool.not_not, hself, hother, hsame, hkept.1, hkept.2]
  · exact fun hmet => absurd hmet.1 (by omega)
  · exact fun hmet => ⟨Nat.le_succ_of_le (h.reached hmet i), h.reached hmet (!i)⟩
  · rintro ⟨hi, hj⟩
    obtain ⟨hcell, hseen⟩ := h.unwritten ((forall_side i).mpr ⟨by omega, hj⟩)
    exact ⟨hcell, fun heq => absurd heq (by omega), hseen (!i)⟩
  · have hj := h.first (!i)
    rw [Bool.not_not] at hj
    exact ⟨fun hi hle => h.first i (by omega) hle, fun hle hi => hj hle (by omega)⟩
  · exact ⟨fun hi heq => h.second i (by omega) heq, fun _ heq => absurd heq (by omega)⟩
  · rintro ⟨hi, hj⟩
    exact h.both ((forall_side i).mpr ⟨by omega, hj⟩)

theorem Account.turn_read (hread : c.turns i = lead) :
    Account lead change x together' (c.turn lead change i) := by
  obtain ⟨hself, hother⟩ := turns_turn lead change c i
  obtain ⟨hcell, hseen, hseen'⟩ :
      (c.turn lead change i).cell = c.cell ∧ (c.turn lead change i).seen i = c.cell ∧
        (c.turn lead change i).seen (!i) = c.seen (!i) := Race.turn_read hread
  have hmet : together' ↔ c.turns (!i) = lead + 1 := by
    rw [ht, forall_side i, hself, hother]
    constructor
    · rintro (htogether | hmet)
      · exact absurd (h.reached htogether i) (by omega)
      · exact hmet.2
    · exact fun heq => .inr ⟨by omega, heq⟩
  constructor <;> simp only [forall_side i, Bool.not_not, hself, hother, hmet, hcell, hseen, hseen']
  · exact fun heq => heq.2
  · exact fun heq => ⟨by omega, by omega⟩
  · rintro ⟨-, hj⟩
    obtain ⟨hx, hseen⟩ := h.unwritten ((forall_side i).mpr ⟨by omega, hj⟩)
    exact ⟨hx, fun _ => hx, hseen (!i)⟩
  · exact ⟨fun hi => absurd hi (by omega), fun _ hle => absurd hle (by omega)⟩
  · have hj := h.first (!i)
    rw [Bool.not_not] at hj
    refine ⟨fun hi => absurd hi (by omega), fun hle _ => ?_⟩
    exact ⟨hj hle (by omega), fun heq => absurd heq (by omega), fun _ => hj hle (by omega)⟩
  · exact fun hle => absurd hle.1 (by omega)

theorem Account.turn_write (hwrite : c.turns i = lead + 1) :
    Account lead change x together' (c.turn lead change i) := by
  obtain ⟨hself, hother⟩ := turns_turn lead change c i
  obtain ⟨hseen, hcell⟩ :
      (c.turn lead change i).seen = c.seen ∧ (c.turn lead change i).cell =
        if change i (c.seen i) = c.seen i then c.cell else change i (c.seen i) := Race.turn_write hwrite
  have hsame : together' ↔ together := by
    rw [ht, forall_side i, hself]
    exact or_iff_left fun hmet => absurd hmet.1 (by omega)
  -- Where the other one has not written yet, what was read is still the first value.
  have hfresh : c.turns (!i) ≤ lead + 1 → (c.turn lead change i).cell = change i x := by
    intro hj
    obtain ⟨hx, hseenx⟩ := h.unwritten ((forall_side i).mpr ⟨by omega, hj⟩)
    rw [hcell, hseenx i hwrite, hx]
    split
    · next heq => exact heq.symm
    · rfl
  constructor <;> simp only [forall_side i, Bool.not_not, hself, hother, hsame, hseen]
  · exact fun hmet => absurd hmet.1 (by omega)
  · exact fun hmet => ⟨Nat.le_succ_of_le (h.reached hmet i), h.reached hmet (!i)⟩
  · exact fun hle => absurd hle.1 (by omega)
  · exact ⟨fun _ hle => hfresh (by omega), fun _ hle => absurd hle (by omega)⟩
  · refine ⟨fun _ heq => ⟨hfresh (by omega), fun _ => ?_, fun hnot => ?_⟩, fun _ heq => absurd heq (by omega)⟩
    · exact (h.unwritten ((forall_side i).mpr ⟨by omega, by omega⟩)).2 (!i) heq
    · exact absurd (h.met ((forall_side i).mpr ⟨hwrite, heq⟩)) hnot
  · rintro ⟨-, hj⟩
    have hsecond := h.second (!i) hj (by rw [Bool.not_not]; exact hwrite)
    rw [Bool.not_not] at hsecond
    obtain ⟨hother, hold, hnew⟩ := hsecond
    refine ⟨fun htogether => ⟨i, ?_⟩, fun hnot => ⟨i, ?_⟩⟩
    · rw [hcell, hold htogether, hother]
    · rw [hcell, hnew hnot, hother]
      split
      · next heq => exact heq.symm
      · rfl

theorem Account.turn : Account lead change x together' (c.turn lead change i) := by
  by_cases hread : c.turns i = lead
  · exact h.turn_read ht hread
  · by_cases hwrite : c.turns i = lead + 1
    · exact h.turn_write ht hwrite
    · exact h.turn_elsewhere ht hread hwrite

end Turn

/-- **The account holds after every schedule.** -/
theorem account_run (sched : List Bool) :
    Account lead change x (Together lead sched) ((start x).run lead change sched) := by
  induction sched using List.reverseRecOn with
  | nil => exact account_start
  | append_singleton sched i ih =>
    rw [run_concat]
    refine ih.turn ?_
    rw [together_concat, ← run_concat]
    simp only [turns_run]

/-! ## Whose change is lost -/

/-- What the cell holds in the end: the change of one party to `x` where both had read `x`, else the
change of one party to what the other made of `x`. -/
theorem Account.cell_of_finished {together : Prop} {c : Race σ} (h : Account lead change x together c)
    (hend : ∀ i, c.Finished lead change i) :
    (together → ∃ i, c.cell = if change i x = x then change (!i) x else change i x) ∧
      (¬ together → ∃ i, c.cell = change i (change (!i) x)) := by
  by_cases hwritten : ∀ i, lead + 2 ≤ c.turns i
  · exact h.both hwritten
  · -- party `j` has read and had nothing to write
    obtain ⟨j, hj⟩ := not_forall.mp hwritten
    obtain ⟨hread, hidle⟩ := (hend j).resolve_left hj
    rcases hend (!j) with hother | ⟨hother, hidle'⟩
    · have hsecond := h.second (!j) hother (by rw [Bool.not_not]; exact hread)
      rw [Bool.not_not] at hsecond
      obtain ⟨hcell, hold, hnew⟩ := hsecond
      refine ⟨fun htogether => ⟨j, ?_⟩, fun hnot => ⟨j, ?_⟩⟩
      · rw [hold htogether] at hidle
        rw [if_pos hidle, hcell]
      · rw [hnew hnot] at hidle
        rw [hidle, hcell]
    · have hmet : ∀ i, c.turns i = lead + 1 := (forall_side j).mpr ⟨hread, hother⟩
      obtain ⟨hcell, hseen⟩ := h.unwritten fun i => (hmet i).le
      rw [hseen _ hread] at hidle
      rw [hseen _ hother] at hidle'
      exact ⟨fun _ => ⟨j, by rw [if_pos hidle, hidle', hcell]⟩, fun hnot => absurd (h.met hmet) hnot⟩

/-- **The changes of both are in the cell in the end, exactly where one of them changes nothing or they
have not both read before either writes.** The changes are of separate parts of the value: they commute,
and neither hides the other. -/
theorem cell_eq_iff {goal : σ} (hgoal : ∀ i, change i (change (!i) x) = goal)
    (hseparate : ∀ i, change i x = goal → change (!i) x = x) {sched : List Bool}
    (hend : ∀ i, ((start x).run lead change sched).Finished lead change i) :
    ((start x).run lead change sched).cell = goal ↔
      ¬ Together lead sched ∨ ∃ i, change i x = x := by
  obtain ⟨hold, hnew⟩ := (account_run sched).cell_of_finished hend
  by_cases htogether : Together lead sched
  · obtain ⟨i, hi⟩ := hold htogether
    rw [hi]
    split
    · next hidle =>
      -- `i` changes nothing, so the change of the other is the change of both
      have hother := hgoal (!i)
      rw [Bool.not_not, hidle] at hother
      exact iff_of_true hother (.inr ⟨i, hidle⟩)
    · next hwrites =>
      constructor
      · exact fun heq => .inr ⟨!i, hseparate i heq⟩
      · rintro (hnot | ⟨j, hj⟩)
        · exact absurd htogether hnot
        · -- only the other party can change nothing
          have hji : j = !i := by
            rcases Bool.eq_or_eq_not j i with rfl | hne
            · exact absurd hj hwrites
            · exact hne
          have hboth := hgoal i
          rw [← hji, hj] at hboth
          exact hboth
  · obtain ⟨i, hi⟩ := hnew htogether
    exact iff_of_true (hi.trans (hgoal i)) (.inl htogether)

end Race

end ShuzaGram.Infra

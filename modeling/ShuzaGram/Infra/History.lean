import Mathlib.Data.List.Basic

/-!
# Histories

A run as the list of what happened, the latest last. Two ways to speak about it, with the rule by
which each is carried from a history to the next one.

* `Always Q` — at every position, `Q` holds of what happened there and of the history before it
* `Since A B` — `A` happened, and everything after it satisfies `B`
* `along step Q` — before every step of a run from a state, `Q` holds of the state and the step
-/

namespace ShuzaGram.Infra

variable {α : Type}

/-- `Q` holds at every position of the history, of the history before it and of what happened. -/
def Always (Q : List α → α → Prop) (l : List α) : Prop :=
  ∀ pre a post, l = pre ++ a :: post → Q pre a

theorem always_nil (Q : List α → α → Prop) : Always Q [] := by
  intro pre a post h
  cases pre <;> cases h

theorem Always.snoc {Q : List α → α → Prop} {l : List α} {a : α} (h : Always Q l) (ha : Q l a) :
    Always Q (l ++ [a]) := by
  intro pre b post heq
  rcases List.eq_nil_or_concat post with rfl | ⟨post', c, rfl⟩
  · obtain ⟨rfl, hb⟩ := List.append_inj' heq rfl
    cases hb
    exact ha
  · have heq' : l ++ [a] = (pre ++ b :: post') ++ [c] := by simpa using heq
    exact h pre b post' (List.append_inj' heq' rfl).1

/-- `A` happened, and `B` holds of everything that happened after it. -/
def Since (A B : α → Prop) (l : List α) : Prop :=
  ∃ pre a post, l = pre ++ a :: post ∧ A a ∧ ∀ b ∈ post, B b

theorem Since.snoc {A B : α → Prop} {l : List α} {b : α} (h : Since A B l) (hb : B b) :
    Since A B (l ++ [b]) := by
  obtain ⟨pre, a, post, rfl, ha, hpost⟩ := h
  refine ⟨pre, a, post ++ [b], by simp, ha, fun c hc => ?_⟩
  rcases List.mem_append.mp hc with hc | hc
  · exact hpost c hc
  · rw [List.mem_singleton.mp hc]
    exact hb

theorem since_snoc_self {A B : α → Prop} (l : List α) {a : α} (ha : A a) : Since A B (l ++ [a]) :=
  ⟨l, a, [], rfl, ha, fun _ h => absurd h List.not_mem_nil⟩

/-! ## Runs that meet a condition -/

section Along

variable {S : Type} {step : S → α → S} {Q : S → α → Bool}

/-- `Q` holds before every step of the run. -/
def along (step : S → α → S) (Q : S → α → Bool) : S → List α → Bool
  | _, [] => true
  | s, a :: l => Q s a && along step Q (step s a) l

/-- What every step that meets the condition keeps, the run keeps. -/
theorem foldl_keeps {I : S → Prop} (hstep : ∀ s a, I s → Q s a = true → I (step s a)) :
    ∀ (l : List α) (s : S), I s → along step Q s l = true → I (l.foldl step s)
  | [], _, hs, _ => hs
  | a :: l, s, hs, halong => by
    rw [along, Bool.and_eq_true] at halong
    exact foldl_keeps hstep l (step s a) (hstep s a hs halong.1) halong.2

end Along

end ShuzaGram.Infra

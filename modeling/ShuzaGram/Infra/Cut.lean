import ShuzaGram.Infra.Steps

/-!
# Programs that are cut short

A program that runs out of something, the stack or a quota, stops where it would need more. Up to there it is the
program with enough of it.

* `Steps.CutAt` — one program is another one, cut short exactly at some states
* `Steps.Never` — a program does not stop like that by itself
* `Steps.CutAt.bind`, `Steps.CutAt.congr` — the states at which a sequence is cut short
-/

namespace ShuzaGram.Infra.Steps

variable {ε S α β : Type}

/-- The program does not throw `stop`. -/
def Never (stop : ε) (x : EStateM ε S α) : Prop := ∀ ⦃s s'⦄, x s ≠ .error stop s'

/-- `x` stops at the states in `D`, and elsewhere it is `y`. -/
structure CutAt (stop : ε) (D : S → Prop) (x y : EStateM ε S α) : Prop where
  stops : ∀ ⦃s⦄, D s → ∃ s', x s = .error stop s'
  goes : ∀ ⦃s⦄, ¬D s → x s = y s

variable {stop : ε} {D D' : S → Prop} {x y : EStateM ε S α} {f g : α → EStateM ε S β}

/-! ## What never stops -/

theorem never_pure (a : α) : Never stop (pure a : EStateM ε S α) := by
  intro s s' h
  cases h

theorem never_throw {e : ε} (h : e ≠ stop) : Never stop (throw e : EStateM ε S α) := by
  intro s s' hs
  cases hs
  exact h rfl

theorem Never.bind (hx : Never stop x) (hf : ∀ a, Never stop (f a)) : Never stop (x >>= f) := by
  intro s s' h
  rw [bind_apply] at h
  split at h
  · exact hf _ h
  · next hs =>
    cases h
    exact hx hs

theorem Never.ite {c : Prop} [Decidable c] (hx : Never stop x) (hy : Never stop y) :
    Never stop (if c then x else y) := by
  split
  · exact hx
  · exact hy

/-! ## What is cut short -/

/-- It is cut short exactly there. -/
theorem CutAt.stops_iff (h : CutAt stop D x y) (hy : Never stop y) {s : S} : (∃ s', x s = .error stop s') ↔ D s := by
  refine ⟨fun ⟨s', hs⟩ => ?_, fun hs => h.stops hs⟩
  by_contra hnot
  rw [h.goes hnot] at hs
  exact hy hs

theorem CutAt.congr (h : CutAt stop D x y) (hD : ∀ s, D s ↔ D' s) : CutAt stop D' x y where
  stops s hs := h.stops ((hD s).mpr hs)
  goes s hs := h.goes fun hd => hs ((hD s).mp hd)

theorem cutAt_self (x : EStateM ε S α) : CutAt stop (fun _ => False) x x where
  stops _ hs := hs.elim
  goes _ _ := rfl

theorem cutAt_throw (y : EStateM ε S α) : CutAt stop (fun _ => True) (throw stop) y where
  stops s _ := ⟨s, rfl⟩
  goes _ hs := (hs trivial).elim

/-- A sequence is cut short in its first part, or behind it. -/
theorem CutAt.bind {E : α → S → Prop} (hx : CutAt stop D x y) (hf : ∀ a, CutAt stop (E a) (f a) (g a)) :
    CutAt stop (fun s => D s ∨ ∃ a s', y s = .ok a s' ∧ E a s') (x >>= f) (y >>= g) where
  stops s hs := by
    by_cases hD : D s
    · obtain ⟨s', h⟩ := hx.stops hD
      exact ⟨s', bind_of_error h⟩
    · obtain ⟨a, s', h, hE⟩ := hs.resolve_left hD
      obtain ⟨s'', hstop⟩ := (hf a).stops hE
      rw [← hx.goes hD] at h
      exact ⟨s'', (bind_of_ok h).trans hstop⟩
  goes s hs := by
    obtain ⟨hD, hE⟩ := not_or.mp hs
    rw [bind_apply, bind_apply, hx.goes hD]
    cases h : y s with
    | ok a s' => exact (hf a).goes fun hE' => hE ⟨a, s', h, hE'⟩
    | error e s' => rfl

/-- A sequence whose first part has enough. -/
theorem CutAt.bind_self (x : EStateM ε S α) {E : α → S → Prop} (hf : ∀ a, CutAt stop (E a) (f a) (g a)) :
    CutAt stop (fun s => ∃ a s', x s = .ok a s' ∧ E a s') (x >>= f) (x >>= g) :=
  ((cutAt_self x).bind hf).congr fun _ => or_iff_right id

end ShuzaGram.Infra.Steps

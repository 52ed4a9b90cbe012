import Mathlib.Tactic.Common

/-!
# Programs over a state

Programs that read and change a state and may throw; an exception keeps the state. Nothing here says
what the state is. A loop needs a measure that every further round makes smaller, so that it ends; with
it, a loop unfolds as the loop of a program text does.

* `Steps.bind_of_ok`, `Steps.bind_eq_ok` — sequencing
* `Steps.attempt` — catching
* `Steps.Keeps`, `Steps.Consumes` — what a program does to the measure
* `Steps.iterate` — loops; `Steps.Loop` is their rounds as a relation, `Steps.iterate_eq_ok`
* `Steps.Ensures` — what holds of every state a program can end in, whether it returns or throws
* `Steps.Respects` — a program that cannot tell related states apart
-/

namespace ShuzaGram.Infra.Steps

variable {ε S α β σ : Type} {x : EStateM ε S α} {f : α → EStateM ε S β} {s s' : S}

/-! ## Sequencing -/

theorem bind_apply (x : EStateM ε S α) (f : α → EStateM ε S β) (s : S) :
    (x >>= f) s = match x s with
      | .ok a s' => f a s'
      | .error e s' => .error e s' := by
  show EStateM.bind x f s = _
  unfold EStateM.bind
  cases x s <;> rfl

theorem bind_of_ok {a : α} (h : x s = .ok a s') : (x >>= f) s = f a s' := by
  rw [bind_apply, h]

theorem bind_of_error {e : ε} (h : x s = .error e s') : (x >>= f) s = .error e s' := by
  rw [bind_apply, h]

/-- A sequence returns exactly when both parts do. -/
theorem bind_eq_ok {r : β} {s'' : S} :
    (x >>= f) s = .ok r s'' ↔ ∃ a s', x s = .ok a s' ∧ f a s' = .ok r s'' := by
  rw [bind_apply]
  cases hx : x s with
  | ok a s' => simp
  | error e s' => simp

/-- A `try` block that catches everything: what happened, as a value. -/
def attempt (x : EStateM ε S α) : EStateM ε S (Except ε α) := fun s =>
  match x s with
  | .ok a s' => .ok (.ok a) s'
  | .error e s' => .ok (.error e) s'

/-- The state in which a run ends, whether it returns or throws. -/
def final (x : EStateM ε S α) (s : S) : S :=
  match x s with
  | .ok _ s' | .error _ s' => s'

/-- The exception that ends a run, if one does. -/
def raised (x : EStateM ε S α) (s : S) : Option ε :=
  match x s with
  | .ok _ _ => none
  | .error e _ => some e

/-- A program that leaves a second component alone. -/
def beside {T : Type} (x : EStateM ε S α) : EStateM ε (T × S) α := fun s =>
  match x s.2 with
  | .ok a s' => .ok a (s.1, s')
  | .error e s' => .error e (s.1, s')

theorem beside_of_ok {T : Type} {t : T} {a : α} (h : x s = .ok a s') : beside x (t, s) = .ok a (t, s') := by
  simp only [beside, h]

theorem beside_of_error {T : Type} {t : T} {e : ε} (h : x s = .error e s') : beside x (t, s) = .error e (t, s') := by
  simp only [beside, h]

/-- A result whose state is seen through `g`. -/
def mapState {T : Type} (g : S → T) : EStateM.Result ε S α → EStateM.Result ε T α
  | .ok a s => .ok a (g s)
  | .error e s => .error e (g s)

/-- `y` does on the states `g s` what `x` does on `s`. -/
def Embeds {T : Type} (g : S → T) (x : EStateM ε S α) (y : EStateM ε T α) : Prop := ∀ s, y (g s) = mapState g (x s)

theorem Embeds.bind {T : Type} {g : S → T} {y : EStateM ε T α} {f' : α → EStateM ε T β} (hx : Embeds g x y)
    (hf : ∀ a, Embeds g (f a) (f' a)) : Embeds g (x >>= f) (y >>= f') := by
  intro s
  rw [bind_apply, bind_apply, hx s]
  cases hres : x s with
  | ok a s' =>
    simp only [mapState]
    exact hf a s'
  | error e s' => rfl

theorem embeds_pure {T : Type} (g : S → T) (a : α) :
    Embeds g (pure a : EStateM ε S α) (pure a : EStateM ε T α) := fun _ => rfl

/-! ## What a run does to the state -/

section Moves

variable (R : S → S → Prop)

/-- Whenever `x` returns, the state has moved along `R`. -/
def Moves (x : EStateM ε S α) : Prop := ∀ ⦃s a s'⦄, x s = .ok a s' → R s s'

variable {R}

theorem moves_pure (hrefl : ∀ s, R s s) (a : α) : Moves R (pure a : EStateM ε S α) := by
  intro s b s' h
  cases h
  exact hrefl s

theorem moves_throw (e : ε) : Moves R (throw e : EStateM ε S α) := by
  intro s a s' h
  cases h

theorem Moves.bind (htrans : ∀ {s t u}, R s t → R t u → R s u) (hx : Moves R x) (hf : ∀ a, Moves R (f a)) :
    Moves R (x >>= f) := by
  intro s r s'' h
  obtain ⟨a, s', h₁, h₂⟩ := bind_eq_ok.mp h
  exact htrans (hx h₁) (hf a h₂)

theorem Moves.ite {c : Prop} [Decidable c] {y : EStateM ε S α} (hx : Moves R x) (hy : Moves R y) :
    Moves R (if c then x else y) := by
  split
  · exact hx
  · exact hy

end Moves

/-! ## The measure -/

section Measure

variable (size : S → Nat)

/-- Whenever `x` returns, the measure has not grown. -/
def Keeps (x : EStateM ε S α) : Prop := ∀ ⦃s a s'⦄, x s = .ok a s' → size s' ≤ size s

/-- Whenever `x` returns, the measure is smaller. -/
def Consumes (x : EStateM ε S α) : Prop := ∀ ⦃s a s'⦄, x s = .ok a s' → size s' < size s

variable {size}

theorem Consumes.keeps (h : Consumes size x) : Keeps size x := fun _ _ _ hx => Nat.le_of_lt (h hx)

theorem keeps_pure (a : α) : Keeps size (pure a : EStateM ε S α) := by
  intro s b s' h
  cases h
  exact Nat.le_refl _

theorem Keeps.bind (hx : Keeps size x) (hf : ∀ a, Keeps size (f a)) : Keeps size (x >>= f) := by
  intro s b s'' h
  obtain ⟨a, s', h1, h2⟩ := bind_eq_ok.mp h
  exact Nat.le_trans (hf a h2) (hx h1)

theorem Consumes.bind (hx : Consumes size x) (hf : ∀ a, Keeps size (f a)) : Consumes size (x >>= f) := by
  intro s b s'' h
  obtain ⟨a, s', h1, h2⟩ := bind_eq_ok.mp h
  exact Nat.lt_of_le_of_lt (hf a h2) (hx h1)

theorem Keeps.bind_consumes (hx : Keeps size x) (hf : ∀ a, Consumes size (f a)) : Consumes size (x >>= f) := by
  intro s b s'' h
  obtain ⟨a, s', h1, h2⟩ := bind_eq_ok.mp h
  exact Nat.lt_of_lt_of_le (hf a h2) (hx h1)

theorem Keeps.ite {c : Prop} [Decidable c] {y : EStateM ε S α} (hx : Keeps size x) (hy : Keeps size y) :
    Keeps size (if c then x else y) := by
  split
  · exact hx
  · exact hy

end Measure

/-! ## Loops -/

section Loops

variable (size : S → Nat) (spent : ε) (body : σ → EStateM ε S (σ ⊕ α))

/-- At most `n` rounds of a loop: `.inl` goes on from a new state of the loop, `.inr` leaves it. -/
def rounds : Nat → σ → EStateM ε S α
  | 0, _ => throw spent
  | n + 1, u => do
    match ← body u with
    | .inl u' => rounds n u'
    | .inr a => pure a

/-- A loop whose every further round makes the measure smaller: there cannot be more rounds. -/
def iterate (u : σ) : EStateM ε S α := fun s => rounds spent body (size s + 1) u s

/-- Whenever a round goes on, the measure is smaller. -/
def Advances (size : S → Nat) (body : σ → EStateM ε S (σ ⊕ α)) : Prop :=
  ∀ ⦃u s u' s'⦄, body u s = .ok (.inl u') s' → size s' < size s

/-- Every round moves the state along `R`, and so do all of them. -/
theorem Moves.rounds {R : S → S → Prop} (hrefl : ∀ s, R s s) (htrans : ∀ {s t u}, R s t → R t u → R s u)
    (hbody : ∀ u, Moves R (body u)) : ∀ n u, Moves R (Steps.rounds spent body n u)
  | 0, _ => moves_throw spent
  | n + 1, u => by
    refine (hbody u).bind htrans fun r => ?_
    cases r with
    | inl u' => exact Moves.rounds hrefl htrans hbody n u'
    | inr a => exact moves_pure hrefl a

/-- The rounds of a loop that ends. -/
inductive Loop : σ → S → α → S → Prop where
  | done {u s a s'} (h : body u s = .ok (.inr a) s') : Loop u s a s'
  | again {u s u' s₁ a s'} (h : body u s = .ok (.inl u') s₁) (rest : Loop u' s₁ a s') : Loop u s a s'

variable {size spent body}

theorem advances_of_consumes (h : ∀ u, Consumes size (body u)) : Advances size body := fun u _ _ _ hu => h u hu

/-- The number of rounds does not matter as long as it exceeds the measure. -/
theorem rounds_congr (hbody : Advances size body) : ∀ {n m : Nat} {u : σ} {s : S},
    size s < n → size s < m → rounds spent body n u s = rounds spent body m u s
  | 0, _, _, _, hn, _ => absurd hn (Nat.not_lt_zero _)
  | _, 0, _, _, _, hm => absurd hm (Nat.not_lt_zero _)
  | n + 1, m + 1, u, s, hn, hm => by
    rw [rounds, rounds, bind_apply, bind_apply]
    cases hs : body u s with
    | error e s' => rfl
    | ok r s' =>
      cases r with
      | inr a => rfl
      | inl u' =>
        have hlt := hbody hs
        exact rounds_congr hbody (by omega) (by omega)

/-- A loop unfolds into its first round. -/
theorem iterate_eq (hbody : Advances size body) (u : σ) :
    iterate size spent body u = (do
      match ← body u with
      | .inl u' => iterate size spent body u'
      | .inr a => pure a) := by
  funext s
  rw [iterate, rounds, bind_apply, bind_apply]
  cases hs : body u s with
  | error e s' => rfl
  | ok r s' =>
    cases r with
    | inr a => rfl
    | inl u' =>
      have hlt := hbody hs
      exact rounds_congr hbody (by omega) (by omega)

theorem iterate_of_inl (hbody : Advances size body) {u u' : σ} (h : body u s = .ok (.inl u') s') :
    iterate size spent body u s = iterate size spent body u' s' := by
  rw [iterate_eq hbody, bind_of_ok h]

theorem iterate_of_inr (hbody : Advances size body) {u : σ} {a : α} (h : body u s = .ok (.inr a) s') :
    iterate size spent body u s = .ok a s' := by
  rw [iterate_eq hbody, bind_of_ok h]
  rfl

theorem iterate_of_error (hbody : Advances size body) {u : σ} {e : ε} (h : body u s = .error e s') :
    iterate size spent body u s = .error e s' := by
  rw [iterate_eq hbody, bind_of_error h]

/-- Induction along the rounds of a loop, by its measure: the property holds of every start from which
the first round throws, leaves the loop, or goes on to a start of which it holds. -/
theorem loop_induction (hbody : Advances size body) {motive : σ → S → Prop}
    (error : ∀ u s e s', body u s = .error e s' → motive u s)
    (done : ∀ u s a s', body u s = .ok (.inr a) s' → motive u s)
    (again : ∀ u s u' s', body u s = .ok (.inl u') s' → motive u' s' → motive u s) (u : σ) (s : S) : motive u s := by
  generalize hn : size s = n
  induction n using Nat.strongRecOn generalizing u s with
  | ind n ih =>
    cases hs : body u s with
    | error e s' => exact error u s e s' hs
    | ok r s' =>
      cases r with
      | inr a => exact done u s a s' hs
      | inl u' =>
        have hlt := hbody hs
        exact again u s u' s' hs (ih _ (by omega) u' s' rfl)

/-- **A loop returns exactly along its rounds.** -/
theorem iterate_eq_ok (hbody : Advances size body) {u : σ} {a : α} :
    iterate size spent body u s = .ok a s' ↔ Loop body u s a s' := by
  constructor
  · refine loop_induction (motive := fun u s => ∀ {s'}, iterate size spent body u s = .ok a s' → Loop body u s a s')
      hbody ?_ ?_ ?_ u s
    · intro u s e s₁ hs s' h
      rw [iterate_of_error hbody hs] at h
      cases h
    · intro u s b s₁ hs s' h
      rw [iterate_of_inr hbody hs] at h
      cases h
      exact .done hs
    · intro u s u' s₁ hs ih s' h
      rw [iterate_of_inl hbody hs] at h
      exact .again hs (ih h)
  · intro h
    induction h with
    | done h => exact iterate_of_inr hbody h
    | again h _ ih => rw [iterate_of_inl hbody h, ih]

/-- A transitive relation between the states before and after every round holds of the whole loop. -/
theorem iterate_rel {R : S → S → Prop} (htrans : ∀ {u v w}, R u v → R v w → R u w)
    (hbody : Advances size body) (hround : ∀ {u s r s'}, body u s = .ok r s' → R s s') {u : σ} {a : α}
    (h : iterate size spent body u s = .ok a s') : R s s' := by
  have hloop := (iterate_eq_ok hbody).mp h
  clear h
  induction hloop with
  | done h => exact hround h
  | again h _ ih => exact htrans (hround h) ih

theorem consumes_iterate (hbody : ∀ u, Consumes size (body u)) (u : σ) : Consumes size (iterate size spent body u) :=
  fun _ _ _ h => iterate_rel (R := fun s s' => size s' < size s) (fun huv hvw => Nat.lt_trans hvw huv)
    (advances_of_consumes hbody) (fun hr => hbody _ hr) h

end Loops

/-! ## Every ending -/

section Ensures

/-- From a state with `Pre`, a program that returns leaves `Post`, and one that throws leaves `Raised`. -/
structure Ensures (Pre : S → Prop) (x : EStateM ε S α) (Post : α → S → Prop) (Raised : ε → S → Prop) : Prop where
  ok : ∀ ⦃s a s'⦄, Pre s → x s = .ok a s' → Post a s'
  error : ∀ ⦃s e s'⦄, Pre s → x s = .error e s' → Raised e s'

variable {Pre : S → Prop} {Mid : α → S → Prop} {Post : β → S → Prop} {Raised : ε → S → Prop}

theorem Ensures.bind (hx : Ensures Pre x Mid Raised) (hf : ∀ a, Ensures (Mid a) (f a) Post Raised) :
    Ensures Pre (x >>= f) Post Raised where
  ok s b s'' hs h := by
    obtain ⟨a, s', h1, h2⟩ := bind_eq_ok.mp h
    exact (hf a).ok (hx.ok hs h1) h2
  error s e s'' hs h := by
    rw [bind_apply] at h
    cases hxs : x s with
    | error e' s' =>
      rw [hxs] at h
      cases h
      exact hx.error hs hxs
    | ok a s' =>
      rw [hxs] at h
      exact (hf a).error (hx.ok hs hxs) h

theorem Ensures.mono {Pre' : S → Prop} {Mid' : α → S → Prop} {Raised' : ε → S → Prop} (hx : Ensures Pre x Mid Raised)
    (hpre : ∀ s, Pre' s → Pre s) (hpost : ∀ a s, Mid a s → Mid' a s) (hraised : ∀ e s, Raised e s → Raised' e s) :
    Ensures Pre' x Mid' Raised' :=
  ⟨fun _ _ _ hs h => hpost _ _ (hx.ok (hpre _ hs) h), fun _ _ _ hs h => hraised _ _ (hx.error (hpre _ hs) h)⟩

theorem ensures_pure {a : α} (h : ∀ s, Pre s → Mid a s) : Ensures Pre (pure a) Mid Raised where
  ok s b s' hs hb := by
    cases hb
    exact h s hs
  error s e s' _ he := by cases he

theorem ensures_throw {e : ε} (h : ∀ s, Pre s → Raised e s) : Ensures Pre (throw e) Mid Raised where
  ok s b s' _ hb := by cases hb
  error s e' s' hs he := by
    cases he
    exact h s hs

theorem Ensures.ite {c : Prop} [Decidable c] {y : EStateM ε S α} (hx : Ensures Pre x Mid Raised)
    (hy : Ensures Pre y Mid Raised) : Ensures Pre (if c then x else y) Mid Raised := by
  split
  · exact hx
  · exact hy

/-- Catching turns what is raised into a case of the result. -/
theorem Ensures.attempt {Raised' : ε → S → Prop} (hx : Ensures Pre x Mid Raised) :
    Ensures Pre (attempt x)
      (fun r s => match r with
        | .ok a => Mid a s
        | .error e => Raised e s) Raised' where
  ok s r s' hs h := by
    unfold Steps.attempt at h
    cases hxs : x s with
    | ok a s₁ =>
      rw [hxs] at h
      cases h
      exact hx.ok hs hxs
    | error e s₁ =>
      rw [hxs] at h
      cases h
      exact hx.error hs hxs
  error s e s' _ h := by
    unfold Steps.attempt at h
    cases hxs : x s <;> rw [hxs] at h <;> cases h

/-- What holds of the state of a loop before every round decides how the loop can end. -/
theorem ensures_iterate {size : S → Nat} {spent : ε} {body : σ → EStateM ε S (σ ⊕ α)} (hbody : Advances size body)
    (Inv : σ → S → Prop) (hround : ∀ u, Ensures (Inv u) (body u) (fun r s => Sum.elim (Inv · s) (Mid · s) r) Raised)
    (u : σ) : Ensures (Inv u) (iterate size spent body u) Mid Raised := by
  have hall : ∀ u s, Inv u s → (∀ a s', iterate size spent body u s = .ok a s' → Mid a s') ∧
      ∀ e s', iterate size spent body u s = .error e s' → Raised e s' := by
    refine loop_induction hbody ?_ ?_ ?_
    · intro u s e s' hs hinv
      rw [iterate_of_error hbody hs]
      refine ⟨nofun, fun e' s'' h => ?_⟩
      cases h
      exact (hround u).error hinv hs
    · intro u s a s' hs hinv
      rw [iterate_of_inr hbody hs]
      refine ⟨fun b s'' h => ?_, nofun⟩
      cases h
      exact (hround u).ok hinv hs
    · intro u s u' s' hs ih hinv
      rw [iterate_of_inl hbody hs]
      exact ih ((hround u).ok hinv hs)
  exact ⟨fun s a s' hs h => (hall u s hs).1 a s' h, fun s e s' hs h => (hall u s hs).2 e s' h⟩

/-- An invariant of the rounds is one of the loop. -/
theorem Ensures.iterate {size : S → Nat} {spent : ε} {body : σ → EStateM ε S (σ ⊕ α)} (hbody : Advances size body)
    {Inv : S → Prop} (hround : ∀ u, Ensures Inv (body u) (fun _ => Inv) Raised) (u : σ) :
    Ensures Inv (iterate size spent body u) (fun _ => Inv) Raised := by
  refine ensures_iterate hbody (fun _ => Inv) (fun u => ⟨fun s r s' hs h => ?_, (hround u).error⟩) u
  cases r with
  | inl u' => exact (hround u).ok hs h
  | inr a => exact (hround u).ok hs h

/-- What holds however a run ends holds of its last state. -/
theorem Ensures.final {Q : S → Prop} (h : Ensures Pre x (fun _ => Q) (fun _ => Q)) (hs : Pre s) : Q (final x s) := by
  unfold Steps.final
  split
  · next hok => exact h.ok hs hok
  · next herr => exact h.error hs herr

end Ensures

/-! ## Programs that cannot tell two states apart -/

section Respects

variable (R : S → S → Prop)

/-- Two runs that end alike, in related states. -/
inductive Agree : EStateM.Result ε S α → EStateM.Result ε S α → Prop where
  | ok {a s t} (h : R s t) : Agree (.ok a s) (.ok a t)
  | error {e s t} (h : R s t) : Agree (.error e s) (.error e t)

/-- From related states, a program does the same. -/
def Respects (x : EStateM ε S α) : Prop := ∀ ⦃s t⦄, R s t → Agree R (x s) (x t)

variable {R}

theorem respects_pure (a : α) : Respects R (pure a : EStateM ε S α) := fun _ _ h => .ok h

theorem respects_throw (e : ε) : Respects R (throw e : EStateM ε S α) := fun _ _ h => .error h

theorem Respects.bind (hx : Respects R x) (hf : ∀ a, Respects R (f a)) : Respects R (x >>= f) := by
  intro s t hst
  rw [bind_apply, bind_apply]
  have h := hx hst
  generalize x s = xs at h ⊢
  generalize x t = xt at h ⊢
  cases h with
  | ok h => exact hf _ h
  | error h => exact .error h

theorem Respects.ite {c : Prop} [Decidable c] {y : EStateM ε S α} (hx : Respects R x) (hy : Respects R y) :
    Respects R (if c then x else y) := by
  split
  · exact hx
  · exact hy

theorem Respects.attempt (hx : Respects R x) : Respects R (attempt x) := by
  intro s t hst
  unfold Steps.attempt
  have h := hx hst
  generalize x s = xs at h ⊢
  generalize x t = xt at h ⊢
  cases h with
  | ok h => exact .ok h
  | error h => exact .ok h

/-- Two runs from related states end alike. -/
theorem Respects.final {t : S} (hx : Respects R x) (hst : R s t) :
    raised x t = raised x s ∧ R (final x s) (final x t) := by
  unfold raised Steps.final
  have h := hx hst
  generalize x s = xs at h ⊢
  generalize x t = xt at h ⊢
  cases h with
  | ok h => exact ⟨rfl, h⟩
  | error h => exact ⟨rfl, h⟩

/-- A loop of a round that cannot tell states apart: both runs take the same rounds, however their
measures compare. -/
theorem respects_iterate {size : S → Nat} {spent : ε} {body : σ → EStateM ε S (σ ⊕ α)} (hbody : Advances size body)
    (hround : ∀ u, Respects R (body u)) (u : σ) : Respects R (iterate size spent body u) := by
  -- Induction on the rounds of the left side; the right side takes the same branch each time.
  have hall : ∀ u s, ∀ t, R s t → Agree R (iterate size spent body u s) (iterate size spent body u t) := by
    refine loop_induction hbody ?_ ?_ ?_
    · intro u s e s' hs t hst
      have h := hround u hst
      rw [hs] at h
      generalize ht : body u t = r at h
      cases h with
      | error h =>
        rw [iterate_of_error hbody hs, iterate_of_error hbody ht]
        exact .error h
    · intro u s a s' hs t hst
      have h := hround u hst
      rw [hs] at h
      generalize ht : body u t = r at h
      cases h with
      | ok h =>
        rw [iterate_of_inr hbody hs, iterate_of_inr hbody ht]
        exact .ok h
    · intro u s u' s' hs ih t hst
      have h := hround u hst
      rw [hs] at h
      generalize ht : body u t = r at h
      cases h with
      | ok h =>
        rw [iterate_of_inl hbody hs, iterate_of_inl hbody ht]
        exact ih _ h
  exact fun s t hst => hall u s t hst

end Respects

end ShuzaGram.Infra.Steps

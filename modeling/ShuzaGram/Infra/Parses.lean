import ShuzaGram.Infra.Steps

/-!
# What a reader takes

A reader is a program on the input that is left. `Parses x bs a` says that `x`, wherever `bs` stands in
front, takes `bs` and nothing else and returns `a`. A reader of a record parses the encodings of its fields
one behind another, so what is said of the fields adds up to what is said of the record.

* `Parses.bind`, `Parses.map`, `Parses.optional`, `Parses.option` — records
* `Parses.whole` — a whole input
* `Exact` — a reader accepts what a writer writes, and nothing else
-/

namespace ShuzaGram.Infra

variable {ε τ α β : Type}

/-- In front of anything, `bs` is read as `a`, to its last element. -/
def Parses (x : EStateM ε (List τ) α) (bs : List τ) (a : α) : Prop := ∀ rest, x (bs ++ rest) = .ok a rest

namespace Parses

variable {x : EStateM ε (List τ) α} {f : α → EStateM ε (List τ) β} {bs cs : List τ} {a : α} {b : β}

theorem pure (a : α) : Parses (pure a : EStateM ε (List τ) α) [] a := fun _ => rfl

/-- One field, and what comes behind it. -/
theorem bind (hx : Parses x bs a) (hf : Parses (f a) cs b) : Parses (x >>= f) (bs ++ cs) b := by
  intro rest
  rw [List.append_assoc, Steps.bind_of_ok (hx _)]
  exact hf rest

/-- A read that takes nothing. -/
theorem bind_nil (hx : Parses x [] a) (hf : Parses (f a) bs b) : Parses (x >>= f) bs b := hx.bind hf

/-- The last field of a record, from which the rest is decided. -/
theorem bind_last (hx : Parses x bs a) (hf : Parses (f a) [] b) : Parses (x >>= f) bs b := by
  have h := hx.bind hf
  rwa [List.append_nil] at h

/-- The last field of a record. -/
theorem map {g : α → β} (hx : Parses x bs a) : Parses (x >>= fun a => Pure.pure (g a)) bs (g a) :=
  hx.bind_last (pure (g a))

/-- A field that is there under a condition the reader knows. -/
theorem optional {c : Prop} [Decidable c] (hx : c → Parses x bs a) :
    Parses (if c then x >>= fun a => Pure.pure (some a) else Pure.pure none) (if c then bs else [])
      (if c then some a else none) := by
  by_cases hc : c
  · rw [if_pos hc, if_pos hc, if_pos hc]
    exact (hx hc).map
  · rw [if_neg hc, if_neg hc, if_neg hc]
    exact pure none

/-- A field that is there exactly when the reader's condition holds. -/
theorem option {γ : Type} {c : Prop} [Decidable c] {o : Option γ} {enc : γ → List τ} {g : γ → α} (hc : o.isSome ↔ c)
    (hx : ∀ v, o = some v → Parses x (enc v) (g v)) :
    Parses (if c then x >>= fun a => Pure.pure (some a) else Pure.pure none) (o.elim [] enc) (o.map g) := by
  cases ho : o with
  | none =>
    have hfalse : ¬ c := by
      rw [← hc, ho]
      exact Bool.false_ne_true
    rw [if_neg hfalse]
    exact pure none
  | some v =>
    rw [if_pos (hc.mp (by rw [ho]; rfl))]
    exact (hx v ho).map

/-- All of an input. -/
theorem whole (hx : Parses x bs a) : x bs = .ok a [] := by
  have h := hx []
  rwa [List.append_nil] at h

end Parses

/-- The reader takes what `put` writes of the values `P`, and accepts nothing else. -/
def Exact (x : EStateM ε (List τ) α) (put : α → List τ) (P : α → Prop) : Prop :=
  ∀ bs a rest, x bs = .ok a rest ↔ P a ∧ bs = put a ++ rest

namespace Exact

variable {x : EStateM ε (List τ) α} {put : α → List τ} {P : α → Prop}

theorem parses (h : Exact x put P) {a : α} (ha : P a) : Parses x (put a) a := fun rest => (h _ a rest).mpr ⟨ha, rfl⟩

/-- It is enough that a reader reads back, and that whatever it accepts was written. -/
theorem of_accepted (hparses : ∀ a, P a → Parses x (put a) a)
    (haccepted : ∀ bs a rest, x bs = .ok a rest → ∃ a', P a' ∧ ∃ rest', bs = put a' ++ rest') : Exact x put P := by
  intro bs a rest
  constructor
  · intro h
    obtain ⟨a', ha', rest', rfl⟩ := haccepted bs a rest h
    rw [hparses a' ha' rest'] at h
    cases h
    exact ⟨ha', rfl⟩
  · rintro ⟨ha, rfl⟩
    exact hparses a ha rest

end Exact

end ShuzaGram.Infra

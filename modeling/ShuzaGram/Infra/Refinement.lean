import ShuzaGram.Infra.ByteStream
import Mathlib.Data.List.Infix

/-!
# The same program on two kinds of state

A program that is given its reads and its writes runs on a plain byte string as well as on whatever the bytes
really come from.

`Refines early R x y` says that from states related by `R` the two runs return the same value, in related states, or
throw the same exception; where `early` holds, the first run may also throw before the second is at its end. What a run
that throws leaves behind is not compared: nobody goes on from there.

* `Refines.bind`, `Refines.ite`, `Refines.guard`, `Refines.beside` — composed programs
* `refines_times`, `refines_writeAll` — repeated reads and writes
* `ReadsStream.refines`, `ReadsStream.refines_start` — a reader of a byte string, or of the start of one
* `Uniform` — programs over any reads; `Uniform.of_start` and `Uniform.of_bytes` carry what they return

A writer is compared by what it leaves behind, also where it throws. `WritesAs abs le x y` says that a run of `x` that
returns is one of `y`, and that one that throws leaves less than `y` does.

* `WritesAs.bind`, `WritesAs.ite`, `WritesAs.beside`, `writesAs_writeAll` — composed programs
-/

namespace ShuzaGram.Infra

variable {ε S T α β : Type}

/-! ## Reading -/

/-- Two ends of runs that nobody can tell apart, or an early end of the first run. -/
inductive SameEnd (early : Prop) (R : S → T → Prop) : EStateM.Result ε S α → EStateM.Result ε T α → Prop where
  | ok {a s t} (h : R s t) : SameEnd early R (.ok a s) (.ok a t)
  | error {e s t} : SameEnd early R (.error e s) (.error e t)
  | early {e s r} (h : early) : SameEnd early R (.error e s) r

/-- From related states, `x` ends as `y` does. -/
def Refines (early : Prop) (R : S → T → Prop) (x : EStateM ε S α) (y : EStateM ε T α) : Prop :=
  ∀ ⦃s t⦄, R s t → SameEnd early R (x s) (y t)

/-- What a run returns or throws. -/
def outcome : EStateM.Result ε S α → Except ε α
  | .ok a _ => .ok a
  | .error e _ => .error e

variable {early : Prop} {R : S → T → Prop} {x : EStateM ε S α} {y : EStateM ε T α}

theorem SameEnd.outcome_eq {r : EStateM.Result ε S α} {r' : EStateM.Result ε T α} (h : SameEnd False R r r') :
    outcome r = outcome r' := by
  cases h with
  | ok h => rfl
  | error => rfl
  | early h => exact absurd h id

/-- A run that returns is one of the other side. -/
theorem Refines.of_ok {s s' : S} {t : T} {a : α} (h : Refines early R x y) (hst : R s t) (hx : x s = .ok a s') :
    ∃ t', y t = .ok a t' ∧ R s' t' := by
  have hend := h hst
  rw [hx] at hend
  generalize y t = r at hend ⊢
  cases hend with
  | ok h => exact ⟨_, rfl, h⟩

namespace Refines

theorem pure (a : α) : Refines early R (Pure.pure a : EStateM ε S α) (Pure.pure a) := fun _ _ h => .ok h

theorem throw (e : ε) : Refines early R (MonadExcept.throw e : EStateM ε S α) (MonadExcept.throw e) := fun _ _ _ => .error

theorem bind {f : α → EStateM ε S β} {g : α → EStateM ε T β} (hx : Refines early R x y)
    (hf : ∀ a, Refines early R (f a) (g a)) : Refines early R (x >>= f) (y >>= g) := by
  intro s t hst
  have h := hx hst
  rw [Steps.bind_apply, Steps.bind_apply]
  generalize x s = r at h ⊢
  generalize y t = r' at h ⊢
  cases h with
  | ok h => exact hf _ h
  | error => exact .error
  | early h => exact .early h

theorem ite {c : Prop} [Decidable c] {x' : EStateM ε S α} {y' : EStateM ε T α} (hx : Refines early R x y)
    (hy : Refines early R x' y') : Refines early R (if c then x else x') (if c then y else y') := by
  by_cases hc : c
  · rw [if_pos hc, if_pos hc]
    exact hx
  · rw [if_neg hc, if_neg hc]
    exact hy

/-- Behind a check that may throw. -/
theorem guard {c : Prop} [Decidable c] {e : ε} (hx : Refines early R x y) :
    Refines early R (if c then (MonadExcept.throw e : EStateM ε S PUnit) >>= fun _ => x else x)
      (if c then (MonadExcept.throw e : EStateM ε T PUnit) >>= fun _ => y else y) :=
  .ite ((Refines.throw e).bind fun _ => hx) hx

/-- Next to a component that is the same on both sides. -/
def Beside (U : Type) (R : S → T → Prop) : U × S → U × T → Prop := fun us ut => us.1 = ut.1 ∧ R us.2 ut.2

theorem beside {U : Type} (hx : Refines early R x y) :
    Refines early (Beside U R) (Steps.beside x) (Steps.beside y) := by
  rintro ⟨u, s⟩ ⟨u', t⟩ ⟨rfl, hst⟩
  have h := hx hst
  unfold Steps.beside
  simp only
  generalize x s = r at h ⊢
  generalize y t = r' at h ⊢
  cases h with
  | ok h => exact .ok ⟨rfl, h⟩
  | error => exact .error
  | early h => exact .early h

end Refines

theorem refines_times (h : Refines early R x y) : ∀ n, Refines early R (times x n) (times y n)
  | 0 => Refines.pure []
  | n + 1 => h.bind fun a => (refines_times h n).bind fun as => Refines.pure (a :: as)

theorem refines_writeAll {w : β → EStateM ε S Unit} {w' : β → EStateM ε T Unit} (h : ∀ b, Refines early R (w b) (w' b)) :
    ∀ bs, Refines early R (writeAll w bs) (writeAll w' bs)
  | [] => Refines.pure ()
  | b :: bs => (h b).bind fun _ => refines_writeAll h bs

section ReadsStream

variable {read : ReadExact ε S} {stream : S → Bytes} {closed : ε}

/-- A reader of a stream reads as one reads the byte string. -/
theorem ReadsStream.refines (h : ReadsStream read stream closed) (n : Nat) :
    Refines False (fun s b => stream s = b) (read n) (ByteStream.takeBytes closed n) := by
  rintro s _ rfl
  by_cases hn : n ≤ (stream s).length
  · obtain ⟨s', hread, hrest⟩ := h.full s n hn
    rw [hread, ByteStream.takeBytes_of_le closed hn]
    exact .ok hrest
  · obtain ⟨s', hread⟩ := h.short s n (Nat.lt_of_not_le hn)
    rw [hread, ByteStream.takeBytes_of_lt closed (Nat.lt_of_not_le hn)]
    exact .error

/-- Where only the start of a byte string has arrived, a reader reads as long as that is enough. -/
theorem ReadsStream.refines_start (h : ReadsStream read stream closed) (rest : Bytes) (closed' : ε) (n : Nat) :
    Refines True (fun s b => stream s ++ rest = b) (read n) (ByteStream.takeBytes closed' n) := by
  rintro s _ rfl
  by_cases hn : n ≤ (stream s).length
  · obtain ⟨s', hread, hrest⟩ := h.full s n hn
    rw [hread, ByteStream.takeBytes_of_le closed' (by rw [List.length_append]; omega), List.take_append_of_le_length hn,
      List.drop_append_of_le_length hn]
    exact .ok (by rw [hrest])
  · obtain ⟨s', hread⟩ := h.short s n (Nat.lt_of_not_le hn)
    rw [hread]
    exact .early trivial

/-- What is read of a byte string is read of a stream that gives it. -/
theorem ReadsStream.refines_bytes (h : ReadsStream read stream closed) (closed' : ε) (n : Nat) :
    Refines True (fun b s => stream s = b) (ByteStream.takeBytes closed' n) (read n) := by
  rintro _ s rfl
  by_cases hn : n ≤ (stream s).length
  · obtain ⟨s', hread, hrest⟩ := h.full s n hn
    rw [hread, ByteStream.takeBytes_of_le closed' hn]
    exact .ok hrest
  · rw [ByteStream.takeBytes_of_lt closed' (Nat.lt_of_not_le hn)]
    exact .early trivial

/-- A program that sees a connection only through its reads: it ends in the same way where the reads do. -/
def Uniform (f : (S : Type) → ReadExact ε S → EStateM ε S α) : Prop :=
  ∀ ⦃S T : Type⦄ ⦃early : Prop⦄ ⦃R : S → T → Prop⦄ ⦃read : ReadExact ε S⦄ ⦃read' : ReadExact ε T⦄,
    (∀ n, Refines early R (read n) (read' n)) → Refines early R (f S read) (f T read')

namespace Uniform

variable {f : (S : Type) → ReadExact ε S → EStateM ε S α} {s s' : S} {a : α} {b : Bytes}

/-- Such a program runs on a connection as it runs on the bytes that come from there. -/
theorem outcome_eq (hf : Uniform f) (h : ReadsStream read stream closed) (s : S) :
    outcome (f S read s) = outcome (f Bytes (ByteStream.takeBytes closed) (stream s)) :=
  (hf h.refines rfl).outcome_eq

/-- What it returns where only the start of the bytes has arrived, it returns on all of them. -/
theorem of_start (hf : Uniform f) (h : ReadsStream read stream closed) (closed' : ε) {more : Bytes}
    (hs : stream s ++ more = b) (hok : f S read s = .ok a s') :
    ∃ b', f Bytes (ByteStream.takeBytes closed') b = .ok a b' ∧ stream s' ++ more = b' :=
  (hf (h.refines_start more closed')).of_ok hs hok

/-- What it returns on bytes, it returns on a connection with these bytes, however that ends. -/
theorem of_bytes (hf : Uniform f) (h : ReadsStream read stream closed) {closed' : ε}
    (hok : f Bytes (ByteStream.takeBytes closed') (stream s) = .ok a b) :
    ∃ s', f S read s = .ok a s' ∧ stream s' = b := by
  exact (hf (h.refines_bytes closed')).of_ok rfl hok

end Uniform

end ReadsStream

/-! ## Writing -/

/-- `y` leaves more than it found, and a run of `x` that returns is one of `y`; one that throws leaves less. -/
structure WritesAs (abs : S → T) (le : T → T → Prop) (x : EStateM ε S α) (y : EStateM ε T α) : Prop where
  grows : ∀ t, le t (Steps.final y t)
  ok : ∀ ⦃s a s'⦄, x s = .ok a s' → y (abs s) = .ok a (abs s')
  error : ∀ ⦃s e s'⦄, x s = .error e s' → le (abs s') (Steps.final y (abs s))

namespace WritesAs

variable {abs : S → T} {le : T → T → Prop}

theorem ite {c : Prop} [Decidable c] {x' : EStateM ε S α} {y' : EStateM ε T α} (hx : WritesAs abs le x y)
    (hy : WritesAs abs le x' y') : WritesAs abs le (if c then x else x') (if c then y else y') := by
  by_cases hc : c
  · rw [if_pos hc, if_pos hc]
    exact hx
  · rw [if_neg hc, if_neg hc]
    exact hy

/-- The order of the second component. -/
def Behind (U : Type) (le : T → T → Prop) : U × T → U × T → Prop := fun p q => le p.2 q.2

theorem beside {U : Type} (hx : WritesAs abs le x y) :
    WritesAs (Prod.map id abs) (Behind U le) (Steps.beside x) (Steps.beside y) where
  grows t := by
    have h := hx.grows t.2
    unfold Steps.final at h ⊢
    unfold Steps.beside
    generalize y t.2 = r at h ⊢
    cases r <;> exact h
  ok := by
    rintro ⟨u, s⟩ a ⟨u', s'⟩ h
    unfold Steps.beside at h
    split at h
    · next hxs =>
      cases h
      exact Steps.beside_of_ok (hx.ok hxs)
    · cases h
  error := by
    rintro ⟨u, s⟩ e ⟨u', s'⟩ h
    unfold Steps.beside at h
    split at h
    · cases h
    · next hxs =>
      cases h
      have herror := hx.error hxs
      unfold Steps.final at herror ⊢
      unfold Steps.beside
      simp only [Prod.map_apply]
      generalize y (abs s) = r at herror ⊢
      cases r <;> exact herror

variable [IsPreorder T le]

instance {U : Type} : IsPreorder (U × T) (Behind U le) where
  refl p := refl p.2
  trans p q r (hpq : le p.2 q.2) (hqr : le q.2 r.2) := (IsTrans.trans p.2 q.2 r.2 hpq hqr : le p.2 r.2)

theorem pure (a : α) : WritesAs abs le (Pure.pure a : EStateM ε S α) (Pure.pure a) where
  grows t := refl t
  ok s b s' h := by
    cases h
    rfl
  error s e s' h := by cases h

theorem throw (e : ε) : WritesAs abs le (MonadExcept.throw e : EStateM ε S α) (MonadExcept.throw e) where
  grows t := refl t
  ok s b s' h := by cases h
  error s e' s' h := by
    cases h
    exact refl _

theorem final_bind {g : α → EStateM ε T β} (hg : ∀ a t, le t (Steps.final (g a) t)) (t : T) :
    le (Steps.final y t) (Steps.final (y >>= g) t) := by
  unfold Steps.final
  rw [Steps.bind_apply]
  cases y t with
  | ok a t' => exact hg a t'
  | error e t' => exact refl t'

theorem bind {f : α → EStateM ε S β} {g : α → EStateM ε T β} (hx : WritesAs abs le x y)
    (hf : ∀ a, WritesAs abs le (f a) (g a)) : WritesAs abs le (x >>= f) (y >>= g) where
  grows t := IsTrans.trans _ _ _ (hx.grows t) (final_bind (fun a => (hf a).grows) t)
  ok s b s'' h := by
    obtain ⟨a, s', h₁, h₂⟩ := Steps.bind_eq_ok.mp h
    rw [Steps.bind_of_ok (hx.ok h₁)]
    exact (hf a).ok h₂
  error s e s'' h := by
    rw [Steps.bind_apply] at h
    split at h
    · next a s' hxs =>
      -- `x` has returned, so `y` stands where it does
      have hfinal : Steps.final (y >>= g) (abs s) = Steps.final (g a) (abs s') := by
        unfold Steps.final
        rw [Steps.bind_of_ok (hx.ok hxs)]
      rw [hfinal]
      exact (hf a).error h
    · next e' s' hxs =>
      cases h
      exact IsTrans.trans _ _ _ (hx.error hxs) (final_bind (fun a => (hf a).grows) _)

end WritesAs

theorem writesAs_writeAll {abs : S → T} {le : T → T → Prop} [IsPreorder T le] {w : β → EStateM ε S Unit}
    {w' : β → EStateM ε T Unit} (h : ∀ b, WritesAs abs le (w b) (w' b)) :
    ∀ bs, WritesAs abs le (writeAll w bs) (writeAll w' bs)
  | [] => .pure ()
  | b :: bs => (h b).bind fun _ => writesAs_writeAll h bs

end ShuzaGram.Infra

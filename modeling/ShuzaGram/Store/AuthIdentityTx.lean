import ShuzaGram.Store.DbCalls

/-!
# Transactions that are tried again

`WithAuthIdentityTx` of `store/postgres/auth_identity_lock.cpp`.
-/

namespace ShuzaGram.Store

open Domain

/-- `IsRetryableSerializationError`: a deadlock or a serialization failure. -/
def isRetryableSerializationError (sqlstate : String) : Bool := sqlstate = "40P01" || sqlstate = "40001"

/-- Whether a failed attempt is followed by another round of the loop. -/
def retries (attempt : Nat) : Exn → Bool
  | .authIdentityChanged => true
  | .sqlError sqlstate => attempt + 1 < authIdentityTxMaxAttempts && isRetryableSerializationError sqlstate
  | _ => false

/-- What the loop throws when its rounds are over. -/
def notStabilized (op : String) : Exn :=
  .storeError s!"{op} did not stabilize after {authIdentityTxMaxAttempts} attempts"

/-- The rounds of the loop from `attempt` on, of which `left` are left, each at its own moment. -/
def attemptsFrom {α : Type} (op : String) (tx : Stores → Except Exn (α × Stores)) (moments : Nat → Moment) :
    (left attempt : Nat) → Stores → Except Exn α × Stores
  | 0, _, s => (.error (notStabilized op), s)
  | left + 1, attempt, s =>
    match write tx (atMoment (moments attempt) s) with
    | (.ok a, s') => (.ok a, s')
    | (.error e, s') => if retries attempt e then attemptsFrom op tx moments left (attempt + 1) s' else (.error e, s')

/-- `WithAuthIdentityTx`. -/
def withAuthIdentityTx {α : Type} (op : String) (tx : Stores → Except Exn (α × Stores)) (moments : Nat → Moment) :
    Stores → Except Exn α × Stores :=
  attemptsFrom op tx moments authIdentityTxMaxAttempts 0

/-- **A call that throws leaves the stores alone; one that does not has committed one of its attempts** in the
stores as they were. -/
theorem attemptsFrom_cases {α : Type} (op : String) (tx : Stores → Except Exn (α × Stores)) (moments : Nat → Moment)
    (left attempt : Nat) (s : Stores) :
    (∃ e m, attemptsFrom op tx moments left attempt s = (.error e, atMoment m s)) ∨
      ∃ a m s', tx (atMoment m s) = .ok (a, s') ∧ attemptsFrom op tx moments left attempt s = (.ok a, s') := by
  induction left generalizing attempt s with
  | zero => exact .inl ⟨_, s.moment, rfl⟩
  | succ left ih =>
    rw [attemptsFrom]
    rcases write_cases tx (atMoment (moments attempt) s) with ⟨e, hw⟩ | ⟨a, s', hok, hw⟩
    · rw [hw]
      simp only
      split
      · -- the next round starts from the same tables
        rcases ih (attempt + 1) (atMoment (moments attempt) s) with ⟨e', m, h⟩ | ⟨a, m, s', hok, h⟩
        · exact .inl ⟨e', m, h⟩
        · exact .inr ⟨a, m, s', hok, h⟩
      · exact .inl ⟨e, moments attempt, rfl⟩
    · rw [hw]
      exact .inr ⟨a, moments attempt, s', hok, rfl⟩

/-- While nothing changes, the rounds of the loop are all the same. -/
theorem attemptsFrom_still {α : Type} {op : String} {tx : Stores → Except Exn (α × Stores)} {s : Stores}
    (h : (write tx s).1 ≠ .error .authIdentityChanged) :
    ∀ (left attempt : Nat), left + attempt = authIdentityTxMaxAttempts → 0 < left →
      attemptsFrom op tx (fun _ => s.moment) left attempt s = write tx s := by
  intro left
  induction left with
  | zero => exact fun _ _ hpos => absurd hpos (Nat.lt_irrefl 0)
  | succ left ih =>
    intro attempt hcount _
    rw [attemptsFrom, show atMoment s.moment s = s from rfl]
    rcases write_cases tx s with ⟨e, hw⟩ | ⟨a, s', -, hw⟩
    · rw [hw] at h ih ⊢
      simp only
      cases hretries : retries attempt e with
      | false => rfl
      | true =>
        -- a retry leaves a round
        have hround : attempt + 1 < authIdentityTxMaxAttempts := by
          unfold retries at hretries
          split at hretries
          · exact absurd rfl h
          · simpa using (Bool.and_eq_true_iff.mp hretries).1
          · cases hretries
        exact ih (attempt + 1) (by omega) (by omega)
    · rw [hw]

theorem withAuthIdentityTx_cases {α : Type} (op : String) (tx : Stores → Except Exn (α × Stores))
    (moments : Nat → Moment) (s : Stores) :
    (∃ e m, withAuthIdentityTx op tx moments s = (.error e, atMoment m s)) ∨
      ∃ a m s', tx (atMoment m s) = .ok (a, s') ∧ withAuthIdentityTx op tx moments s = (.ok a, s') :=
  attemptsFrom_cases op tx moments authIdentityTxMaxAttempts 0 s

end ShuzaGram.Store

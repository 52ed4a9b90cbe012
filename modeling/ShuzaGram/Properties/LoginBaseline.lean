import ShuzaGram.Store.AuthIdentityTx

/-!
# The baseline of a login

`Bind` logs a key in and starts its update delivery at the watermark of the account. It does so from every state of
the tables, or it throws and changes nothing.
-/

namespace ShuzaGram.Store

open Infra Domain Mtproto.Crypto

namespace Stores

/-- `contiguous_pts` of the account; a missing row is 0. -/
def contiguousPts (s : Stores) (userId : Int64) : Int := (s.watermarks.find userId).getD 0

/-- `retained_through_pts` of the account; a missing row is 0. -/
def retainedThroughPts (s : Stores) (userId : Int64) : Int := (s.retention.find userId).getD 0

/-- The tables that a login writes are the same. -/
structure SameLogins (s s' : Stores) : Prop where
  authorizations : s'.authorizations = s.authorizations
  updateStates : s'.updateStates = s.updateStates
  watermarks : s'.watermarks = s.watermarks
  retention : s'.retention = s.retention

/-- The delivery state `st` follows `old`, the previous one of the same key and account. -/
structure Follows (old st : UpdateState) : Prop where
  pts : old.pts ≤ st.pts
  qts : old.qts ≤ st.qts
  date : old.date ≤ st.date
  seq : old.seq ≤ st.seq
  observedPts : old.observedPts ≤ st.observedPts

/-- The stores after the login `a`. -/
structure SetsBaseline (a : Authorization) (s s' : Stores) : Prop where
  live : s.Live a.userId
  /-- The key is permanent, and its one row is the login. -/
  login : ∃ key row, s.authKeys.find a.authKeyId = some key ∧ key.expiresAt = 0 ∧
    s'.authorizations.rows.filter (fun r => r.1 = a.authKeyId) = [(a.authKeyId, row)] ∧
    row.userId = a.userId ∧ row.passwordPending = a.passwordPending ∧ row.layer = key.layer
  /-- The one delivery state of the key starts at the watermark. -/
  baseline : ∃ st, s'.updateStates.rows.filter (fun r => r.1.1 = a.authKeyId) = [((a.authKeyId, a.userId), st)] ∧
    st.pts = s.contiguousPts a.userId ∧ s'.watermarks.find a.userId = some st.pts ∧
    s'.retention.find a.userId = some (s.retainedThroughPts a.userId) ∧
    st.observedPts ≤ st.pts ∧
    match s.updateStates.find (a.authKeyId, a.userId) with
    | none => st.observedPts = s.retainedThroughPts a.userId
    | some old => st.observedPts = max old.observedPts (s.retainedThroughPts a.userId) ∧ Follows old st
  otherLogins : ∀ k ≠ a.authKeyId, s'.authorizations.find k = s.authorizations.find k
  otherStates : ∀ k ≠ a.authKeyId, ∀ u, s'.updateStates.find (k, u) = s.updateStates.find (k, u)

/-! ## One transaction -/

variable {s s' : Stores}

theorem bindGuard_eq_ok {userId : Int64} {authKeyId : Arr 8} {layer : Int}
    (h : s.bindGuard userId authKeyId = .ok layer) :
    s.Live userId ∧ ∃ key, s.authKeys.find authKeyId = some key ∧ key.expiresAt = 0 ∧ key.layer = layer := by
  unfold bindGuard at h
  simp only [bind, Except.bind, pure, Except.pure, throw, throwThe, MonadExceptOf.throw] at h
  cases hu : s.users.find userId with
  | none =>
    rw [hu] at h
    cases h
  | some u =>
    rw [hu] at h
    simp only at h
    cases hdel : u.deleted with
    | true =>
      rw [hdel] at h
      cases h
    | false =>
      rw [hdel] at h
      cases hk : s.authKeys.find authKeyId with
      | none =>
        rw [hk] at h
        cases h
      | some key =>
        rw [hk] at h
        by_cases hexpires : key.expiresAt ≠ 0
        · simp only [if_pos hexpires] at h
          cases h
        · by_cases hbroken : key.layer < 0 ∨ key.layerObservationId < 0 ∨ key.layerObservationId > 0 ∧ key.layer = 0
          · simp only [if_neg hexpires, if_pos hbroken] at h
            cases h
          · simp only [if_neg hexpires, if_neg hbroken] at h
            exact ⟨⟨u, hu, hdel⟩, key, rfl, Decidable.not_not.mp hexpires, Except.ok.inj h⟩

/-- The delivery state that a login leaves, from the one before. -/
inductive Baseline (s : Stores) (userId : Int64) (authKeyId : Arr 8) (st : UpdateState) : Prop where
  | first (hfind : s.updateStates.find (authKeyId, userId) = none) (hpts : st.pts = s.contiguousPts userId)
      (hobserved : st.observedPts = s.retainedThroughPts userId)
  | next (old : UpdateState) (hfind : s.updateStates.find (authKeyId, userId) = some old)
      (hpts : st.pts = s.contiguousPts userId)
      (hobserved : st.observedPts = max old.observedPts (s.retainedThroughPts userId))
      (hold : old.observedPts ≤ s.contiguousPts userId) (hfollows : Follows old st)

theorem bindBaseline_sets {userId : Int64} {authKeyId : Arr 8} (h : s.bindBaseline userId authKeyId = .ok s') :
    s.retainedThroughPts userId ≤ s.contiguousPts userId ∧ ∃ st, Baseline s userId authKeyId st ∧
      s' =
        { s with
          watermarks := s.watermarks.upsert userId (s.contiguousPts userId)
          retention := s.retention.upsert userId (s.retainedThroughPts userId)
          updateStates := (s.updateStates.upsert (authKeyId, userId) st).eraseBy fun r =>
            r.1.1 = authKeyId && r.1.2 ≠ userId } := by
  unfold bindBaseline at h
  simp only [bind, Except.bind, pure, Except.pure, throw, throwThe, MonadExceptOf.throw] at h
  split at h
  · cases h
  · next hfloor =>
    refine ⟨Int.not_lt.mp hfloor, ?_⟩
    cases hfind : s.updateStates.find (authKeyId, userId) with
    | none =>
      rw [hfind] at h
      cases h
      exact ⟨_, .first hfind rfl rfl, rfl⟩
    | some old =>
      rw [hfind] at h
      simp only at h
      split at h
      · next hlegal =>
        cases h
        refine ⟨_, .next old hfind (Int.max_eq_right hlegal.2.1) rfl hlegal.2.2 ⟨?_, ?_, ?_, ?_, ?_⟩, rfl⟩
        all_goals exact Int.le_max_left _ _
      · cases h

/-- The one state that a login leaves to its key. -/
theorem filter_rows_movedStates (t : Table (Arr 8 × Int64) UpdateState) (authKeyId : Arr 8) (userId : Int64)
    (st : UpdateState) :
    (((t.upsert (authKeyId, userId) st).eraseBy fun r => r.1.1 = authKeyId && r.1.2 ≠ userId).rows.filter
      fun r => r.1.1 = authKeyId) = [((authKeyId, userId), st)] := by
  refine Table.filter_rows_eq_singleton fun x => ?_
  obtain ⟨⟨k, u⟩, r⟩ := x
  rw [← Table.find_eq_some_iff]
  simp only [Table.find_eraseBy, Table.find_upsert, decide_eq_true_eq, Prod.mk.injEq]
  constructor
  · rintro ⟨hfind, rfl⟩
    rw [Option.filter_eq_some_iff] at hfind
    have hu : u = userId := by simpa using hfind.2
    subst hu
    rw [if_pos ⟨rfl, rfl⟩] at hfind
    exact ⟨⟨rfl, rfl⟩, (Option.some.inj hfind.1).symm⟩
  · rintro ⟨⟨rfl, rfl⟩, rfl⟩
    rw [if_pos ⟨rfl, rfl⟩]
    simp

theorem authorizationsBind_sets {P : Primitives} {a : Authorization} (h : authorizationsBind P a s = .ok ((), s')) :
    SetsBaseline a s s' := by
  obtain ⟨layer, s₁, hguard, hbase, rfl⟩ := authorizationsBind_inv P h
  obtain ⟨hlive, key, hkey, hpermanent, rfl⟩ := bindGuard_eq_ok hguard
  obtain ⟨hfloor, st, hst, rfl⟩ := bindBaseline_sets hbase
  refine ⟨hlive, ⟨key, authorizationRow P a key.layer s.moment.now, hkey, hpermanent, ?_, rfl, rfl, rfl⟩,
    ⟨st, ?_, ?_⟩, fun k hk => ?_, fun k hk u => ?_⟩
  · exact Table.filter_rows_upsert _ _ _
  · exact filter_rows_movedStates _ _ _ _
  · have hwatermark : (s.watermarks.upsert a.userId (s.contiguousPts a.userId)).find a.userId =
        some (s.contiguousPts a.userId) := by rw [Table.find_upsert, if_pos rfl]
    have hretention : (s.retention.upsert a.userId (s.retainedThroughPts a.userId)).find a.userId =
        some (s.retainedThroughPts a.userId) := by rw [Table.find_upsert, if_pos rfl]
    -- the key has its first state for the account, or the next one
    cases hst with
    | first hfind hpts hobserved =>
      rw [hfind, hpts, hobserved]
      exact ⟨rfl, hwatermark, hretention, hfloor, rfl⟩
    | next old hfind hpts hobserved hold hfollows =>
      rw [hfind, hpts, hobserved]
      exact ⟨rfl, hwatermark, hretention, Int.max_le.mpr ⟨hold, hfloor⟩, rfl, hfollows⟩
  · show (s.authorizations.upsert _ _).find k = _
    rw [Table.find_upsert, if_neg hk]
  · simp only [Table.find_eraseBy, Table.find_upsert, Prod.mk.injEq, if_neg (not_and_of_not_left _ hk)]
    simp only [hk, decide_false, Bool.false_and, Bool.not_false]
    cases s.updateStates.find (k, u) <;> rfl

/-! ## Every login -/

/-- A delivery state of the key and the account lies beyond the watermark, or the retained floor does. -/
def BeyondWatermark (a : Authorization) (s : Stores) : Prop :=
  (∃ old, s.updateStates.find (a.authKeyId, a.userId) = some old ∧
    (s.contiguousPts a.userId < old.pts ∨ s.contiguousPts a.userId < old.observedPts)) ∨
  s.contiguousPts a.userId < s.retainedThroughPts a.userId

/-- What a login leaves is never beyond the watermark, so nothing was before. -/
theorem SetsBaseline.not_beyond {a : Authorization} (h : SetsBaseline a s s') : ¬BeyondWatermark a s := by
  obtain ⟨st, -, hpts, -, -, hobserved, hprevious⟩ := h.baseline
  rintro (⟨old, hold, hbeyond⟩ | hfloor)
  · rw [hold] at hprevious
    have hpts' := hprevious.2.pts
    have hobserved' := hprevious.2.observedPts
    omega
  · cases hold : s.updateStates.find (a.authKeyId, a.userId) with
    | none =>
      rw [hold] at hprevious
      simp only at hprevious
      omega
    | some old =>
      rw [hold] at hprevious
      have hmax := hprevious.1
      omega

end Stores

open Stores

/-- A login does not wait for the identity of a temporary key. -/
theorem authorizationsBind_ne_authIdentityChanged (P : Primitives) (a : Authorization) (s : Stores) :
    (write (authorizationsBind P a) s).1 ≠ .error .authIdentityChanged := by
  unfold write
  cases s.moment.fault with
  | some state =>
    intro h
    cases h
  | none =>
    unfold authorizationsBind bindGuard bindBaseline
    simp only [bind, Except.bind, pure, Except.pure, throw, throwThe, MonadExceptOf.throw]
    grind

/-- The call of the store is that loop, at one moment. -/
theorem exec_authorizationsBind (P : Primitives) (a : Authorization) (s : Stores) :
    (StoreCall.authorizationsBind a).exec P s =
      withAuthIdentityTx "bind authorization" (authorizationsBind P a) (fun _ => s.moment) s := by
  exact (attemptsFrom_still (authorizationsBind_ne_authIdentityChanged P a s) _ 0 rfl (by decide)).symm

/-- **A login sets a legal baseline or nothing,** from every state of the tables; a delivery state or a retained floor
beyond the watermark is never accepted. The call of the store is the loop of attempts at one moment. -/
theorem bind_setsBaseline (P : Primitives) (a : Authorization) (moments : Nat → Moment) (s : Stores) :
    let outcome := withAuthIdentityTx "bind authorization" (authorizationsBind P a) moments s
    ((∃ e, outcome.1 = .error e) ∧ SameLogins s outcome.2 ∨ outcome.1 = .ok () ∧ SetsBaseline a s outcome.2) ∧
      (BeyondWatermark a s → ∃ e, outcome.1 = .error e) ∧
      (moments = (fun _ => s.moment) → (StoreCall.authorizationsBind a).exec P s = outcome) := by
  intro outcome
  have hcases : (∃ e, outcome.1 = .error e) ∧ SameLogins s outcome.2 ∨
      outcome.1 = .ok () ∧ SetsBaseline a s outcome.2 := by
    rcases withAuthIdentityTx_cases "bind authorization" (authorizationsBind P a) moments s with
      ⟨e, m, h⟩ | ⟨_, m, s', hok, h⟩
    · refine .inl ?_
      simp only [outcome, h]
      exact ⟨⟨e, rfl⟩, rfl, rfl, rfl, rfl⟩
    · refine .inr ?_
      simp only [outcome, h]
      -- the clock is no part of the tables
      obtain ⟨hlive, hlogin, hbaseline, hothers, hstates⟩ := authorizationsBind_sets hok
      exact ⟨trivial, hlive, hlogin, hbaseline, hothers, hstates⟩
  refine ⟨hcases, fun hbeyond => ?_, fun hstill => ?_⟩
  · rcases hcases with ⟨herror, -⟩ | ⟨-, hsets⟩
    · exact herror
    · exact absurd hbeyond hsets.not_beyond
  · simp only [outcome, hstill]
    exact exec_authorizationsBind P a s

end ShuzaGram.Store

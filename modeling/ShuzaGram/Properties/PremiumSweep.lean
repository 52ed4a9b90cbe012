import ShuzaGram.Store.UserMutations

/-!
# The premium sweep

`SweepExpiredPremium` clears the expiry of the live accounts whose premium has run out, the earliest first and no
more than its limit. The database is free to choose among equal expiries and in which order it returns the rows, so
a sweep is a relation here (`SweepsTo`), and what the store does is one of its outcomes (`sweepsTo_of_exec`). Where the
database does not fail, the store always has one (`exec_sweep_ok`).

The column is NULL or positive, as `Create` and `SetPremiumUntil` write it, and 0 stands for NULL.

* `sweepsTo_expired` — one sweep: what it returns and what is left make up what was expired
* `Drain` — sweeps until one returns nothing
-/

namespace ShuzaGram.Store

open Infra Domain

namespace Stores

/-- `premium_expires_at IS NOT NULL AND deleted_at IS NULL AND premium_expires_at <= now`. -/
def Expired (now : Int) (r : User) : Prop := r.premiumUntil ≠ 0 ∧ r.deleted = false ∧ r.premiumUntil ≤ now

instance (now : Int) (r : User) : Decidable (Expired now r) := by
  unfold Expired
  infer_instance

/-- The live accounts whose premium has expired. -/
def expiredRows (s : Stores) (now : Int) : List (Int64 × User) := s.users.rows.filter fun r => Expired now r.2

/-- The expiry of some accounts, cleared. -/
def clearPremium (s : Stores) (ids : List Int64) : Stores :=
  { s with users := s.users.modifyBy (fun r => ids.contains r.1) fun r => { r with premiumUntil := 0 } }

/-- The subquery gives the first `limit` rows in an order by expiry. -/
def SweepPicks (s : Stores) (now : Int) (limit : Nat) (ids : List Int64) : Prop :=
  ∃ ordered : List (Int64 × User), ordered.Perm (s.expiredRows now) ∧
    ordered.Pairwise (fun a b => a.2.premiumUntil ≤ b.2.premiumUntil) ∧ ids = (ordered.take limit).map Prod.fst

/-- A sweep: the accounts that were picked are cleared, and returned as they are then, in any order. -/
def SweepsTo (now : Int) (limit : Nat) (s : Stores) (out : List User) (s' : Stores) : Prop :=
  ∃ ids, s.SweepPicks now limit ids ∧ s' = s.clearPremium ids ∧
    out.Perm ((s'.users.rows.filter fun r => ids.contains r.1).map rowToUser)

/-- Sorted by expiry, the earliest first. -/
theorem pairwise_byExpiry (rows : List (Int64 × User)) :
    (rows.mergeSort fun a b => decide (a.2.premiumUntil ≤ b.2.premiumUntil)).Pairwise
      fun a b => a.2.premiumUntil ≤ b.2.premiumUntil := by
  refine (List.pairwise_mergeSort ?_ ?_ rows).imp fun h => of_decide_eq_true h
  · intro a b c hab hbc
    exact decide_eq_true (Int.le_trans (of_decide_eq_true hab) (of_decide_eq_true hbc))
  · intro a b
    rcases Int.le_total a.2.premiumUntil b.2.premiumUntil with h | h <;> simp [h]

/-- A sweep of the store that returns. -/
def Sweeps (now limit : Int) (s : Stores) (out : List User) (s' : Stores) : Prop :=
  UserMutation.exec (.sweepExpiredPremium now limit) s = (.ok out, s')

/-- Where the database does not fail, the store returns, and the next sweep will too. -/
theorem exec_sweep_ok {s : Stores} (hworks : s.moment.fault = none) (now limit : Int) :
    ∃ out s', Sweeps now limit s out s' ∧ s'.moment = s.moment := by
  by_cases hlimit : limit ≤ 0
  · exact ⟨[], s, by rw [Sweeps, UserMutation.exec, if_pos hlimit], rfl⟩
  · have hexec : UserMutation.exec (.sweepExpiredPremium now limit) s =
        write (usersSweepExpiredPremium now limit.toNat) s := by rw [UserMutation.exec, if_neg hlimit]
    rw [write, hworks] at hexec
    exact ⟨_, _, hexec, rfl⟩

/-- What the store does is one of the outcomes. -/
theorem sweepsTo_of_exec {s s' : Stores} {now limit : Int} {out : List User} (hlimit : 0 < limit)
    (h : Sweeps now limit s out s') : SweepsTo now limit.toNat s out s' := by
  have hfilter : (s.users.rows.filter fun r => r.2.premiumUntil ≠ 0 && !r.2.deleted && r.2.premiumUntil ≤ now) =
      s.expiredRows now := by
    refine List.filter_congr fun r _ => ?_
    rw [Bool.eq_iff_iff, decide_eq_true_iff]
    simp [Expired, and_assoc]
  have hpicks : s.SweepPicks now limit.toNat (s.expiredPremium now limit.toNat) := by
    refine ⟨_, List.mergeSort_perm _ _, pairwise_byExpiry _, ?_⟩
    rw [expiredPremium, hfilter]
  have hwrite : write (usersSweepExpiredPremium now limit.toNat) s = (.ok out, s') := by
    rw [Sweeps] at h
    rw [← h, UserMutation.exec, if_neg (Int.not_le.mpr hlimit)]
  unfold write at hwrite
  cases hfault : s.moment.fault with
  | some state =>
    rw [hfault] at hwrite
    cases hwrite
  | none =>
    rw [hfault] at hwrite
    cases hwrite
    exact ⟨_, hpicks, rfl, List.Perm.refl _⟩

/-! ## One sweep -/

theorem mem_expiredRows {s : Stores} {now : Int} {r : Int64 × User} :
    r ∈ s.expiredRows now ↔ s.users.find r.1 = some r.2 ∧ Expired now r.2 := by
  rw [expiredRows, List.mem_filter, Table.find_eq_some_iff, decide_eq_true_eq]

theorem nodup_expiredRows (s : Stores) (now : Int) : ((s.expiredRows now).map Prod.fst).Nodup :=
  (List.filter_sublist.map Prod.fst).nodup s.users.nodup

/-- Rows under distinct keys, without the first of them. -/
theorem filter_not_taken {rows : List (Int64 × User)} (h : (rows.map Prod.fst).Nodup) (n : Nat) :
    (rows.filter fun r => !((rows.take n).map Prod.fst).contains r.1) = rows.drop n := by
  have hsplit : rows = rows.take n ++ rows.drop n := (List.take_append_drop n rows).symm
  have hdisjoint : ∀ r ∈ rows.drop n, r.1 ∉ (rows.take n).map Prod.fst := by
    intro r hr hmem
    rw [hsplit, List.map_append] at h
    exact (List.nodup_append.mp h).2.2 r.1 hmem r.1 (List.mem_map_of_mem hr) rfl
  generalize htaken : (rows.take n).map Prod.fst = taken at hdisjoint
  conv => lhs; rw [hsplit]
  rw [List.filter_append, List.filter_eq_nil_iff.mpr, List.filter_eq_self.mpr, List.nil_append]
  · intro r hr
    simp [hdisjoint r hr]
  · intro r hr
    have hmem : r.1 ∈ taken := htaken ▸ List.mem_map_of_mem hr
    simp [hmem]

section Sweep

variable {s s' : Stores} {now : Int} {limit : Nat} {ids : List Int64} {out : List User}

/-- The accounts that are picked: as many as there are and the limit allows, different, and all expired. -/
theorem SweepPicks.spec (h : s.SweepPicks now limit ids) :
    ids.length = min limit (s.expiredRows now).length ∧ ids.Nodup ∧ ids ⊆ (s.expiredRows now).map Prod.fst := by
  obtain ⟨ordered, hperm, -, rfl⟩ := h
  have hnodup : (ordered.map Prod.fst).Nodup := (hperm.map Prod.fst).nodup_iff.mpr (nodup_expiredRows s now)
  refine ⟨by rw [List.length_map, List.length_take, hperm.length_eq], ?_, ?_⟩
  · exact ((List.take_sublist _ _).map Prod.fst).nodup hnodup
  · intro id hid
    exact (hperm.map Prod.fst).subset (((List.take_sublist _ _).map Prod.fst).subset hid)

theorem find_clearPremium (id : Int64) :
    (s.clearPremium ids).users.find id =
      (s.users.find id).map fun r => if ids.contains id then { r with premiumUntil := 0 } else r :=
  Table.find_modifyBy _ _ _ _

/-- What was expired is no longer so once it is cleared, and nothing else changes. -/
theorem expiredRows_clearPremium :
    (s.clearPremium ids).expiredRows now = (s.expiredRows now).filter fun r => !ids.contains r.1 := by
  have hrow : ∀ r : Int64 × User,
      (decide (Expired now (if ids.contains r.1 then (r.1, { r.2 with premiumUntil := 0 }) else r).2)) =
        (decide (Expired now r.2) && !ids.contains r.1) := by
    intro r
    cases hid : ids.contains r.1 with
    | true => simp [Expired]
    | false => simp
  have hkept : ∀ r ∈ s.users.rows.filter (fun r => decide (Expired now r.2) && !ids.contains r.1),
      (if ids.contains r.1 then (r.1, { r.2 with premiumUntil := 0 }) else r) = r := by
    intro r hr
    have hnot := (List.mem_filter.mp hr).2
    rw [Bool.and_eq_true, Bool.not_eq_true'] at hnot
    rw [if_neg (by rw [hnot.2]; exact Bool.false_ne_true)]
  rw [expiredRows, expiredRows, clearPremium, Table.modifyBy, List.filter_map, List.filter_filter]
  simp only [Function.comp_def, hrow]
  rw [List.map_congr_left hkept, List.map_id']
  refine List.filter_congr fun r _ => Bool.and_comm _ _

/-- What a sweep picks and what is left expired make up what was expired. -/
theorem sweepPicks_expired (h : s.SweepPicks now limit ids) :
    (ids ++ ((s.clearPremium ids).expiredRows now).map Prod.fst).Perm ((s.expiredRows now).map Prod.fst) := by
  obtain ⟨ordered, hperm, -, rfl⟩ := h
  have hnodup : (ordered.map Prod.fst).Nodup := (hperm.map Prod.fst).nodup_iff.mpr (nodup_expiredRows s now)
  rw [expiredRows_clearPremium]
  have hleft := ((hperm.symm.filter fun r => !((ordered.take limit).map Prod.fst).contains r.1).map Prod.fst)
  rw [filter_not_taken hnodup limit] at hleft
  have hwhole : (ordered.take limit).map Prod.fst ++ (ordered.drop limit).map Prod.fst = ordered.map Prod.fst := by
    rw [← List.map_append, List.take_append_drop]
  exact (hleft.append_left _).trans (hwhole ▸ hperm.map Prod.fst)

theorem keys_clearPremium (s : Stores) (ids : List Int64) :
    (s.clearPremium ids).users.rows.map Prod.fst = s.users.rows.map Prod.fst := by
  rw [clearPremium, Table.modifyBy, List.map_map]
  refine List.map_congr_left fun r _ => ?_
  simp only [Function.comp]
  split <;> rfl

/-- Each cleared account is returned once. -/
theorem SweepPicks.returned (h : s.SweepPicks now limit ids)
    (hout : out.Perm (((s.clearPremium ids).users.rows.filter fun r => ids.contains r.1).map rowToUser)) :
    (out.map User.id).Perm ids := by
  obtain ⟨-, hnodup, hsub⟩ := h.spec
  have hids : (((s.clearPremium ids).users.rows.filter fun r => ids.contains r.1).map rowToUser).map User.id =
      (s.users.rows.map Prod.fst).filter ids.contains := by
    rw [← keys_clearPremium s ids, List.filter_map, List.map_map]
    exact List.map_congr_left fun r _ => id_rowToUser r
  refine (hout.map User.id).trans ?_
  rw [hids, List.perm_ext_iff_of_nodup (s.users.nodup.filter _) hnodup]
  intro id
  rw [List.mem_filter, List.contains_iff_mem]
  refine ⟨fun h => h.2, fun hid => ⟨?_, hid⟩⟩
  exact (List.filter_sublist.map Prod.fst).subset (hsub hid)

/-! ## Readers -/

theorem premiumActiveAt_rowToUser (id : Int64) (r : User) (t : Int) :
    (rowToUser (id, r)).premiumActiveAt t = (!r.deleted && r.premiumActiveAt t) := by
  cases hdeleted : r.deleted <;> simp [rowToUser, User.deletedTombstone, User.premiumActiveAt, hdeleted]

/-- An expired account is premium to nobody from then on, and nor is it once its expiry is cleared. -/
theorem not_premiumActiveAt_of_expired {r : User} (h : Expired now r) {t : Int} (ht : now ≤ t) :
    r.premiumActiveAt t = false ∧ { r with premiumUntil := 0 }.premiumActiveAt t = false := by
  have hpast : ¬r.premiumUntil > t := by
    have := h.2.2
    omega
  simp [User.premiumActiveAt, hpast]

theorem emojiStatusActiveAt_of_not_premium {u : User} {t : Int} (h : u.premiumActiveAt t = false) :
    u.emojiStatusActiveAt t = false := by
  simp [User.emojiStatusActiveAt, h]

/-- Readers from then on see no difference. -/
theorem SweepPicks.invisible (h : s.SweepPicks now limit ids) (id : Int64) {t : Int} (ht : now ≤ t) :
    ((s.clearPremium ids).usersById id).map (fun u => (u.premiumActiveAt t, u.emojiStatusActiveAt t)) =
      (s.usersById id).map fun u => (u.premiumActiveAt t, u.emojiStatusActiveAt t) := by
  obtain ⟨-, -, hsub⟩ := h.spec
  rw [usersById, usersById, find_clearPremium]
  cases hfind : s.users.find id with
  | none => rfl
  | some r =>
    by_cases hid : ids.contains id = true
    · obtain ⟨⟨id', r'⟩, hmem, hkey⟩ := List.mem_map.mp (hsub (List.contains_iff_mem.mp hid))
      obtain ⟨hfind', hexpired'⟩ := mem_expiredRows.mp hmem
      have hrow : r' = r := Option.some.inj (hfind'.symm.trans ((congrArg s.users.find hkey).trans hfind))
      have hexpired : Expired now r := hrow ▸ hexpired'
      obtain ⟨hbefore, hafter⟩ := not_premiumActiveAt_of_expired hexpired ht
      have hold : (rowToUser (id, r)).premiumActiveAt t = false := by
        rw [premiumActiveAt_rowToUser, hbefore, Bool.and_false]
      have hnew : (rowToUser (id, { r with premiumUntil := 0 })).premiumActiveAt t = false := by
        rw [premiumActiveAt_rowToUser, hafter, Bool.and_false]
      simp only [Option.map_some, hid, if_true, hold, hnew, emojiStatusActiveAt_of_not_premium hold,
        emojiStatusActiveAt_of_not_premium hnew]
    · simp only [Option.map_some, if_neg hid]

end Sweep

/-! ## Sweeps until nothing is returned -/

/-- Sweeps, what each returns, and the stores after the first that returns nothing. -/
inductive Drain (sweep : Stores → List User → Stores → Prop) : Stores → List (List User) → Stores → Prop
  | done {s s'} (h : sweep s [] s') : Drain sweep s [] s'
  | more {s s' s'' out outs} (h : sweep s out s') (hne : out ≠ []) (hrest : Drain sweep s' outs s'') :
    Drain sweep s (out :: outs) s''

theorem Drain.mono {sweep sweep' : Stores → List User → Stores → Prop} {s s' : Stores} {outs : List (List User)}
    (hsweep : ∀ s out s', sweep s out s' → sweep' s out s') (h : Drain sweep s outs s') : Drain sweep' s outs s' := by
  induction h with
  | done h => exact .done (hsweep _ _ _ h)
  | more h hne _ ih => exact .more (hsweep _ _ _ h) hne ih

section Drains

variable {s s' : Stores} {now : Int} {limit : Nat} {out : List User} {outs : List (List User)}

/-- What a sweep returns and what it leaves expired make up what was expired. -/
theorem sweepsTo_expired (h : SweepsTo now limit s out s') :
    (out.map User.id ++ (s'.expiredRows now).map Prod.fst).Perm ((s.expiredRows now).map Prod.fst) := by
  obtain ⟨ids, hpicks, rfl, hout⟩ := h
  exact ((hpicks.returned hout).append_right _).trans (sweepPicks_expired hpicks)

theorem length_sweepsTo (h : SweepsTo now limit s out s') : out.length = min limit (s.expiredRows now).length := by
  obtain ⟨ids, hpicks, rfl, hout⟩ := h
  have hlen := (hpicks.returned hout).length_eq
  rw [List.length_map] at hlen
  exact hlen.trans hpicks.spec.1

theorem length_expiredRows (h : SweepsTo now limit s out s') :
    out.length + (s'.expiredRows now).length = (s.expiredRows now).length := by
  simpa using (sweepsTo_expired h).length_eq

/-- There is always an outcome. -/
theorem exists_sweepsTo (s : Stores) (now : Int) (limit : Nat) : ∃ out s', SweepsTo now limit s out s' := by
  have hpicks : s.SweepPicks now limit _ := ⟨_, List.mergeSort_perm _ _, pairwise_byExpiry _, rfl⟩
  exact ⟨_, _, _, hpicks, rfl, List.Perm.refl _⟩

/-- Sweeping comes to an end: among stores at which there is always an outcome, by induction on what is expired. -/
theorem exists_drain {sweep : Stores → List User → Stores → Prop} {good : Stores → Prop}
    (hsweeps : ∀ s out s', sweep s out s' → SweepsTo now limit s out s')
    (hgoes : ∀ s, good s → ∃ out s', sweep s out s' ∧ good s') (s : Stores) (hs : good s) :
    ∃ outs s', Drain sweep s outs s' := by
  generalize hn : (s.expiredRows now).length = n
  induction n using Nat.strongRecOn generalizing s with
  | ind n ih =>
    obtain ⟨out, s', h, hs'⟩ := hgoes s hs
    by_cases hne : out = []
    · subst hne
      exact ⟨[], s', .done h⟩
    · have hpos : 0 < out.length := List.length_pos_iff.mpr hne
      have hless := length_expiredRows (hsweeps _ _ _ h)
      obtain ⟨outs, s'', hdrain⟩ := ih _ (by omega) s' hs' rfl
      exact ⟨out :: outs, s'', .more h hne hdrain⟩

/-- Sweeps that all return something cannot go on for ever. -/
theorem no_endless_sweeps {run : Nat → Stores} : ¬∀ n, ∃ out, out ≠ [] ∧ SweepsTo now limit (run n) out (run (n + 1)) := by
  intro hrun
  have hcount : ∀ n, n + ((run n).expiredRows now).length ≤ ((run 0).expiredRows now).length := by
    intro n
    induction n with
    | zero => omega
    | succ n ih =>
      obtain ⟨out, hne, h⟩ := hrun n
      have hpos : 0 < out.length := List.length_pos_iff.mpr hne
      have hless := length_expiredRows h
      omega
  have := hcount (((run 0).expiredRows now).length + 1)
  omega

/-- Every expired account has been returned once when a sweep returns nothing. -/
theorem drain_expired (hlimit : 0 < limit) (h : Drain (SweepsTo now limit) s outs s') :
    (outs.flatten.map User.id).Perm ((s.expiredRows now).map Prod.fst) ∧ s'.expiredRows now = [] := by
  induction h with
  | @done s s' h =>
    have hlen := length_sweepsTo h
    have hleft := length_expiredRows h
    simp only [List.length_nil] at hlen hleft
    have hnone : s.expiredRows now = [] := List.eq_nil_of_length_eq_zero (by omega)
    refine ⟨?_, List.eq_nil_of_length_eq_zero (by omega)⟩
    rw [hnone]
    exact List.Perm.refl _
  | more h hne hrest ih =>
    refine ⟨?_, ih.2⟩
    rw [List.flatten_cons, List.map_append]
    exact (ih.1.append_left _).trans (sweepsTo_expired h)

end Drains

/-- **The premium sweep is invisible to readers and drains.** Where the database does not fail, the store sweeps. A sweep
clears as many of the expired accounts as the limit allows, returns each once and changes nothing else, and from then
on nobody reads it off an account; sweeps of the store at one moment come to an end, and have then returned every
expired account once. -/
theorem sweepExpiredPremium_invisible (now : Int) {limit : Nat} (hlimit : 0 < limit) :
    (∀ s : Stores, s.moment.fault = none →
      ∃ out s', UserMutation.exec (.sweepExpiredPremium now limit) s = (.ok out, s')) ∧
    (∀ (s s' : Stores) (out : List User),
      UserMutation.exec (.sweepExpiredPremium now limit) s = (.ok out, s') → SweepsTo now limit s out s') ∧
    (∀ (s s' : Stores) (out : List User), SweepsTo now limit s out s' →
      ∃ ids : List Int64, ids.Nodup ∧ ids.length = min limit (s.expiredRows now).length ∧
        ids ⊆ (s.expiredRows now).map Prod.fst ∧ (out.map User.id).Perm ids ∧ s' = { s with users := s'.users } ∧
        (∀ id, s'.users.find id =
          (s.users.find id).map fun r => if ids.contains id then { r with premiumUntil := 0 } else r) ∧
        ∀ id t, now ≤ t → (s'.usersById id).map (fun u => (u.premiumActiveAt t, u.emojiStatusActiveAt t)) =
          (s.usersById id).map fun u => (u.premiumActiveAt t, u.emojiStatusActiveAt t)) ∧
    (∀ s : Stores, s.moment.fault = none → ∃ outs s', Drain (Sweeps now limit) s outs s' ∧
      (outs.flatten.map User.id).Perm ((s.expiredRows now).map Prod.fst)) ∧
    (∀ s : Stores, ∃ outs s', Drain (SweepsTo now limit) s outs s') ∧
    (∀ run : Nat → Stores, ¬∀ n, ∃ out, out ≠ [] ∧ SweepsTo now limit (run n) out (run (n + 1))) ∧
    ∀ (s s' : Stores) (outs : List (List User)),
      Drain (SweepsTo now limit) s outs s' ∨ Drain (Sweeps now limit) s outs s' →
      (outs.flatten.map User.id).Perm ((s.expiredRows now).map Prod.fst) := by
  have hsweeps : ∀ (s : Stores) (out : List User) (s' : Stores), Sweeps now limit s out s' → SweepsTo now limit s out s' :=
    fun s out s' h => sweepsTo_of_exec (Int.natCast_pos.mpr hlimit) h
  have hdrain : ∀ (s s' : Stores) (outs : List (List User)),
      Drain (SweepsTo now limit) s outs s' ∨ Drain (Sweeps now limit) s outs s' →
      (outs.flatten.map User.id).Perm ((s.expiredRows now).map Prod.fst) :=
    fun s s' outs h => (drain_expired hlimit (h.elim id (Drain.mono hsweeps))).1
  refine ⟨?_, fun s s' out h => hsweeps s out s' h, ?_, ?_, ?_, fun _ => no_endless_sweeps, hdrain⟩
  · intro s hworks
    obtain ⟨out, s', h, -⟩ := exec_sweep_ok hworks now limit
    exact ⟨out, s', h⟩
  · rintro s s' out ⟨ids, hpicks, rfl, hout⟩
    obtain ⟨hlen, hnodup, hsub⟩ := hpicks.spec
    exact ⟨ids, hnodup, hlen, hsub, hpicks.returned hout, rfl, find_clearPremium,
      fun id t ht => hpicks.invisible id ht⟩
  · intro s hworks
    have hgoes : ∀ s : Stores, s.moment.fault = none →
        ∃ out s', Sweeps now limit s out s' ∧ s'.moment.fault = none := by
      intro s hworks
      obtain ⟨out, s', h, hmoment⟩ := exec_sweep_ok hworks now limit
      exact ⟨out, s', h, by rw [hmoment, hworks]⟩
    obtain ⟨outs, s', h⟩ := exists_drain hsweeps hgoes s hworks
    exact ⟨outs, s', h, hdrain s s' outs (.inr h)⟩
  · intro s
    have hgoes : ∀ s : Stores, True → ∃ out s', SweepsTo now limit s out s' ∧ True := by
      intro s _
      obtain ⟨out, s', h⟩ := exists_sweepsTo s now limit
      exact ⟨out, s', h, trivial⟩
    exact exists_drain (fun _ _ _ h => h) hgoes s trivial

/-- Two accounts whose premium ran out at the same second. -/
def twoExpired : Stores :=
  { Stores.empty { now := 0, newUserId := 0 } with
    users := (Table.empty.upsert 7 { premiumUntil := 100 }).upsert 8 { premiumUntil := 100 } }

theorem sweepExpiredPremium_invisible_oneAtATime :
    ∃ outs s', Drain (Sweeps 100 1) twoExpired outs s' ∧ (outs.flatten.map User.id).Perm [7, 8] := by
  obtain ⟨-, -, -, hdrains, -⟩ := sweepExpiredPremium_invisible 100 (show 0 < 1 by decide)
  exact hdrains twoExpired rfl

end Stores

end ShuzaGram.Store

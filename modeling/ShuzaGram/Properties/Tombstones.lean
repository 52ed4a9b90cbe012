import ShuzaGram.Store.UserMutations

/-!
# Deleted accounts

A deleted account stays as it is, and a change of an account is local: it changes its own columns of the account
that it names. `SetScamFake` alone looks its row up without asking whether the account is live.
-/

namespace ShuzaGram.Store

open Infra Domain

namespace UserMutation

/-! ## What an operation may do -/

/-- The rows differ in the columns of the operation only. -/
def Touches (op : UserMutation) (before after : User) : Prop :=
  match op with
  | setPremiumUntil .. | sweepExpiredPremium .. => after = { before with premiumUntil := after.premiumUntil }
  | setVerified .. => after = { before with verified := after.verified }
  | setSupport .. => after = { before with support := after.support }
  | updateLastSeen .. => after = { before with lastSeenAt := after.lastSeenAt }
  | updateProfile .. =>
    after = { before with firstName := after.firstName, lastName := after.lastName, about := after.about }
  | updateUsername .. => after = { before with username := after.username }
  | updatePhone .. => after = { before with phone := after.phone }
  | setScamFake .. => after = { before with scam := after.scam, fake := after.fake }
  | updateEmojiStatus .. =>
    after =
      { before with
        emojiStatusDocumentId := after.emojiStatusDocumentId
        emojiStatusUntil := after.emojiStatusUntil
        emojiStatusCollectible := after.emojiStatusCollectible }
  | updateBirthday .. => after = { before with birthday := after.birthday }
  | updatePersonalChannel .. => after = { before with personalChannelId := after.personalChannelId }
  | updateColor _ forProfile _ =>
    after = if forProfile then { before with profileColor := after.profileColor } else { before with color := after.color }

/-- The answer for nobody's account: an exception, and from `UpdateLastSeen` nothing. -/
def Refused (op : UserMutation) (s : Stores) : Prop :=
  match op with
  | updateLastSeen id t => s.moment.fault = none → ((updateLastSeen id t).exec s).1 = .ok ()
  | _ => ∃ e, (op.exec s).1 = .error e

/-- Deleted accounts stay as they are, and the change is local. -/
structure KeepsTombstones (op : UserMutation) (s : Stores) : Prop where
  tombstones : ∀ id r, s.users.find id = some r → r.deleted = true → (op.exec s).2.users.find id = some r
  others : ∀ id, op.userId = some id → ∀ id' ≠ id, (op.exec s).2.users.find id' = s.users.find id'
  own : ∀ id, op.userId = some id → ∀ before, s.users.find id = some before →
    ∃ after, (op.exec s).2.users.find id = some after ∧ op.Touches before after
  nobody : ∀ id, op.userId = some id → ¬s.Live id → (op.exec s).2 = s ∧ op.Refused s

theorem touches_refl (op : UserMutation) (r : User) : op.Touches r r := by
  cases op with
  | updateColor id forProfile color => cases forProfile <;> rfl
  | _ => rfl

/-- Whoever does nothing, or writes one live row in its own columns, keeps to the rules. -/
theorem keepsTombstones_of_row {op : UserMutation} {s : Stores} {id : Int64} (hid : op.userId = some id)
    (hrefused : ¬s.Live id → (op.exec s).2 = s ∧ op.Refused s)
    (hrow : (op.exec s).2 = s ∨ ∃ before after, s.users.find id = some before ∧ before.deleted = false ∧
      op.Touches before after ∧ (op.exec s).2.users = s.users.upsert id after) :
    op.KeepsTombstones s := by
  have hnamed : ∀ {id'}, op.userId = some id' → id' = id := by
    intro id' h
    rw [hid] at h
    exact (Option.some.inj h).symm
  rcases hrow with hsame | ⟨before, after, hfind, hlive, htouch, hwrite⟩
  · refine ⟨fun id' r hr _ => ?_, fun id' _ id'' _ => ?_, fun id' _ r hr => ?_, fun id' h => ?_⟩
    · rw [hsame, hr]
    · rw [hsame]
    · exact ⟨r, by rw [hsame, hr], touches_refl op r⟩
    · rw [hnamed h]
      exact hrefused
  · refine ⟨fun id' r hr hdel => ?_, fun id' h id'' hne => ?_, fun id' h r hr => ?_, fun id' h => ?_⟩
    · have hne : id' ≠ id := by
        rintro rfl
        rw [hfind] at hr
        cases hr
        rw [hdel] at hlive
        cases hlive
      rw [hwrite, Table.find_upsert, if_neg hne, hr]
    · rw [hnamed h] at hne
      rw [hwrite, Table.find_upsert, if_neg hne]
    · rw [hnamed h] at hr ⊢
      rw [hfind] at hr
      cases hr
      exact ⟨after, by rw [hwrite, Table.find_upsert, if_pos rfl], htouch⟩
    · rw [hnamed h]
      exact hrefused

/-! ## The operations -/

/-- A transaction that only changes the live row `id`, and throws where there is none. -/
structure UpdatesRow (id : Int64) (f : User → User) (tx : Stores → Except Exn (User × Stores)) : Prop where
  refused : ∀ s, ¬s.Live id → ∃ e, tx s = .error e
  row : ∀ s u s', tx s = .ok (u, s') →
    ∃ r, s.users.find id = some r ∧ r.deleted = false ∧ s'.users = s.users.upsert id (f r)

theorem updatesRow_updateOrThrow (id : Int64) (f : User → User) : UpdatesRow id f (Stores.updateOrThrow id f) where
  refused s hdead := by
    rcases Stores.updateLive_cases s id f with ⟨hnone, -⟩ | ⟨r, hfind, hlive, -⟩
    · exact ⟨.userNotFound, by rw [Stores.updateOrThrow, hnone]⟩
    · exact absurd ⟨r, hfind, hlive⟩ hdead
  row s u s' h := by
    rw [Stores.updateOrThrow] at h
    rcases Stores.updateLive_cases s id f with ⟨hnone, -⟩ | ⟨r, hfind, hlive, hsome⟩
    · rw [hnone] at h
      cases h
    · rw [hsome] at h
      cases h
      exact ⟨r, hfind, hlive, rfl⟩

theorem updatesRow_usersUpdatePhone (id : Int64) (phone : Bytes) :
    UpdatesRow id (fun r => { r with phone }) (Stores.usersUpdatePhone id phone) where
  refused s hdead := by
    rcases Stores.updateLive_cases s id fun r => { r with phone } with ⟨hnone, -⟩ | ⟨r, hfind, hlive, -⟩
    · exact ⟨.userNotFound, by rw [Stores.usersUpdatePhone, hnone]⟩
    · exact absurd ⟨r, hfind, hlive⟩ hdead
  row s u s' h := by
    rw [Stores.usersUpdatePhone] at h
    rcases Stores.updateLive_cases s id fun r => { r with phone } with ⟨hnone, -⟩ | ⟨r, hfind, hlive, hsome⟩
    · rw [hnone] at h
      cases h
    · rw [hsome] at h
      simp only at h
      split at h <;> cases h
      exact ⟨r, hfind, hlive, rfl⟩

theorem updatesRow_usersUpdateUsername (id : Int64) (username : Bytes) :
    UpdatesRow id (fun r => { r with username := trimUsername username }) (Stores.usersUpdateUsername id username) where
  refused s hdead := by
    unfold Stores.usersUpdateUsername
    cases hfind : s.users.find id with
    | none => exact ⟨_, rfl⟩
    | some r =>
      cases hdel : r.deleted with
      | true => exact ⟨.usernameNotOccupied, by simp only [hdel]; rfl⟩
      | false => exact absurd ⟨r, hfind, hdel⟩ hdead
  row s u s' h := by
    obtain ⟨r, t, hfind, hlive, -, -, rfl⟩ := Stores.usersUpdateUsername_eq_ok h
    exact ⟨r, hfind, hlive, rfl⟩

/-- An operation that is such a transaction keeps to the rules. -/
theorem keepsTombstones_of_updatesRow {op : UserMutation} {s : Stores} {id : Int64} {f : User → User}
    {tx : Stores → Except Exn (User × Stores)} (hid : op.userId = some id) (htx : UpdatesRow id f tx)
    (hstate : (op.exec s).2 = (write tx s).2) (hrefused : (∃ e, (write tx s).1 = .error e) → op.Refused s)
    (htouch : ∀ r, op.Touches r (f r)) : op.KeepsTombstones s := by
  refine keepsTombstones_of_row hid (fun hdead => ?_) ?_
  · rcases write_cases tx s with ⟨e, hw⟩ | ⟨u, s', hok, hw⟩
    · exact ⟨by rw [hstate, hw], hrefused ⟨e, by rw [hw]⟩⟩
    · obtain ⟨e, he⟩ := htx.refused s hdead
      rw [he] at hok
      cases hok
  · rcases write_cases tx s with ⟨e, hw⟩ | ⟨u, s', hok, hw⟩
    · exact .inl (by rw [hstate, hw])
    · obtain ⟨r, hfind, hlive, husers⟩ := htx.row s u s' hok
      exact .inr ⟨r, f r, hfind, hlive, htouch r, by rw [hstate, hw, husers]⟩

theorem keepsTombstones_updateLastSeen (id : Int64) (lastSeenAt : Int) (s : Stores) :
    (updateLastSeen id lastSeenAt).KeepsTombstones s := by
  have hrun : (updateLastSeen id lastSeenAt).exec s = write (Stores.usersUpdateLastSeen id lastSeenAt) s := rfl
  rcases Stores.updateLive_cases s id fun r => { r with lastSeenAt := max r.lastSeenAt lastSeenAt } with
    ⟨hnone, -⟩ | ⟨r, hfind, hlive, hsome⟩
  · have hsame : ((updateLastSeen id lastSeenAt).exec s).2 = s := by
      rw [hrun, write, Stores.usersUpdateLastSeen, hnone]
      cases s.moment.fault <;> rfl
    refine keepsTombstones_of_row rfl (fun _ => ⟨hsame, fun hfault => ?_⟩) (.inl hsame)
    rw [hrun, write, hfault, Stores.usersUpdateLastSeen, hnone]
  · refine keepsTombstones_of_row rfl (fun hdead => absurd ⟨r, hfind, hlive⟩ hdead) ?_
    rw [hrun, write, Stores.usersUpdateLastSeen, hsome]
    cases s.moment.fault with
    | some state => exact .inl rfl
    | none =>
      refine .inr ⟨r, { r with lastSeenAt := max r.lastSeenAt lastSeenAt }, hfind, hlive, rfl, rfl⟩

theorem keepsTombstones_sweepExpiredPremium (now limit : Int) (s : Stores) :
    (sweepExpiredPremium now limit).KeepsTombstones s where
  tombstones id r hfind hdel := by
    have hlive : id ∉ s.expiredPremium now limit.toNat := by
      intro hmem
      rw [Stores.expiredPremium, List.mem_map] at hmem
      obtain ⟨⟨id', r'⟩, htaken, rfl⟩ := hmem
      obtain ⟨hrow, hexpired⟩ := List.mem_filter.mp (List.mem_mergeSort.mp (List.mem_of_mem_take htaken))
      rw [Table.find_eq_some_iff.mpr hrow] at hfind
      cases hfind
      simp [hdel] at hexpired
    rw [exec]
    split
    · exact hfind
    · rw [write]
      cases s.moment.fault with
      | some state => exact hfind
      | none =>
        show (s.users.modifyBy _ _).find id = some r
        rw [Table.find_modifyBy, hfind, Option.map_some, if_neg (by simpa using hlive)]
  others _ h := by cases h
  own _ h := by cases h
  nobody _ h := by cases h

/-! ## `SetScamFake` -/

/-- The flags are set on an account that is deleted. -/
def HitsTombstone (op : UserMutation) (s : Stores) : Prop :=
  s.moment.fault = none ∧ ∃ id scam fake r, op = setScamFake id scam fake ∧ ¬(scam = true ∧ fake = true) ∧
    s.users.find id = some r ∧ r.deleted = true

/-- An account that `SetScamFake` finds is changed or was so before, deleted or not. -/
theorem exec_setScamFake {id : Int64} {scam fake : Bool} {s : Stores} {r : User} (hflags : ¬(scam = true ∧ fake = true))
    (hfault : s.moment.fault = none) (hfind : s.users.find id = some r) :
    (∃ u, ((setScamFake id scam fake).exec s).1 = .ok u) ∧
      (((setScamFake id scam fake).exec s).2 = s ∨
        ((setScamFake id scam fake).exec s).2.users = s.users.upsert id { r with scam, fake }) := by
  rw [exec, if_neg (by simpa using hflags), write, hfault, Stores.usersSetScamFake, hfind]
  by_cases hsame : r.scam = scam ∧ r.fake = fake
  · simp only [if_pos hsame]
    exact ⟨⟨_, rfl⟩, .inl trivial⟩
  · simp only [if_neg hsame]
    exact ⟨⟨_, rfl⟩, .inr trivial⟩

theorem keepsTombstones_setScamFake {id : Int64} {scam fake : Bool} {s : Stores}
    (h : ¬(setScamFake id scam fake).HitsTombstone s) : (setScamFake id scam fake).KeepsTombstones s := by
  by_cases hrefused : ∃ e, (setScamFake id scam fake).exec s = (.error e, s)
  · obtain ⟨e, he⟩ := hrefused
    exact keepsTombstones_of_row rfl (fun _ => ⟨by rw [he], e, by rw [he]⟩) (.inl (by rw [he]))
  · have hflags : ¬(scam = true ∧ fake = true) := by
      rintro ⟨rfl, rfl⟩
      exact hrefused ⟨_, rfl⟩
    have hrun : (setScamFake id scam fake).exec s = write (Stores.usersSetScamFake id scam fake) s := by
      rw [exec, if_neg (by simpa using hflags)]
    have hfault : s.moment.fault = none := by
      cases hf : s.moment.fault with
      | none => rfl
      | some state => exact absurd ⟨_, by rw [hrun, write, hf]⟩ hrefused
    cases hfind : s.users.find id with
    | none => exact absurd ⟨_, by rw [hrun, write, hfault, Stores.usersSetScamFake, hfind]⟩ hrefused
    | some r =>
      have hlive : r.deleted = false := by
        cases hdel : r.deleted with
        | false => rfl
        | true => exact absurd ⟨hfault, id, scam, fake, r, rfl, hflags, hfind, hdel⟩ h
      refine keepsTombstones_of_row rfl (fun hdead => absurd ⟨r, hfind, hlive⟩ hdead) ?_
      rcases (exec_setScamFake hflags hfault hfind).2 with hsame | hwrite
      · exact .inl hsame
      · exact .inr ⟨r, { r with scam, fake }, hfind, hlive, rfl, hwrite⟩

/-! ## Every operation -/

theorem keepsTombstones_updateEmojiStatus (id : Int64) (status : UserEmojiStatus) (s : Stores) :
    (updateEmojiStatus id status).KeepsTombstones s := by
  by_cases hrefused : ∃ e, (updateEmojiStatus id status).exec s = (.error e, s)
  · obtain ⟨e, he⟩ := hrefused
    exact keepsTombstones_of_row rfl (fun _ => ⟨by rw [he], e, by rw [he]⟩) (.inl (by rw [he]))
  · have hrun : (updateEmojiStatus id status).exec s = write (Stores.usersUpdateEmojiStatus id status) s := by
      rw [exec] at hrefused ⊢
      split at hrefused
      · exact absurd ⟨_, rfl⟩ hrefused
      · split at hrefused
        · exact absurd ⟨_, rfl⟩ hrefused
        · next hvalid hempty => rw [if_neg hvalid, if_neg hempty]
    have hrefuses : (∃ e, (write (Stores.usersUpdateEmojiStatus id status) s).1 = .error e) →
        (updateEmojiStatus id status).Refused s := by
      rintro ⟨e, he⟩
      exact ⟨e, by rw [hrun, he]⟩
    exact keepsTombstones_of_updatesRow rfl (updatesRow_updateOrThrow id _) (by rw [hrun]; rfl) hrefuses fun r => rfl

/-- **Deleted accounts stay as they are and changes are local,** for every operation, its arguments and every state,
unless `SetScamFake` sets flags on a deleted account. -/
theorem keepsTombstones_iff (op : UserMutation) (s : Stores) : op.KeepsTombstones s ↔ ¬op.HitsTombstone s := by
  constructor
  -- The update that hits a deleted account succeeds, where the rules want it refused.
  · rintro h ⟨hfault, id, scam, fake, r, rfl, hflags, hfind, hdel⟩
    obtain ⟨e, he⟩ := (h.nobody id rfl (Stores.not_live_of_deleted hfind hdel)).2
    obtain ⟨u, hu⟩ := (exec_setScamFake hflags hfault hfind).1
    rw [he] at hu
    cases hu
  · intro h
    cases op with
    | setPremiumUntil id t =>
      exact keepsTombstones_of_updatesRow rfl (updatesRow_updateOrThrow id _) rfl (fun h => h) fun r => rfl
    | setVerified id v =>
      exact keepsTombstones_of_updatesRow rfl (updatesRow_updateOrThrow id _) rfl (fun h => h) fun r => rfl
    | setSupport id v =>
      exact keepsTombstones_of_updatesRow rfl (updatesRow_updateOrThrow id _) rfl (fun h => h) fun r => rfl
    | updateLastSeen id t => exact keepsTombstones_updateLastSeen id t s
    | updateProfile id f l a =>
      exact keepsTombstones_of_updatesRow rfl (updatesRow_updateOrThrow id _) rfl (fun h => h) fun r => rfl
    | updateUsername id u =>
      exact keepsTombstones_of_updatesRow rfl (updatesRow_usersUpdateUsername id u) rfl (fun h => h) fun r => rfl
    | updatePhone id p =>
      exact keepsTombstones_of_updatesRow rfl (updatesRow_usersUpdatePhone id p) rfl (fun h => h) fun r => rfl
    | setScamFake id scam fake => exact keepsTombstones_setScamFake h
    | sweepExpiredPremium now limit => exact keepsTombstones_sweepExpiredPremium now limit s
    | updateEmojiStatus id status => exact keepsTombstones_updateEmojiStatus id status s
    | updateBirthday id b =>
      exact keepsTombstones_of_updatesRow rfl (updatesRow_updateOrThrow id _) rfl (fun h => h) fun r => rfl
    | updatePersonalChannel id c =>
      exact keepsTombstones_of_updatesRow rfl (updatesRow_updateOrThrow id _) rfl (fun h => h) fun r => rfl
    | updateColor id forProfile color =>
      refine keepsTombstones_of_updatesRow rfl (updatesRow_updateOrThrow id _) rfl (fun h => h) fun r => ?_
      cases forProfile <;> rfl

/-- One account, which is deleted. -/
def tombstoneStores : Stores :=
  { Stores.empty { now := 0, newUserId := 0 } with users := Table.empty.upsert 7 { deleted := true } }

/-- The deleted account is marked as a scam. -/
theorem tombstone_marked : ¬∀ op s, KeepsTombstones op s := by
  intro h
  have hkept := (h (setScamFake 7 true false) tombstoneStores).tombstones 7 { deleted := true } rfl rfl
  have hscam : ((setScamFake 7 true false).exec tombstoneStores).2.users.find 7 =
      some { deleted := true, scam := true } := rfl
  rw [hscam] at hkept
  cases hkept

end UserMutation

end ShuzaGram.Store

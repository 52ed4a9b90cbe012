import Mathlib.Logic.Function.Basic
import Mathlib.Tactic.Common

/-!
# Descriptors and the objects that own them

A process has a table of open descriptors, and objects that each hold at most one number of it. The kernel
gives a number away again as soon as it is free, so an object that closes a number it does not own would close
the descriptor of somebody else.

* `Descriptors.Owned` — every open descriptor is held by exactly one object, and no object holds anything else
* `Owned.adopt`, `Owned.close`, `Owned.move` — what the operations of such an object keep
* `resource_adopt_of_ne`, `resource_close_of_ne`, `resource_move_of_ne` — they leave the other objects alone
* `Descriptors.Holds` — who owns what, without any numbers; the operations act on it as they should
-/

namespace ShuzaGram.Infra

/-- The table of the kernel, and the number that each object holds. -/
structure Descriptors (η ρ : Type) where
  table : Nat → Option ρ
  held : η → Option Nat

namespace Descriptors

variable {η ρ : Type} [DecidableEq η] {d : Descriptors η ρ} {h h' k : η} {fd : Nat} {r : ρ}

def empty : Descriptors η ρ := { table := fun _ => none, held := fun _ => none }

/-- The kernel opens a descriptor, and an object takes its number. -/
def adopt (d : Descriptors η ρ) (h : η) (fd : Nat) (r : ρ) : Descriptors η ρ :=
  { table := Function.update d.table fd (some r), held := Function.update d.held h (some fd) }

/-- An object closes the number it holds, if it holds one: the kernel drops whatever has that number. -/
def close (d : Descriptors η ρ) (h : η) : Descriptors η ρ :=
  match d.held h with
  | none => d
  | some fd => { table := Function.update d.table fd none, held := Function.update d.held h none }

/-- An object is moved into another one, which closes what it held before. -/
def move (d : Descriptors η ρ) (h h' : η) : Descriptors η ρ :=
  if h = h' then d
  else
    let d := d.close h'
    { d with held := Function.update (Function.update d.held h' (d.held h)) h none }

/-- What the number of an object stands for. -/
def resource (d : Descriptors η ρ) (h : η) : Option ρ := (d.held h).bind d.table

/-- The discipline. -/
structure Owned (d : Descriptors η ρ) : Prop where
  opened : ∀ h fd, d.held h = some fd → ∃ r, d.table fd = some r
  single : ∀ h h' fd, d.held h = some fd → d.held h' = some fd → h = h'
  owner : ∀ fd r, d.table fd = some r → ∃ h, d.held h = some fd

omit [DecidableEq η] in
theorem owned_empty : Owned (empty : Descriptors η ρ) where
  opened _ _ hheld := by cases hheld
  single _ _ _ hheld := by cases hheld
  owner _ _ htable := by cases htable

theorem close_of_none (hheld : d.held h = none) : d.close h = d := by
  simp only [close, hheld]

theorem close_of_some (hheld : d.held h = some fd) :
    d.close h = { table := Function.update d.table fd none, held := Function.update d.held h none } := by
  simp only [close, hheld]

theorem held_close_self : (d.close h).held h = none := by
  cases hheld : d.held h with
  | none => rw [close_of_none hheld, hheld]
  | some fd =>
    rw [close_of_some hheld]
    exact Function.update_self ..

theorem held_close_of_ne (hne : k ≠ h) : (d.close h).held k = d.held k := by
  cases hheld : d.held h with
  | none => rw [close_of_none hheld]
  | some fd =>
    rw [close_of_some hheld]
    exact Function.update_of_ne hne _ _

theorem move_of_ne (hne : h ≠ h') :
    d.move h h' =
      { d.close h' with
        held := Function.update (Function.update (d.close h').held h' ((d.close h').held h)) h none } :=
  if_neg hne

theorem held_move_self (hne : h ≠ h') : (d.move h h').held h = none := by
  rw [move_of_ne hne]
  exact Function.update_self ..

theorem held_move_target (hne : h ≠ h') : (d.move h h').held h' = d.held h := by
  rw [move_of_ne hne]
  show Function.update (Function.update (d.close h').held h' ((d.close h').held h)) h none h' = _
  rw [Function.update_of_ne hne.symm, Function.update_self, held_close_of_ne hne]

theorem held_move_of_ne (hk : k ≠ h) (hk' : k ≠ h') : (d.move h h').held k = d.held k := by
  by_cases hne : h = h'
  · rw [move, if_pos hne]
  · rw [move_of_ne hne]
    show Function.update (Function.update (d.close h').held h' ((d.close h').held h)) h none k = _
    rw [Function.update_of_ne hk, Function.update_of_ne hk', held_close_of_ne hk']

theorem table_move (hne : h ≠ h') : (d.move h h').table = (d.close h').table := by rw [move_of_ne hne]

/-- An object that was moved from closes nothing. -/
theorem close_move (hne : h ≠ h') : (d.move h h').close h = d.move h h' := close_of_none (held_move_self hne)

/-- What is opened and closed again leaves nothing behind. -/
theorem close_adopt (hfree : d.table fd = none) (hempty : d.held h = none) : (d.adopt h fd r).close h = d := by
  rw [close_of_some (show (d.adopt h fd r).held h = some fd from Function.update_self ..)]
  show Descriptors.mk (Function.update (Function.update d.table fd (some r)) fd none)
    (Function.update (Function.update d.held h (some fd)) h none) = d
  rw [Function.update_idem, Function.update_idem, ← hfree, ← hempty, Function.update_eq_self, Function.update_eq_self]

/-! ## The discipline is kept -/

section Owned

variable (hd : d.Owned)

include hd

omit [DecidableEq η] in
/-- A number that is free is held by nobody. -/
theorem Owned.held_ne (hfree : d.table fd = none) (k : η) : d.held k ≠ some fd := by
  intro hheld
  obtain ⟨r, hr⟩ := hd.opened k fd hheld
  rw [hfree] at hr
  cases hr

theorem Owned.adopt (hfree : d.table fd = none) (hempty : d.held h = none) (r : ρ) : (d.adopt h fd r).Owned where
  opened k n hheld := by
    change Function.update d.held h (some fd) k = some n at hheld
    show ∃ r', Function.update d.table fd (some r) n = some r'
    by_cases hk : k = h
    · subst hk
      rw [Function.update_self] at hheld
      cases hheld
      exact ⟨r, Function.update_self ..⟩
    · rw [Function.update_of_ne hk] at hheld
      have hn : n ≠ fd := by
        rintro rfl
        exact hd.held_ne hfree k hheld
      rw [Function.update_of_ne hn]
      exact hd.opened k n hheld
  single k k' n hk hk' := by
    change Function.update d.held h (some fd) k = some n at hk
    change Function.update d.held h (some fd) k' = some n at hk'
    by_cases hkh : k = h <;> by_cases hkh' : k' = h
    · rw [hkh, hkh']
    · subst hkh
      rw [Function.update_self] at hk
      rw [Function.update_of_ne hkh', ← hk] at hk'
      exact absurd hk' (hd.held_ne hfree k')
    · subst hkh'
      rw [Function.update_self] at hk'
      rw [Function.update_of_ne hkh, ← hk'] at hk
      exact absurd hk (hd.held_ne hfree k)
    · rw [Function.update_of_ne hkh] at hk
      rw [Function.update_of_ne hkh'] at hk'
      exact hd.single k k' n hk hk'
  owner n r' htable := by
    change Function.update d.table fd (some r) n = some r' at htable
    show ∃ k, Function.update d.held h (some fd) k = some n
    by_cases hn : n = fd
    · subst hn
      exact ⟨h, Function.update_self ..⟩
    · rw [Function.update_of_ne hn] at htable
      obtain ⟨k, hk⟩ := hd.owner n r' htable
      have hkh : k ≠ h := by
        rintro rfl
        rw [hempty] at hk
        cases hk
      exact ⟨k, by rw [Function.update_of_ne hkh]; exact hk⟩

theorem Owned.close (h : η) : (d.close h).Owned := by
  cases hheld : d.held h with
  | none =>
    rw [close_of_none hheld]
    exact hd
  | some fd =>
    -- nobody else holds the number that is closed
    have hother : ∀ k n, (d.close h).held k = some n → d.held k = some n ∧ k ≠ h ∧ n ≠ fd := by
      intro k n hk
      by_cases hkh : k = h
      · rw [hkh, held_close_self] at hk
        cases hk
      · rw [held_close_of_ne hkh] at hk
        refine ⟨hk, hkh, ?_⟩
        rintro rfl
        exact hkh (hd.single k h n hk hheld)
    have htable : (d.close h).table = Function.update d.table fd none := by rw [close_of_some hheld]
    refine ⟨fun k n hk => ?_, fun k k' n hk hk' => ?_, fun n r hn => ?_⟩
    · obtain ⟨hk, -, hne⟩ := hother k n hk
      rw [htable, Function.update_of_ne hne]
      exact hd.opened k n hk
    · exact hd.single k k' n (hother k n hk).1 (hother k' n hk').1
    · rw [htable] at hn
      have hne : n ≠ fd := by
        rintro rfl
        rw [Function.update_self] at hn
        cases hn
      rw [Function.update_of_ne hne] at hn
      obtain ⟨k, hk⟩ := hd.owner n r hn
      have hkh : k ≠ h := by
        rintro rfl
        rw [hk] at hheld
        exact hne (Option.some.inj hheld)
      exact ⟨k, by rw [held_close_of_ne hkh]; exact hk⟩

theorem Owned.move (h h' : η) : (d.move h h').Owned := by
  by_cases hne : h = h'
  · rw [Descriptors.move, if_pos hne]
    exact hd
  · have hc := hd.close h'
    -- the number goes from one object to the other, and the numbers of the others stay
    have hheld : ∀ k n, (d.move h h').held k = some n →
        (k = h' ∧ (d.close h').held h = some n) ∨ (k ≠ h ∧ k ≠ h' ∧ (d.close h').held k = some n) := by
      intro k n hk
      by_cases hkh : k = h
      · rw [hkh, held_move_self hne] at hk
        cases hk
      · by_cases hkh' : k = h'
        · rw [hkh', held_move_target hne, ← held_close_of_ne hne] at hk
          exact .inl ⟨hkh', hk⟩
        · rw [held_move_of_ne hkh hkh', ← held_close_of_ne hkh'] at hk
          exact .inr ⟨hkh, hkh', hk⟩
    refine ⟨fun k n hk => ?_, fun k k' n hk hk' => ?_, fun n r hn => ?_⟩
    · rw [table_move hne]
      rcases hheld k n hk with ⟨-, hk⟩ | ⟨-, -, hk⟩
      · exact hc.opened h n hk
      · exact hc.opened k n hk
    · rcases hheld k n hk with ⟨rfl, hk⟩ | ⟨hkh, -, hk⟩ <;> rcases hheld k' n hk' with ⟨rfl, hk'⟩ | ⟨hkh', -, hk'⟩
      · rfl
      · exact absurd (hc.single k' h n hk' hk) hkh'
      · exact absurd (hc.single k h n hk hk') hkh
      · exact hc.single k k' n hk hk'
    · rw [table_move hne] at hn
      obtain ⟨k, hk⟩ := hc.owner n r hn
      by_cases hkh : k = h
      · subst hkh
        exact ⟨h', by rw [held_move_target hne, ← held_close_of_ne hne]; exact hk⟩
      · have hkh' : k ≠ h' := by
          rintro rfl
          rw [held_close_self] at hk
          cases hk
        exact ⟨k, by rw [held_move_of_ne hkh hkh', ← held_close_of_ne hkh']; exact hk⟩

end Owned

/-! ## The others are left alone -/

theorem resource_adopt_self : (d.adopt h fd r).resource h = some r := by
  show (Function.update d.held h (some fd) h).bind (Function.update d.table fd (some r)) = some r
  rw [Function.update_self, Option.bind_some, Function.update_self]

theorem resource_adopt_of_ne (hd : d.Owned) (hfree : d.table fd = none) (hne : k ≠ h) :
    (d.adopt h fd r).resource k = d.resource k := by
  show (Function.update d.held h (some fd) k).bind (Function.update d.table fd (some r)) = (d.held k).bind d.table
  rw [Function.update_of_ne hne]
  cases hk : d.held k with
  | none => rfl
  | some n =>
    have hn : n ≠ fd := by
      rintro rfl
      exact hd.held_ne hfree k hk
    exact Function.update_of_ne hn _ _

theorem resource_close_self : (d.close h).resource h = none := by rw [resource, held_close_self, Option.bind_none]

theorem resource_close_of_ne (hd : d.Owned) (hne : k ≠ h) : (d.close h).resource k = d.resource k := by
  rw [resource, held_close_of_ne hne, resource]
  cases hheld : d.held h with
  | none => rw [close_of_none hheld]
  | some fd =>
    cases hk : d.held k with
    | none => rfl
    | some n =>
      have hn : n ≠ fd := by
        rintro rfl
        exact hne (hd.single k h n hk hheld)
      rw [close_of_some hheld]
      exact Function.update_of_ne hn _ _

theorem resource_move_self (hne : h ≠ h') : (d.move h h').resource h = none := by
  rw [resource, held_move_self hne, Option.bind_none]

theorem resource_move_target (hd : d.Owned) (hne : h ≠ h') : (d.move h h').resource h' = d.resource h := by
  have hclose := resource_close_of_ne hd hne
  rw [resource, held_close_of_ne hne] at hclose
  rw [resource, held_move_target hne, table_move hne, hclose]

theorem resource_move_of_ne (hd : d.Owned) (hk : k ≠ h) (hk' : k ≠ h') : (d.move h h').resource k = d.resource k := by
  by_cases hne : h = h'
  · rw [move, if_pos hne]
  · have hclose := resource_close_of_ne hd hk'
    rw [resource, held_close_of_ne hk'] at hclose
    rw [resource, held_move_of_ne hk hk', table_move hne, hclose]

omit [DecidableEq η] in
/-- An object that holds a number has what is open under it. -/
theorem Owned.resource_isSome (hd : d.Owned) (h : η) : (d.resource h).isSome = (d.held h).isSome := by
  cases hheld : d.held h with
  | none => rw [resource, hheld]; rfl
  | some fd =>
    obtain ⟨r, hr⟩ := hd.opened h fd hheld
    rw [resource, hheld, Option.bind_some, hr]
    rfl

omit [DecidableEq η] in
/-- Whatever is open is the resource of an object. -/
theorem Owned.exists_resource (hd : d.Owned) (htable : d.table fd = some r) :
    ∃ h, d.held h = some fd ∧ d.resource h = some r := by
  obtain ⟨h, hheld⟩ := hd.owner fd r htable
  exact ⟨h, hheld, by rw [resource, hheld, Option.bind_some, htable]⟩

/-! ## Without the numbers -/

/-- The objects own what `f` says, and nothing else is open. -/
structure Holds (d : Descriptors η ρ) (f : η → Option ρ) : Prop where
  owned : d.Owned
  resource : ∀ h, d.resource h = f h

namespace Holds

variable {f : η → Option ρ}

omit [DecidableEq η] in
theorem held_eq_none_iff (hd : d.Holds f) : d.held h = none ↔ f h = none := by
  rw [← Option.isNone_iff_eq_none, ← Option.isNone_iff_eq_none, ← hd.resource, ← Option.not_isSome, ← Option.not_isSome,
    hd.owned.resource_isSome]

omit [DecidableEq η] in
theorem empty : (empty : Descriptors η ρ).Holds fun _ => none := ⟨owned_empty, fun _ => rfl⟩

omit [DecidableEq η] in
theorem congr {g : η → Option ρ} (hd : d.Holds f) (h : ∀ o, f o = g o) : d.Holds g :=
  ⟨hd.owned, fun o => (hd.resource o).trans (h o)⟩

theorem adopt (hd : d.Holds f) (hfree : d.table fd = none) (hempty : f h = none) (r : ρ) :
    (d.adopt h fd r).Holds (Function.update f h (some r)) := by
  refine ⟨hd.owned.adopt hfree (hd.held_eq_none_iff.mpr hempty) r, fun k => ?_⟩
  by_cases hk : k = h
  · subst hk
    rw [resource_adopt_self, Function.update_self]
  · rw [resource_adopt_of_ne hd.owned hfree hk, Function.update_of_ne hk, hd.resource]

theorem close (hd : d.Holds f) (h : η) : (d.close h).Holds (Function.update f h none) := by
  refine ⟨hd.owned.close h, fun k => ?_⟩
  by_cases hk : k = h
  · subst hk
    rw [resource_close_self, Function.update_self]
  · rw [resource_close_of_ne hd.owned hk, Function.update_of_ne hk, hd.resource]

theorem move (hd : d.Holds f) (hne : h ≠ h') :
    (d.move h h').Holds (Function.update (Function.update f h' (f h)) h none) := by
  refine ⟨hd.owned.move h h', fun k => ?_⟩
  by_cases hk : k = h
  · subst hk
    rw [resource_move_self hne, Function.update_self]
  · rw [Function.update_of_ne hk]
    by_cases hk' : k = h'
    · subst hk'
      rw [resource_move_target hd.owned hne, Function.update_self, hd.resource]
    · rw [resource_move_of_ne hd.owned hk hk', Function.update_of_ne hk', hd.resource]

omit [DecidableEq η] in
/-- Under a number that is open there is what exactly one object owns. -/
theorem existsUnique (hd : d.Holds f) (htable : d.table fd = some r) :
    ∃ h, f h = some r ∧ d.held h = some fd ∧ ∀ k, d.held k = some fd → k = h := by
  obtain ⟨h, hheld, hr⟩ := hd.owned.exists_resource htable
  exact ⟨h, by rw [← hd.resource, hr], hheld, fun k hk => hd.owned.single k h fd hk hheld⟩

end Holds

end Descriptors

end ShuzaGram.Infra

import Mathlib.Data.List.Nodup
import Mathlib.Tactic.Common

/-!
# Keyed tables

A table of a store: rows in an order, no two with the same key. The operations are those of a
database with a primary key: look a row up, insert or replace, change, delete, search.
-/

namespace ShuzaGram.Infra

/-- Rows under distinct keys. -/
structure Table (κ ρ : Type) where
  rows : List (κ × ρ)
  nodup : (rows.map Prod.fst).Nodup
deriving DecidableEq

namespace Table

variable {κ ρ : Type} [DecidableEq κ]

def empty : Table κ ρ := ⟨[], List.nodup_nil⟩

/-- The row under a key. -/
def find (t : Table κ ρ) (k : κ) : Option ρ :=
  (t.rows.find? fun p => p.1 = k).map Prod.snd

/-- The first row that satisfies a condition, with its key. -/
def findBy (t : Table κ ρ) (p : κ × ρ → Bool) : Option (κ × ρ) := t.rows.find? p

/-- Change the row under a key, where there is one. -/
def modify (t : Table κ ρ) (k : κ) (f : ρ → ρ) : Table κ ρ where
  rows := t.rows.map fun p => if p.1 = k then (p.1, f p.2) else p
  nodup := by
    have hkeys : (t.rows.map fun p => if p.1 = k then (p.1, f p.2) else p).map Prod.fst =
        t.rows.map Prod.fst := by
      rw [List.map_map]
      refine List.map_congr_left fun p _ => ?_
      simp only [Function.comp]
      split <;> rfl
    rw [hkeys]
    exact t.nodup

/-- Change the rows that satisfy a condition. -/
def modifyBy (t : Table κ ρ) (p : κ × ρ → Bool) (f : ρ → ρ) : Table κ ρ where
  rows := t.rows.map fun x => if p x then (x.1, f x.2) else x
  nodup := by
    have hkeys : (t.rows.map fun x => if p x then (x.1, f x.2) else x).map Prod.fst = t.rows.map Prod.fst := by
      rw [List.map_map]
      refine List.map_congr_left fun x _ => ?_
      simp only [Function.comp]
      split <;> rfl
    rw [hkeys]
    exact t.nodup

/-- Delete the rows that satisfy a condition. -/
def eraseBy (t : Table κ ρ) (p : κ × ρ → Bool) : Table κ ρ where
  rows := t.rows.filter fun x => !p x
  nodup := (List.Sublist.map Prod.fst (List.filter_sublist (l := t.rows))).nodup t.nodup

def erase (t : Table κ ρ) (k : κ) : Table κ ρ := t.eraseBy fun p => p.1 = k

theorem mem_keys {t : Table κ ρ} {k : κ} : k ∈ t.rows.map Prod.fst ↔ (t.find k).isSome := by
  rw [find, Option.isSome_map, List.find?_isSome]
  simp only [List.mem_map, decide_eq_true_eq]

/-- Insert a row, or replace the one under its key. -/
def upsert (t : Table κ ρ) (k : κ) (r : ρ) : Table κ ρ :=
  if h : (t.find k).isSome then t.modify k fun _ => r
  else
    { rows := t.rows ++ [(k, r)]
      nodup := by
        rw [List.map_append, List.nodup_append]
        refine ⟨t.nodup, List.nodup_singleton _, ?_⟩
        rintro a ha b hb rfl
        rw [List.map_singleton, List.mem_singleton] at hb
        subst hb
        exact h (mem_keys.mp ha) }

/-! ## Looking a row up after a change -/

@[simp] theorem find_empty (k : κ) : (empty : Table κ ρ).find k = none := rfl

theorem find_eq_some_iff {t : Table κ ρ} {k : κ} {r : ρ} : t.find k = some r ↔ (k, r) ∈ t.rows := by
  constructor
  · intro h
    obtain ⟨⟨k', r'⟩, hfind, rfl⟩ := Option.map_eq_some_iff.mp h
    have hk : k' = k := by simpa using List.find?_some hfind
    subst hk
    exact List.mem_of_find?_eq_some hfind
  · intro h
    have hkey : k ∈ t.rows.map Prod.fst := List.mem_map.mpr ⟨(k, r), h, rfl⟩
    obtain ⟨r', hr'⟩ := Option.isSome_iff_exists.mp (mem_keys.mp hkey)
    obtain ⟨⟨k'', r''⟩, hfind, hr''⟩ := Option.map_eq_some_iff.mp hr'
    have hk : k'' = k := by simpa using List.find?_some hfind
    subst hk
    -- two rows under one key are the same row
    have hsame := List.inj_on_of_nodup_map t.nodup (List.mem_of_find?_eq_some hfind) h rfl
    rw [hr', ← hr'', hsame]

theorem find_modify (t : Table κ ρ) (k k' : κ) (f : ρ → ρ) :
    (t.modify k f).find k' = if k' = k then (t.find k').map f else t.find k' := by
  unfold modify find
  simp only [List.find?_map, Option.map_map]
  have hkey : ((fun p : κ × ρ => decide (p.1 = k')) ∘ fun p => if p.1 = k then (p.1, f p.2) else p) =
      fun p => decide (p.1 = k') := by
    funext p
    simp only [Function.comp]
    split <;> rfl
  rw [hkey]
  cases h : t.rows.find? fun p => decide (p.1 = k') with
  | none => simp
  | some p =>
    have hp : p.1 = k' := by simpa using List.find?_some h
    simp only [Option.map_some, Function.comp, hp]
    split <;> rfl

theorem find_modifyBy (t : Table κ ρ) (p : κ × ρ → Bool) (f : ρ → ρ) (k : κ) :
    (t.modifyBy p f).find k = (t.find k).map fun r => if p (k, r) then f r else r := by
  apply Option.ext
  intro r
  rw [find_eq_some_iff, Option.map_eq_some_iff]
  constructor
  · intro h
    obtain ⟨⟨k', r'⟩, hmem, heq⟩ := List.mem_map.mp h
    refine ⟨r', find_eq_some_iff.mpr ?_, ?_⟩ <;> split at heq <;> cases heq <;> simp_all
  · rintro ⟨r', hfind, rfl⟩
    refine List.mem_map.mpr ⟨(k, r'), find_eq_some_iff.mp hfind, ?_⟩
    split <;> rfl

@[simp] theorem find_upsert (t : Table κ ρ) (k k' : κ) (r : ρ) :
    (t.upsert k r).find k' = if k' = k then some r else t.find k' := by
  unfold upsert
  split
  · next h =>
    rw [find_modify]
    split
    · next hk =>
      obtain ⟨r', hr'⟩ := Option.isSome_iff_exists.mp h
      rw [hk, hr']
      rfl
    · rfl
  · next h =>
    have hnone : t.find k = none := by simpa using h
    unfold find at hnone ⊢
    rw [List.find?_append]
    by_cases hk : k' = k
    · subst hk
      rw [Option.map_eq_none_iff] at hnone
      simp [hnone]
    · rw [if_neg hk]
      cases t.rows.find? fun p => decide (p.1 = k') with
      | none => simp [Ne.symm hk]
      | some p => rfl

theorem find_upsert_of_ne {t : Table κ ρ} {k k' : κ} (h : k' ≠ k) (r : ρ) : (t.upsert k r).find k' = t.find k' := by
  rw [find_upsert, if_neg h]

/-- A new row is the last. -/
theorem rows_upsert_of_none {t : Table κ ρ} {k : κ} {r : ρ} (h : t.find k = none) :
    (t.upsert k r).rows = t.rows ++ [(k, r)] := by
  rw [upsert, dif_neg (by simp [h])]

theorem find_eraseBy (t : Table κ ρ) (p : κ × ρ → Bool) (k : κ) :
    (t.eraseBy p).find k = (t.find k).filter fun r => !p (k, r) := by
  apply Option.ext
  intro r
  rw [find_eq_some_iff, Option.filter_eq_some_iff, find_eq_some_iff]
  simp [eraseBy]

@[simp] theorem find_erase (t : Table κ ρ) (k k' : κ) :
    (t.erase k).find k' = if k' = k then none else t.find k' := by
  rw [erase, find_eraseBy]
  by_cases hk : k' = k
  · simp [hk]
  · simp only [hk, decide_false, Bool.not_false, if_false]
    cases t.find k' <;> rfl

theorem find_erase_of_ne {t : Table κ ρ} {k k' : κ} (h : k' ≠ k) : (t.erase k).find k' = t.find k' := by
  rw [find_erase, if_neg h]

omit [DecidableEq κ] in
theorem eq_of_rows {t t' : Table κ ρ} (h : t.rows = t'.rows) : t = t' := by
  cases t
  cases t'
  cases h
  rfl

/-- A row that is there already. -/
theorem upsert_of_find {t : Table κ ρ} {k : κ} {r : ρ} (h : t.find k = some r) : t.upsert k r = t := by
  refine eq_of_rows ?_
  rw [upsert, dif_pos (by rw [h]; rfl)]
  refine (List.map_congr_left fun x hx => ?_).trans (List.map_id _)
  split
  · next hk =>
    have hfind : t.find x.1 = some x.2 := find_eq_some_iff.mpr hx
    rw [hk, h] at hfind
    exact Prod.ext rfl (Option.some.inj hfind)
  · rfl

omit [DecidableEq κ] in
theorem eraseBy_congr {t : Table κ ρ} {p q : κ × ρ → Bool} (h : ∀ x ∈ t.rows, p x = q x) :
    t.eraseBy p = t.eraseBy q :=
  eq_of_rows (List.filter_congr fun x hx => by rw [h x hx])

/-- Deletions, one key after another. -/
theorem foldl_erase (t : Table κ ρ) (keys : List κ) :
    keys.foldl erase t = t.eraseBy fun x => decide (x.1 ∈ keys) := by
  induction keys generalizing t with
  | nil => exact eq_of_rows (by simp [eraseBy])
  | cons k keys ih =>
    rw [List.foldl_cons, ih]
    refine eq_of_rows (List.filter_filter.trans (List.filter_congr fun x _ => ?_))
    simp only [List.mem_cons, Bool.decide_or, Bool.not_or, Bool.and_comm]

theorem find_foldl_erase (t : Table κ ρ) (keys : List κ) (k : κ) :
    (keys.foldl erase t).find k = if k ∈ keys then none else t.find k := by
  rw [foldl_erase, find_eraseBy]
  by_cases hk : k ∈ keys
  · simp [hk]
  · simp only [hk, decide_false, Bool.not_false, if_false]
    cases t.find k <;> rfl

omit [DecidableEq κ] in
/-- The rows that satisfy a condition are a single one. -/
theorem filter_rows_eq_singleton {t : Table κ ρ} {p : κ × ρ → Bool} {y : κ × ρ}
    (h : ∀ x, x ∈ t.rows ∧ p x = true ↔ x = y) :
    t.rows.filter p = [y] := by
  have hnodup : (t.rows.filter p).Nodup := (List.Nodup.of_map _ t.nodup).filter _
  refine List.perm_singleton.mp ((List.perm_ext_iff_of_nodup hnodup (List.nodup_singleton y)).mpr fun x => ?_)
  rw [List.mem_filter, List.mem_singleton, h]

/-- The rows under the key of a row that was just put. -/
theorem filter_rows_upsert (t : Table κ ρ) (k : κ) (r : ρ) : ((t.upsert k r).rows.filter fun x => x.1 = k) = [(k, r)] := by
  refine filter_rows_eq_singleton fun x => ?_
  obtain ⟨k', r'⟩ := x
  rw [← find_eq_some_iff]
  simp only [find_upsert, decide_eq_true_eq, Prod.mk.injEq]
  constructor
  · rintro ⟨hfind, rfl⟩
    rw [if_pos rfl] at hfind
    exact ⟨rfl, (Option.some.inj hfind).symm⟩
  · rintro ⟨rfl, rfl⟩
    exact ⟨if_pos rfl, rfl⟩

theorem findBy_eq_some {t : Table κ ρ} {p : κ × ρ → Bool} {k : κ} {r : ρ}
    (h : t.findBy p = some (k, r)) : t.find k = some r ∧ p (k, r) = true :=
  ⟨find_eq_some_iff.mpr (List.mem_of_find?_eq_some h), List.find?_some h⟩

end Table

end ShuzaGram.Infra

import ShuzaGram.Store.AuthKeyLayers

/-!
# Merging layer evidence

The evidence of temporary keys is merged into that of a permanent one after another. A merge keeps the later
observation, so a fold keeps the latest of all that it met (`IsLatest`), in whatever order it met them, unless two
pieces of equal evidence contradict each other and it throws.
-/

namespace ShuzaGram.Store

open LayerObservation

/-- The evidence of temporary keys, merged into that of a permanent key one after another. -/
def mergeAll (perm : LayerObservation) (temps : List LayerObservation) : Except Exn LayerObservation :=
  temps.foldlM (fun running temp => mergeAuthKeyLayerObservations temp running) perm

/-- No two of the observations conflict. -/
def Consistent (os : List LayerObservation) : Prop := ∀ a ∈ os, ∀ b ∈ os, ¬a.Conflicts b

/-- `r` is an observation that no other is later than; where none is ordered, it is the permanent one. -/
structure IsLatest (perm : LayerObservation) (temps : List LayerObservation) (r : LayerObservation) : Prop where
  mem : r ∈ perm :: temps
  latest : ∀ o ∈ perm :: temps, o.observationId ≤ r.observationId
  unordered : r.observationId = 0 → r = perm

/-- The running pair is the latest of what was met: one more observation replaces it, is passed over, or conflicts. -/
theorem mergeAll_cases {temps : List LayerObservation} (htemps : ∀ t ∈ temps, t.Valid) {perm : LayerObservation}
    (hperm : perm.Valid) :
    (¬Consistent (perm :: temps) ∧ mergeAll perm temps = .error .authKeySessionLayerConflict) ∨
      ∃ r, mergeAll perm temps = .ok r ∧ IsLatest perm temps r := by
  induction temps generalizing perm with
  | nil =>
    refine .inr ⟨perm, rfl, List.mem_cons_self, ?_, fun _ => rfl⟩
    intro o ho
    exact Int.le_of_eq (congrArg observationId (List.mem_singleton.mp ho))
  | cons temp rest ih =>
    have htemp := htemps temp List.mem_cons_self
    have hrest : ∀ t ∈ rest, t.Valid := fun t ht => htemps t (List.mem_cons_of_mem _ ht)
    have hstep : mergeAll perm (temp :: rest) = mergeAuthKeyLayerObservations temp perm >>= fun r => mergeAll r rest := rfl
    -- The first merge throws, moves on to the new observation, or keeps the running one.
    rcases mergeAuthKeyLayerObservations_cases htemp hperm with ⟨hconflict, hmerge⟩ | ⟨hlater, hmerge⟩ | ⟨hle, -, hmerge⟩
    · refine .inl ⟨?_, by rw [hstep, hmerge, error_bind]⟩
      intro hcons
      exact hcons temp (List.mem_cons_of_mem _ List.mem_cons_self) perm List.mem_cons_self hconflict
    · rw [hstep, hmerge, ok_bind]
      rcases ih hrest htemp with ⟨hcons, herr⟩ | ⟨r, hok, hmem, hlatest, hunordered⟩
      · refine .inl ⟨fun h => hcons ?_, herr⟩
        intro a ha b hb
        exact h a (List.mem_cons_of_mem _ ha) b (List.mem_cons_of_mem _ hb)
      · have htempLe := hlatest temp List.mem_cons_self
        refine .inr ⟨r, hok, List.mem_cons_of_mem _ hmem, ?_, ?_⟩
        · intro o ho
          rcases List.mem_cons.mp ho with rfl | ho
          · exact Int.le_trans (Int.le_of_lt hlater) htempLe
          · exact hlatest o ho
        · intro hzero
          have := hperm.observationId
          omega
    · rw [hstep, hmerge, ok_bind]
      have hsub : ∀ o ∈ perm :: rest, o ∈ perm :: temp :: rest := by
        intro o ho
        rcases List.mem_cons.mp ho with rfl | ho
        · exact List.mem_cons_self
        · exact List.mem_cons_of_mem _ (List.mem_cons_of_mem _ ho)
      rcases ih hrest hperm with ⟨hcons, herr⟩ | ⟨r, hok, hmem, hlatest, hunordered⟩
      · exact .inl ⟨fun h => hcons fun a ha b hb => h a (hsub a ha) b (hsub b hb), herr⟩
      · refine .inr ⟨r, hok, hsub r hmem, ?_, hunordered⟩
        intro o ho
        rcases List.mem_cons.mp ho with rfl | ho
        · exact hlatest o List.mem_cons_self
        · rcases List.mem_cons.mp ho with rfl | ho
          · exact Int.le_trans hle (hlatest perm List.mem_cons_self)
          · exact hlatest o (List.mem_cons_of_mem _ ho)

section Order

variable {perm : LayerObservation} {temps order : List LayerObservation}

theorem mem_cons_perm (horder : order.Perm temps) (o : LayerObservation) : o ∈ perm :: order ↔ o ∈ perm :: temps :=
  (horder.cons perm).mem_iff

/-- Which observation is the latest does not depend on the order. -/
theorem IsLatest.of_perm (horder : order.Perm temps) {r : LayerObservation} (h : IsLatest perm order r) :
    IsLatest perm temps r where
  mem := (mem_cons_perm horder r).mp h.mem
  latest o ho := h.latest o ((mem_cons_perm horder o).mpr ho)
  unordered := h.unordered

theorem Consistent.of_perm (horder : order.Perm temps) (h : Consistent (perm :: temps)) : Consistent (perm :: order) :=
  fun a ha b hb => h a ((mem_cons_perm horder a).mp ha) b ((mem_cons_perm horder b).mp hb)

/-- Consistent observations have one latest. -/
theorem IsLatest.unique (hcons : Consistent (perm :: temps)) {r r' : LayerObservation} (h : IsLatest perm temps r)
    (h' : IsLatest perm temps r') (hnonneg : 0 ≤ r.observationId) : r = r' := by
  have hid : r.observationId = r'.observationId := Int.le_antisymm (h'.latest r h.mem) (h.latest r' h'.mem)
  by_cases hzero : r.observationId = 0
  · rw [h.unordered hzero, h'.unordered (hid ▸ hzero)]
  · have hlayer : r.layer = r'.layer := by
      by_contra hne
      exact hcons r h.mem r' h'.mem ⟨by omega, hid, hne⟩
    cases r
    cases r'
    cases hid
    cases hlayer
    rfl

theorem IsLatest.valid (hperm : perm.Valid) (htemps : ∀ t ∈ temps, t.Valid) {r : LayerObservation}
    (h : IsLatest perm temps r) : r.Valid := by
  rcases List.mem_cons.mp h.mem with rfl | hmem
  · exact hperm
  · exact htemps r hmem

/-- **Merging does not depend on the order.** Consistent evidence is never refused, and every order ends in the
observation with the largest positive id, or in the layer of the permanent key and the id 0 where there is none.
Of contradicting evidence, an order is refused or ends in an observation with the largest id. -/
theorem mergeAll_orderIndependent (hperm : perm.Valid) (htemps : ∀ t ∈ temps, t.Valid) :
    (Consistent (perm :: temps) →
      ∃ r, (∀ order : List LayerObservation, order.Perm temps → mergeAll perm order = .ok r) ∧
        ((∃ o ∈ perm :: temps, 0 < o.observationId) →
          0 < r.observationId ∧ r ∈ perm :: temps ∧ ∀ o ∈ perm :: temps, o.observationId ≤ r.observationId) ∧
        ((∀ o ∈ perm :: temps, o.observationId = 0) → r = { layer := perm.layer, observationId := 0 })) ∧
    (¬Consistent (perm :: temps) → ∀ order : List LayerObservation, order.Perm temps →
      mergeAll perm order = .error .authKeySessionLayerConflict ∨
        ∃ r ∈ perm :: temps, mergeAll perm order = .ok r ∧ ∀ o ∈ perm :: temps, o.observationId ≤ r.observationId) := by
  have hcases : ∀ order : List LayerObservation, order.Perm temps →
      (¬Consistent (perm :: temps) ∧ mergeAll perm order = .error .authKeySessionLayerConflict) ∨
        ∃ r, mergeAll perm order = .ok r ∧ IsLatest perm temps r := by
    intro order horder
    rcases mergeAll_cases (fun t ht => htemps t (horder.mem_iff.mp ht)) hperm with ⟨hcons, herr⟩ | ⟨r, hok, hlatest⟩
    · exact .inl ⟨fun h => hcons (h.of_perm horder), herr⟩
    · exact .inr ⟨r, hok, hlatest.of_perm horder⟩
  -- Every order meets the same observations, of which consistent ones have one latest.
  constructor
  · intro hcons
    rcases hcases temps (List.Perm.refl _) with ⟨hnot, -⟩ | ⟨r, hok, hlatest⟩
    · exact absurd hcons hnot
    · refine ⟨r, ?_, ?_, ?_⟩
      · intro order horder
        rcases hcases order horder with ⟨hnot, -⟩ | ⟨r', hok', hlatest'⟩
        · exact absurd hcons hnot
        · rw [hok', hlatest'.unique hcons hlatest (hlatest'.valid hperm htemps).observationId]
      · rintro ⟨o, ho, hpos⟩
        exact ⟨Int.lt_of_lt_of_le hpos (hlatest.latest o ho), hlatest.mem, hlatest.latest⟩
      · intro hzero
        rw [hlatest.unordered (hzero r hlatest.mem), ← hzero perm List.mem_cons_self]
  · intro _ order horder
    rcases hcases order horder with ⟨-, herr⟩ | ⟨r, hok, hlatest⟩
    · exact .inl herr
    · exact .inr ⟨r, hlatest.mem, hok, hlatest.latest⟩

end Order

/-- A permanent key without ordered evidence, and three temporary keys of which two say the same. -/
theorem mergeAll_orderIndependent_three :
    ∃ r, (∀ order : List LayerObservation, order.Perm [⟨182, 5⟩, ⟨180, 3⟩, ⟨182, 5⟩] →
      mergeAll ⟨181, 0⟩ order = .ok r) ∧ r.observationId = 5 := by
  have hperm : Valid ⟨181, 0⟩ := ⟨by decide, by decide, by decide⟩
  have htemps : ∀ t ∈ [LayerObservation.mk 182 5, ⟨180, 3⟩, ⟨182, 5⟩], t.Valid := by
    intro t ht
    simp only [List.mem_cons, List.not_mem_nil, or_false] at ht
    rcases ht with rfl | rfl | rfl <;> exact ⟨by decide, by decide, by decide⟩
  have hcons : Consistent [LayerObservation.mk 181 0, ⟨182, 5⟩, ⟨180, 3⟩, ⟨182, 5⟩] := by
    unfold Consistent Conflicts
    decide
  obtain ⟨r, horders, hpositive, -⟩ := (mergeAll_orderIndependent hperm htemps).1 hcons
  obtain ⟨-, hmem, hlatest⟩ := hpositive ⟨⟨182, 5⟩, by decide, by decide⟩
  have hge := hlatest ⟨182, 5⟩ (by decide)
  refine ⟨r, horders, ?_⟩
  simp only [List.mem_cons, List.not_mem_nil, or_false] at hmem
  rcases hmem with rfl | rfl | rfl | rfl
  · exact absurd hge (by decide)
  · rfl
  · exact absurd hge (by decide)
  · rfl

end ShuzaGram.Store

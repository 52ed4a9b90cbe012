import ShuzaGram.Errors

/-!
# Layer evidence of authorization keys

`MergeAuthKeyLayerObservations` of `store/auth_key.hpp`: which layer a permanent key inherits from a temporary
one bound to it. The rest of the header, the records of the key store, is not read here.
-/

namespace ShuzaGram.Store

/-- A layer and the observation that ordered it; the id 0 orders nothing. -/
structure LayerObservation where
  layer : Int
  observationId : Int
deriving DecidableEq

/-- `MergeAuthKeyLayerObservations`. -/
def mergeAuthKeyLayerObservations (temp perm : LayerObservation) : Except Exn LayerObservation :=
  if temp.layer < 0 ∨ perm.layer < 0 ∨ temp.observationId < 0 ∨ perm.observationId < 0 ∨
      (temp.observationId > 0 ∧ temp.layer = 0) ∨ (perm.observationId > 0 ∧ perm.layer = 0) then
    .error .authKeySessionLayerInvalid
  else if temp.observationId > perm.observationId then
    .ok { layer := temp.layer, observationId := temp.observationId }
  else if perm.observationId > temp.observationId then
    .ok { layer := perm.layer, observationId := perm.observationId }
  else if temp.observationId > 0 ∧ temp.layer ≠ perm.layer then .error .authKeySessionLayerConflict
  else if temp.observationId > 0 then .ok { layer := temp.layer, observationId := temp.observationId }
  else .ok { layer := perm.layer, observationId := 0 }

/-- Evidence of an order is evidence of a layer. -/
structure LayerObservation.Valid (o : LayerObservation) : Prop where
  layer : 0 ≤ o.layer
  observationId : 0 ≤ o.observationId
  ordered : 0 < o.observationId → 0 < o.layer

/-- Equal evidence of different layers. -/
def LayerObservation.Conflicts (a b : LayerObservation) : Prop :=
  0 < a.observationId ∧ a.observationId = b.observationId ∧ a.layer ≠ b.layer

/-- What a merge of valid observations does: the later observation stays, and the permanent one where neither is. -/
theorem mergeAuthKeyLayerObservations_cases {temp perm : LayerObservation} (htemp : temp.Valid) (hperm : perm.Valid) :
    (temp.Conflicts perm ∧ mergeAuthKeyLayerObservations temp perm = .error .authKeySessionLayerConflict) ∨
    (perm.observationId < temp.observationId ∧ mergeAuthKeyLayerObservations temp perm = .ok temp) ∨
    (temp.observationId ≤ perm.observationId ∧ ¬temp.Conflicts perm ∧
      mergeAuthKeyLayerObservations temp perm = .ok perm) := by
  obtain ⟨tl, ti⟩ := temp
  obtain ⟨pl, pi⟩ := perm
  obtain ⟨htl, hti, hto⟩ := htemp
  obtain ⟨hpl, hpi, hpo⟩ := hperm
  simp only at htl hti hto hpl hpi hpo
  unfold mergeAuthKeyLayerObservations LayerObservation.Conflicts
  rw [if_neg (by simp only; omega)]
  by_cases hlater : pi < ti
  · exact .inr (.inl ⟨hlater, if_pos hlater⟩)
  · simp only
    rw [if_neg hlater]
    by_cases hearlier : ti < pi
    · rw [if_pos hearlier]
      exact .inr (.inr ⟨Int.le_of_lt hearlier, by omega, rfl⟩)
    · have hsame : ti = pi := by omega
      subst hsame
      rw [if_neg hearlier]
      by_cases hconflict : ti > 0 ∧ tl ≠ pl
      · rw [if_pos hconflict]
        exact .inl ⟨⟨hconflict.1, rfl, hconflict.2⟩, rfl⟩
      · rw [if_neg hconflict]
        refine .inr (.inr ⟨Int.le_refl _, fun h => hconflict ⟨h.1, h.2.2⟩, ?_⟩)
        by_cases hordered : ti > 0
        · have hlayers : tl = pl := by
            by_contra hne
            exact hconflict ⟨hordered, hne⟩
          rw [if_pos hordered, hlayers]
        · have hzero : ti = 0 := by omega
          rw [if_neg hordered, hzero]

end ShuzaGram.Store

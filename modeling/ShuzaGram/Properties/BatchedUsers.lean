import ShuzaGram.Mtproto.Crypto.MessageCipher
import ShuzaGram.Users.Profile

/-!
# Users in a batch

`ResolveGetUsers` fetches the caller's own account and, in one call, every other account that is asked for. What
it returns is what going through the inputs one by one would give: `plainGetUsers`.
-/

namespace ShuzaGram.Users

open Infra Domain Store Auth Mtproto.Crypto
open StoreProg
open Mtproto.Messages (InputUser)

/-! ## One by one -/

/-- What one input of the user `current` gives; `row` is `ByID`. -/
def plainResolve (current : Int64) (row : Int64 → Option User) : InputUser → Option ResolvedUser
  | .empty => none
  | .self => (row current).map fun user => { user, self := true }
  | .byId id accessHash =>
    if id = 0 then none
    else
      match row id with
      | none => none
      | some user => if accessHash = 0 ∨ accessHash = user.accessHash then some { user, self := id = current } else none

/-- The user that a key is logged in as. -/
def loggedInUser (auth : Option Authorization) : Option Int64 :=
  match auth with
  | none => none
  | some a => if a.passwordPending then none else some a.userId

/-- Go through the inputs in order. -/
def plainGetUsers (auth : Option Authorization) (row : Int64 → Option User) (inputs : List InputUser) :
    List ResolvedUser :=
  match loggedInUser auth with
  | none => []
  | some current => inputs.filterMap (plainResolve current row)

/-! ## The batch -/

/-- The rows whose id is in `ids`, each once, in any order. -/
structure RowsOf (row : Int64 → Option User) (ids : List Int64) (batch : List User) : Prop where
  nodup : (batch.map User.id).Nodup
  mem_iff : ∀ u, u ∈ batch ↔ ∃ id ∈ ids, row id = some u

/-- One round of the loop of `uniqueIds`. -/
def addId (ids : List Int64) : InputUser → List Int64
  | .byId userId _ => if ids.contains userId then ids else ids ++ [userId]
  | _ => ids

theorem uniqueIds_eq_foldl (inputs : List InputUser) : uniqueIds inputs = inputs.foldl addId [] := by
  refine congrArg (fun round => inputs.foldl round []) ?_
  funext ids input
  cases input <;> rfl

theorem mem_addId {ids : List Int64} {input : InputUser} {id : Int64} :
    id ∈ addId ids input ↔ id ∈ ids ∨ ∃ accessHash, .byId id accessHash = input := by
  cases input with
  | empty => simp [addId]
  | self => simp [addId]
  | byId userId hash =>
    have hsame : (∃ accessHash, InputUser.byId id accessHash = .byId userId hash) ↔ id = userId := by simp
    rw [addId, hsame]
    by_cases hmem : userId ∈ ids
    · rw [if_pos (List.contains_iff_mem.mpr hmem)]
      exact ⟨.inl, fun h => h.elim (fun hid => hid) fun heq => heq ▸ hmem⟩
    · rw [if_neg (fun h => hmem (List.contains_iff_mem.mp h)), List.mem_append, List.mem_singleton]

theorem mem_uniqueIds {inputs : List InputUser} {id : Int64} :
    id ∈ uniqueIds inputs ↔ ∃ accessHash, .byId id accessHash ∈ inputs := by
  have hfold : ∀ ids, id ∈ inputs.foldl addId ids ↔ id ∈ ids ∨ ∃ accessHash, .byId id accessHash ∈ inputs := by
    induction inputs with
    | nil => simp
    | cons input inputs ih =>
      intro ids
      rw [List.foldl_cons, ih, mem_addId, or_assoc]
      simp only [List.mem_cons, exists_or]
  rw [uniqueIds_eq_foldl, hfold]
  simp

section Batch

variable {row : Int64 → Option User} {ids : List Int64} {batch : List User}

/-- Looking a user up in the batch is `ByID`, for the ids that were asked for. -/
theorem find_batch (hrow : ∀ id u, row id = some u → u.id = id) (h : RowsOf row ids batch) {id : Int64} (hid : id ∈ ids)
    (hzero : id ≠ 0) : (batch.find? fun u => u.id ≠ 0 && u.id = id) = row id := by
  have hsame : ∀ u ∈ batch, u.id = id → row id = some u := by
    intro u hu huid
    obtain ⟨id', -, hfound⟩ := (h.mem_iff u).mp hu
    rwa [← hrow id' u hfound, huid] at hfound
  cases hr : row id with
  | none =>
    rw [List.find?_eq_none]
    intro u hu hmatch
    simp only [Bool.and_eq_true, decide_eq_true_eq] at hmatch
    rw [hsame u hu hmatch.2] at hr
    cases hr
  | some u =>
    have hu : u ∈ batch := (h.mem_iff u).mpr ⟨id, hid, hr⟩
    have huid : u.id = id := hrow id u hr
    have hfound : (batch.find? fun u => u.id ≠ 0 && u.id = id).isSome := by
      rw [List.find?_isSome]
      exact ⟨u, hu, by simp [huid, hzero]⟩
    obtain ⟨v, hv⟩ := Option.isSome_iff_exists.mp hfound
    have hmatch := List.find?_some hv
    simp only [Bool.and_eq_true, decide_eq_true_eq] at hmatch
    rw [hv, ← hr, hsame v (List.mem_of_find?_eq_some hv) hmatch.2]

/-- The kept inputs give what all inputs give one by one. -/
theorem filterMap_kept (hrow : ∀ id u, row id = some u → u.id = id) (current : Int64) (inputs : List InputUser)
    {selfUser : Option User} (hself : .self ∈ keptInputs true inputs → selfUser = row current)
    (hbatch : RowsOf row (uniqueIds (keptInputs true inputs)) batch) :
    (keptInputs true inputs).filterMap (resolveInput current selfUser batch) =
      inputs.filterMap (plainResolve current row) := by
  have heach : ∀ input ∈ keptInputs true inputs,
      resolveInput current selfUser batch input = plainResolve current row input := by
    intro input hinput
    cases input with
    | empty => rfl
    | self => rw [resolveInput, plainResolve, hself hinput]
    | byId id accessHash =>
      have hzero : id ≠ 0 := by simpa [keptInputs] using (List.mem_filter.mp hinput).2
      rw [resolveInput, plainResolve, if_neg hzero,
        find_batch hrow hbatch (mem_uniqueIds.mpr ⟨accessHash, hinput⟩) hzero]
      cases hr : row id with
      | none => rfl
      | some u =>
        simp only
        rw [hrow id u hr]
        split <;> split <;> first | rfl | omega | grind
  -- What was left out of the batch gives nothing in the plain order either.
  rw [List.filterMap_congr heach, keptInputs, List.filterMap_filter]
  refine List.filterMap_congr fun input _ => ?_
  cases input with
  | empty => rfl
  | self => rfl
  | byId id accessHash =>
    by_cases hzero : id = 0 <;> simp [plainResolve, hzero]

end Batch

/-! ## Runs -/

/-- How the stores answer in the states of `I`, where reading keeps them: the key has the authorization `auth`, and
the accounts are the rows of `row`. -/
structure AnswersReads {W : Type} (ex : (call : StoreCall) → W → Except Exn call.Res × W) (I : W → Prop)
    (authKeyId : Arr 8) (auth : Option Authorization) (row : Int64 → Option User) : Prop where
  id_row : ∀ id u, row id = some u → u.id = id
  byAuthKey : ∀ w, I w →
    (ex (.authorizationsByAuthKey authKeyId) w).1 = .ok auth ∧ I (ex (.authorizationsByAuthKey authKeyId) w).2
  byId : ∀ id w, I w → (ex (.usersById id) w).1 = .ok (row id) ∧ I (ex (.usersById id) w).2
  byIds : ∀ ids, ∃ batch, RowsOf row ids batch ∧
    ∀ w, I w → (ex (.usersByIds ids) w).1 = .ok batch ∧ I (ex (.usersByIds ids) w).2

section Runs

variable {W : Type} {ex : (call : StoreCall) → W → Except Exn call.Res × W} {I : W → Prop}
variable {authKeyId : Arr 8} {auth : Option Authorization} {row : Int64 → Option User}

theorem yields_resolveCurrentUser (h : AnswersReads ex I authKeyId auth row) :
    Prog.Yields ex Prog.idle I (resolveCurrentUser authKeyId)
      (.ok (match loggedInUser auth with
        | none => {}
        | some userId => { userId, authorized := true })) := by
  have hread : Prog.Yields ex Prog.idle I (authorizationsByAuthKey authKeyId) (.ok auth) :=
    Prog.yields_perform (fun _ _ hw => hw) h.byAuthKey
  refine hread.bind ?_
  cases auth with
  | none => exact Prog.yields_pure _
  | some a =>
    simp only [loggedInUser]
    split <;> exact Prog.yields_pure _

/-- Nobody's key asks for nothing. -/
theorem keptInputs_false (inputs : List InputUser) : keptInputs false inputs = [] := by
  rw [keptInputs, List.filter_eq_nil_iff]
  intro input _
  cases input <;> simp

/-- The other accounts that are asked for, found in one call or not looked for. -/
theorem yields_usersByIds (h : AnswersReads ex I authKeyId auth row) (ids : List Int64) :
    ∃ batch, RowsOf row ids batch ∧
      (ids = [] → batch = []) ∧ (ids ≠ [] → Prog.Yields ex Prog.idle I (usersByIds ids) (.ok batch)) := by
  obtain ⟨batch, hbatch, hanswer⟩ := h.byIds ids
  refine ⟨batch, hbatch, fun hnil => ?_, fun _ => ?_⟩
  · rw [List.eq_nil_iff_forall_not_mem]
    intro u hu
    obtain ⟨id, hid, -⟩ := (hbatch.mem_iff u).mp hu
    rw [hnil] at hid
    cases hid
  · exact Prog.yields_perform (fun _ _ hw => hw) hanswer

theorem yields_resolveGetUsers (h : AnswersReads ex I authKeyId auth row) (inputs : List InputUser) :
    Prog.Yields ex Prog.idle I (resolveGetUsers authKeyId inputs) (.ok (plainGetUsers auth row inputs)) := by
  refine (yields_resolveCurrentUser h).bind ?_
  rw [plainGetUsers]
  cases loggedInUser auth with
  | none =>
    simp only [keptInputs_false]
    exact Prog.yields_pure _
  | some current =>
    simp only
    obtain ⟨batch, hbatch, hnil, hfound⟩ := yields_usersByIds h (uniqueIds (keptInputs true inputs))
    -- the accounts by id, whatever the caller's own account was read as
    have hothers : ∀ selfUser : Option User, (.self ∈ keptInputs true inputs → selfUser = row current) →
        Prog.Yields ex Prog.idle I
          (do
            let found ← if uniqueIds (keptInputs true inputs) ≠ [] then usersByIds (uniqueIds (keptInputs true inputs))
              else pure []
            return (keptInputs true inputs).filterMap (resolveInput current selfUser found))
          (.ok (inputs.filterMap (plainResolve current row))) := by
      intro selfUser hself
      rw [← filterMap_kept h.id_row current inputs hself hbatch]
      split
      · next hids => exact (hfound hids).bind (Prog.yields_pure _)
      · next hids =>
        rw [hnil (Decidable.not_not.mp hids)]
        exact Prog.yields_pure _
    split
    · have hself : Prog.Yields ex Prog.idle I (usersById current) (.ok (row current)) :=
        Prog.yields_perform (fun _ _ hw => hw) (h.byId current)
      exact hself.bind (hothers (row current) fun _ => rfl)
    · next hnone => exact hothers none fun hmem => absurd (by simpa using hmem) hnone

end Runs

/-! ## The stores of the database -/

theorem rowsOf_usersByIds (s : Stores) (ids : List Int64) : RowsOf s.usersById ids (s.usersByIds ids) where
  nodup := by
    have hids : (s.usersByIds ids).map User.id =
        ((s.users.rows.filter fun r => ids.contains r.1).mergeSort fun a b => a.1 ≤ b.1).map Prod.fst := by
      simp [Stores.usersByIds, Function.comp_def]
    rw [hids, ((List.mergeSort_perm _ _).map _).nodup_iff]
    exact (List.filter_sublist.map Prod.fst).nodup s.users.nodup
  mem_iff u := by
    simp only [Stores.usersByIds, Stores.usersById, List.mem_map, List.mem_mergeSort, List.mem_filter,
      List.contains_iff_mem, Option.map_eq_some_iff, Table.find_eq_some_iff]
    constructor
    · rintro ⟨⟨id, r⟩, ⟨hrow, hid⟩, rfl⟩
      exact ⟨id, hid, r, hrow, rfl⟩
    · rintro ⟨id, hid, r, hrow, rfl⟩
      exact ⟨(id, r), ⟨hrow, hid⟩, rfl⟩

/-- The stores answer so as long as they stay what they are. -/
theorem answersReads_stores (P : Primitives) (s : Stores) (authKeyId : Arr 8) :
    AnswersReads (StoreCall.exec P) (· = s) authKeyId (s.authorizationsByAuthKey authKeyId) s.usersById where
  id_row id u hu := by
    obtain ⟨r, -, rfl⟩ := Option.map_eq_some_iff.mp hu
    exact id_rowToUser _
  byAuthKey := by
    rintro w rfl
    exact ⟨rfl, rfl⟩
  byId := by
    rintro id w rfl
    exact ⟨rfl, rfl⟩
  byIds ids := by
    refine ⟨s.usersByIds ids, rowsOf_usersByIds s ids, ?_⟩
    rintro w rfl
    exact ⟨rfl, rfl⟩

/-! ## The batch and the inputs one by one -/

/-- **A batch of users is resolved as one by one,** for every authorization of the key, every users store and
every list of inputs. -/
theorem resolveGetUsers_eq_plain {W : Type} {ex : (call : StoreCall) → W → Except Exn call.Res × W} {I : W → Prop}
    {authKeyId : Arr 8} {auth : Option Authorization} {row : Int64 → Option User}
    (h : AnswersReads ex I authKeyId auth row) (inputs : List InputUser) (w : W) (hw : I w) :
    ((resolveGetUsers authKeyId inputs).exec ex w).result = .ok (plainGetUsers auth row inputs) :=
  (yields_resolveGetUsers h inputs 0 w hw).1

/-- Two accounts, the first of which the zero key is logged in to. -/
def neighbours : Stores :=
  { Stores.empty { now := 0, newUserId := 0 } with
    users := (Table.empty.upsert 7 { accessHash := 70 }).upsert 9 { accessHash := 90 }
    authorizations := Table.empty.upsert (Arr.zero 8) { authKeyId := Arr.zero 8, userId := 7 } }

/-- Duplicates stay, a wrong access hash gives nothing. -/
def neighbourInputs : List InputUser := [.byId 9 0, .self, .empty, .byId 9 91, .byId 7 70, .byId 8 0, .byId 9 90]

theorem resolveGetUsers_eq_plain_neighbours :
    ((resolveGetUsers (Arr.zero 8) neighbourInputs).exec (StoreCall.exec blankPrimitives) neighbours).result =
      .ok [⟨{ id := 9, accessHash := 90 }, false⟩, ⟨{ id := 7, accessHash := 70 }, true⟩,
        ⟨{ id := 7, accessHash := 70 }, true⟩, ⟨{ id := 9, accessHash := 90 }, false⟩] := by
  have hplain : plainGetUsers (neighbours.authorizationsByAuthKey (Arr.zero 8)) neighbours.usersById neighbourInputs =
      [⟨{ id := 9, accessHash := 90 }, false⟩, ⟨{ id := 7, accessHash := 70 }, true⟩,
        ⟨{ id := 7, accessHash := 70 }, true⟩, ⟨{ id := 9, accessHash := 90 }, false⟩] := by decide +kernel
  rw [← hplain]
  exact resolveGetUsers_eq_plain (answersReads_stores blankPrimitives neighbours (Arr.zero 8)) neighbourInputs
    neighbours rfl

end ShuzaGram.Users

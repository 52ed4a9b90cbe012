import ShuzaGram.Infra.Cut
import ShuzaGram.Properties.InvokeWrappers

/-!
# How deep a JSON value may be

`SkipJsonValue` calls itself for a value inside a value. With room for so many calls on the stack, `UnwrapInvokeWrappers`
does what it does with all the stack it needs, unless it comes to a value that is nested deeper: then the process dies.

1. **The values inside a value** (`InnerValue`, `Enters`), and values nested so many times (`NestedTo`).
2. `cutAt_skipJsonWithin` — the stack is used up exactly by these.
3. **The parameters that the loop comes to** (`ComesTo`), and the loop on a stack with so much room.
4. **Trees**: `nestedTo_encode`, with the depth of a tree.
-/

namespace ShuzaGram.Mtproto.Messages

open Infra Infra.Steps

/-! ## Reading does not use up the stack -/

section Never

variable {skip : Get Unit}

theorem never_peekId : Never .stackExhausted peekId := by
  intro b b' h
  unfold peekId at h
  split at h <;> cases h

theorem never_consumeN (n : Nat) : Never .stackExhausted (consumeN n) := by
  intro b b' h
  unfold consumeN at h
  split at h <;> cases h

theorem never_getBytes : Never .stackExhausted getBytes := by
  intro b b' h
  rcases getBytes_cases b with herror | ⟨headerLen, len, -, -, hok⟩
  · rw [herror] at h
    cases h
  · rw [hok] at h
    cases h

theorem never_consumeId (id : UInt32) : Never .stackExhausted (consumeId id) := by
  refine never_peekId.bind fun got => Never.ite ?_ ?_
  · exact (never_throw (by simp)).bind fun _ => (never_consumeN 4).bind fun _ => never_pure ()
  · exact (never_consumeN 4).bind fun _ => never_pure ()

theorem never_uint32 : Never .stackExhausted uint32 :=
  never_peekId.bind fun _ => (never_consumeN 4).bind fun _ => never_pure _

theorem never_int32 : Never .stackExhausted int32 := never_uint32.bind fun _ => never_pure _

theorem never_uint64 : Never .stackExhausted uint64 := (never_consumeN 8).bind fun _ => never_pure _

theorem never_long : Never .stackExhausted long := never_uint64.bind fun _ => never_pure _

theorem never_vectorHeader : Never .stackExhausted vectorHeader := (never_consumeId _).bind fun _ => never_int32

theorem never_skipTimes (h : Never .stackExhausted skip) : ∀ n, Never .stackExhausted (skipTimes skip n)
  | 0 => never_pure ()
  | n + 1 => h.bind fun _ => never_skipTimes h n

theorem never_skipJsonStep (h : Never .stackExhausted skip) : Never .stackExhausted (skipJsonStep skip) := by
  refine never_peekId.bind fun id => (never_consumeId id).bind fun _ => ?_
  refine Never.ite (never_pure ()) (Never.ite ?_ (Never.ite ?_ (Never.ite ?_ (Never.ite ?_ (Never.ite ?_
    (never_throw (by simp)))))))
  · exact never_peekId.bind fun _ => never_consumeId _
  · exact never_uint64.bind fun _ => never_pure ()
  · exact never_getBytes.bind fun _ => never_pure ()
  · exact never_vectorHeader.bind fun _ => never_skipTimes h _
  · refine never_vectorHeader.bind fun _ => never_skipTimes ?_ _
    exact (never_consumeId _).bind fun _ => never_getBytes.bind fun _ => h

theorem never_skipJsonValue : Never .stackExhausted skipJsonValue := by
  have hfuel : ∀ n, Never .stackExhausted (skipJsonFuel n) := by
    intro n
    induction n with
    | zero => exact never_throw (by simp)
    | succ n ih => exact never_skipJsonStep ih
  exact fun b b' h => hfuel _ h

theorem never_skipConnectionFields : Never .stackExhausted skipConnectionFields := by
  refine never_uint32.bind fun flags => never_int32.bind fun _ => ?_
  iterate 6 refine never_getBytes.bind fun _ => ?_
  refine Never.ite ?_ (never_pure flags)
  exact (never_consumeId _).bind fun _ => never_getBytes.bind fun _ => never_int32.bind fun _ => never_pure flags

theorem never_unwrapInvokeWrappers : Never .stackExhausted unwrapInvokeWrappers := by
  have hconnection : Never .stackExhausted (skipInitConnection skipJsonValue) :=
    never_skipConnectionFields.bind fun _ => never_skipJsonValue.ite (never_pure ())
  have honce : Never .stackExhausted (unwrapOnce skipJsonValue) := by
    refine never_peekId.bind fun id => Never.ite ?_ (Never.ite ?_ (Never.ite ?_ (Never.ite ?_ (never_pure false))))
    · exact (never_consumeId id).bind fun _ => never_int32.bind fun _ => never_pure true
    · exact (never_consumeId id).bind fun _ => never_pure true
    · exact (never_consumeId id).bind fun _ => never_long.bind fun _ => never_pure true
    · exact (never_consumeId id).bind fun _ => hconnection.bind fun _ => never_pure true
  have hfuel : ∀ n, Never .stackExhausted (unwrapFuel skipJsonValue n) := by
    intro n
    induction n with
    | zero => exact never_throw (by simp)
    | succ n ih => exact honce.bind fun more => ih.ite (never_pure ())
  exact fun b b' h => hfuel _ h

end Never

/-! ## Values inside a value -/

/-- What is behind the key of an entry. -/
def skipJsonKey : Get Unit := do
  consumeId jsonObjectValueTypeId
  let _ ← getBytes

/-- The value with the constructor `id` and these fields has a value inside, at the front of `c`, and those before it
can be skipped. -/
inductive InnerValue (id : UInt32) (fields : Bytes) (c : Bytes) : Prop where
  | array {count : Int32} {rest : Bytes} {k : Nat} (hid : id = jsonArrayTypeId)
      (hcount : vectorHeader fields = .ok count rest) (hk : k < count.toInt.toNat)
      (hbefore : skipTimes skipJsonValue k rest = .ok () c)
  | object {count : Int32} {rest entry : Bytes} {k : Nat} (hid : id = jsonObjectTypeId)
      (hcount : vectorHeader fields = .ok count rest) (hk : k < count.toInt.toNat)
      (hbefore : skipTimes (skipJsonObjectValue skipJsonValue) k rest = .ok () entry)
      (hkey : skipJsonKey entry = .ok () c)

/-- The value at the front of `b` has the value at the front of `c` inside. -/
def Enters (b c : Bytes) : Prop := ∃ id, peekId b = .ok id b ∧ InnerValue id (b.drop 4) c

/-- At the front of `b` there is a value inside a value, so many times. -/
def NestedTo : Nat → Bytes → Prop
  | 0, _ => True
  | n + 1, b => ∃ c, Enters b c ∧ NestedTo n c

/-! ## The stack is used up -/

section Cut

variable {skip skip' : Get Unit} {D : Bytes → Prop}

/-- A loop is cut short in one of its rounds. -/
theorem cutAt_skipTimes (h : CutAt .stackExhausted D skip skip') : ∀ n,
    CutAt .stackExhausted (fun b => ∃ k < n, ∃ c, skipTimes skip' k b = .ok () c ∧ D c) (skipTimes skip n)
      (skipTimes skip' n)
  | 0 => (cutAt_self _).congr fun b => ⟨False.elim, fun ⟨k, hk, _⟩ => absurd hk (Nat.not_lt_zero k)⟩
  | n + 1 => by
    refine (h.bind fun _ => cutAt_skipTimes h n).congr fun b => ?_
    constructor
    · rintro (hD | ⟨⟨⟩, b', hb', k, hk, c, hc, hD⟩)
      · exact ⟨0, Nat.succ_pos n, b, rfl, hD⟩
      · exact ⟨k + 1, Nat.succ_lt_succ hk, c, (Get.bind_of_ok hb').trans hc, hD⟩
    · rintro ⟨k, hk, c, hc, hD⟩
      cases k with
      | zero =>
        cases hc
        exact .inl hD
      | succ k =>
        obtain ⟨⟨⟩, b', hb', hc⟩ := Get.bind_eq_ok.mp hc
        exact .inr ⟨(), b', hb', k, Nat.lt_of_succ_lt_succ hk, c, hc, hD⟩

theorem cutAt_skipJsonObjectValue (h : CutAt .stackExhausted D skip skip') :
    CutAt .stackExhausted (fun b => ∃ c, skipJsonKey b = .ok () c ∧ D c) (skipJsonObjectValue skip)
      (skipJsonObjectValue skip') := by
  refine (CutAt.bind_self _ fun _ => CutAt.bind_self getBytes fun _ => h).congr fun b => ?_
  constructor
  · rintro ⟨⟨⟩, b', hb', key, c, hc, hD⟩
    exact ⟨c, (Get.bind_of_ok hb').trans (Get.bind_of_ok hc), hD⟩
  · rintro ⟨c, hc, hD⟩
    obtain ⟨⟨⟩, b', hb', hc⟩ := Get.bind_eq_ok.mp hc
    obtain ⟨key, c', hc', hend⟩ := Get.bind_eq_ok.mp hc
    cases hend
    exact ⟨(), b', hb', key, c, hc', hD⟩

theorem skipJsonFields_array (skip : Get Unit) :
    skipJsonFields skip jsonArrayTypeId = (do
      let count ← vectorHeader
      skipTimes skip count.toInt.toNat) := rfl

theorem skipJsonFields_object (skip : Get Unit) :
    skipJsonFields skip jsonObjectTypeId = (do
      let count ← vectorHeader
      skipTimes (skipJsonObjectValue skip) count.toInt.toNat) := rfl

/-- The fields of a value are cut short in a value inside. -/
theorem cutAt_skipJsonFields (h : CutAt .stackExhausted D skip skipJsonValue) (id : UInt32) :
    CutAt .stackExhausted (fun fields => ∃ c, InnerValue id fields c ∧ D c) (skipJsonFields skip id)
      (skipJsonFields skipJsonValue id) := by
  by_cases harray : id = jsonArrayTypeId
  · subst harray
    rw [skipJsonFields_array, skipJsonFields_array]
    refine (CutAt.bind_self vectorHeader fun count => cutAt_skipTimes h _).congr fun fields => ?_
    constructor
    · rintro ⟨count, rest, hcount, k, hk, c, hc, hD⟩
      exact ⟨c, .array rfl hcount hk hc, hD⟩
    · rintro ⟨c, hinner, hD⟩
      cases hinner with
      | array _ hcount hk hc => exact ⟨_, _, hcount, _, hk, c, hc, hD⟩
      | object hid => exact absurd hid (by decide)
  · by_cases hobject : id = jsonObjectTypeId
    · subst hobject
      rw [skipJsonFields_object, skipJsonFields_object]
      refine (CutAt.bind_self vectorHeader fun count =>
        cutAt_skipTimes (cutAt_skipJsonObjectValue h) _).congr fun fields => ?_
      constructor
      · rintro ⟨count, rest, hcount, k, hk, entry, hentry, c, hkey, hD⟩
        exact ⟨c, .object rfl hcount hk hentry hkey, hD⟩
      · rintro ⟨c, hinner, hD⟩
        cases hinner with
        | array hid => exact absurd hid (by decide)
        | object _ hcount hk hentry hkey => exact ⟨_, _, hcount, _, hk, _, hentry, c, hkey, hD⟩
    · -- no other value has a value inside
      have hsame : skipJsonFields skip id = skipJsonFields skipJsonValue id := by
        simp only [skipJsonFields, if_neg harray, if_neg hobject]
      rw [hsame]
      refine (cutAt_self _).congr fun fields => ⟨False.elim, ?_⟩
      rintro ⟨c, hinner, -⟩
      cases hinner with
      | array hid => exact harray hid
      | object hid => exact hobject hid

/-- A value is cut short in a value inside. -/
theorem cutAt_skipJsonStep (h : CutAt .stackExhausted D skip skipJsonValue) :
    CutAt .stackExhausted (fun b => ∃ c, Enters b c ∧ D c) (skipJsonStep skip) skipJsonValue := by
  have hsource : skipJsonValue = skipJsonStep skipJsonValue := funext skipJsonValue_eq
  have hstep : CutAt .stackExhausted (fun b => ∃ c, Enters b c ∧ D c) (skipJsonStep skip) (skipJsonStep skipJsonValue) := by
    refine (CutAt.bind_self peekId fun id => CutAt.bind_self (consumeId id) fun _ =>
      cutAt_skipJsonFields h id).congr fun b => ?_
    constructor
    · rintro ⟨id, b', hpeek, ⟨⟩, fields, hconsume, c, hinner, hD⟩
      obtain rfl := (peekId_eq_ok hpeek).2.2
      rw [consumeId_of_peekId hpeek] at hconsume
      cases hconsume
      exact ⟨c, ⟨id, hpeek, hinner⟩, hD⟩
    · rintro ⟨c, ⟨id, hpeek, hinner⟩, hD⟩
      exact ⟨id, b, hpeek, (), b.drop 4, consumeId_of_peekId hpeek, c, hinner, hD⟩
  rwa [← hsource] at hstep

/-- **The stack is used up by values that are nested deeper than it has room for,** and by nothing else. -/
theorem cutAt_skipJsonWithin : ∀ frames,
    CutAt .stackExhausted (NestedTo frames) (skipJsonWithin frames) skipJsonValue
  | 0 => cutAt_throw skipJsonValue
  | frames + 1 => cutAt_skipJsonStep (cutAt_skipJsonWithin frames)

end Cut

/-! ## The loop -/

/-- At the front of `b` there is an `initConnection` whose `params` are at the front of `c`. -/
def HoldsParams (b c : Bytes) : Prop :=
  peekId b = .ok initConnectionTypeId b ∧
    ∃ flags, skipConnectionFields (b.drop 4) = .ok flags c ∧ flags &&& 2 ≠ 0

/-- The loop comes to `params` at the front of `c`. -/
inductive ComesTo : Bytes → Bytes → Prop where
  | here {b c : Bytes} (hparams : HoldsParams b c) : ComesTo b c
  | later {b b' c : Bytes} (honce : unwrapOnce skipJsonValue b = .ok true b') (hrest : ComesTo b' c) : ComesTo b c

section Loop

variable {skip : Get Unit} {D : Bytes → Prop}

/-- A round is cut short in the `params` of its wrapper. -/
theorem cutAt_unwrapOnce (h : CutAt .stackExhausted D skip skipJsonValue) :
    CutAt .stackExhausted (fun b => ∃ c, HoldsParams b c ∧ D c) (unwrapOnce skip) (unwrapOnce skipJsonValue) := by
  have hparams : ∀ flags : UInt32, CutAt .stackExhausted (fun c => flags &&& 2 ≠ 0 ∧ D c)
      (if flags &&& 2 ≠ 0 then skip else pure ()) (if flags &&& 2 ≠ 0 then skipJsonValue else pure ()) := by
    intro flags
    by_cases hflag : flags &&& 2 ≠ 0
    · rw [if_pos hflag, if_pos hflag]
      exact h.congr fun c => (and_iff_right hflag).symm
    · rw [if_neg hflag, if_neg hflag]
      exact (cutAt_self _).congr fun c => ⟨False.elim, fun hc => hflag hc.1⟩
  have hconnection : CutAt .stackExhausted
      (fun fields => ∃ flags c, skipConnectionFields fields = .ok flags c ∧ flags &&& 2 ≠ 0 ∧ D c)
      (skipInitConnection skip) (skipInitConnection skipJsonValue) :=
    CutAt.bind_self skipConnectionFields hparams
  constructor
  · rintro b ⟨c, ⟨hpeek, flags, hfields, hflag⟩, hD⟩
    obtain ⟨b', hstop⟩ := hconnection.stops ⟨flags, c, hfields, hflag, hD⟩
    refine ⟨b', ?_⟩
    rw [unwrapOnce, Get.bind_of_ok hpeek, if_neg (by decide), if_neg (by decide), if_neg (by decide), if_pos rfl,
      Get.bind_of_ok (consumeId_of_peekId hpeek)]
    exact Steps.bind_of_error hstop
  · intro b hnot
    rw [unwrapOnce, unwrapOnce, Get.bind_apply, Get.bind_apply]
    cases hpeek : peekId b with
    | error e b' => rfl
    | ok id b' =>
      obtain rfl := (peekId_eq_ok hpeek).2.2
      simp only
      by_cases hid : id = initConnectionTypeId
      · subst hid
        rw [if_neg (by decide), if_neg (by decide), if_neg (by decide), if_pos rfl, if_neg (by decide),
          if_neg (by decide), if_neg (by decide), if_pos rfl, Get.bind_of_ok (consumeId_of_peekId hpeek),
          Get.bind_of_ok (consumeId_of_peekId hpeek), Get.bind_apply, Get.bind_apply, hconnection.goes]
        rintro ⟨flags, c, hfields, hflag, hD⟩
        exact hnot ⟨c, ⟨hpeek, flags, hfields, hflag⟩, hD⟩
      · simp only [if_neg hid]

/-- **The loop is cut short in the `params` that it comes to,** and in nothing else. -/
theorem cutAt_unwrapWith (hskip : Takes 4 skip) (h : CutAt .stackExhausted D skip skipJsonValue) :
    CutAt .stackExhausted (fun b => ∃ c, ComesTo b c ∧ D c) (unwrapWith skip) unwrapInvokeWrappers := by
  have honce := cutAt_unwrapOnce h
  constructor
  · rintro b ⟨c, hcomes, hD⟩
    induction hcomes with
    | @here b c hparams =>
      obtain ⟨b', hstop⟩ := honce.stops ⟨c, hparams, hD⟩
      exact ⟨b', (unwrapWith_eq hskip b).trans (Steps.bind_of_error hstop)⟩
    | @later b b' c hround _ ih =>
      by_cases hnow : ∃ c, HoldsParams b c ∧ D c
      · obtain ⟨b'', hstop⟩ := honce.stops hnow
        exact ⟨b'', (unwrapWith_eq hskip b).trans (Steps.bind_of_error hstop)⟩
      · obtain ⟨b'', hstop⟩ := ih hD
        rw [← honce.goes hnow] at hround
        exact ⟨b'', (unwrapWith_eq hskip b).trans ((Get.bind_of_ok hround).trans hstop)⟩
  · -- by induction on the buffer, which every round makes shorter
    intro b
    induction hn : b.length using Nat.strongRecOn generalizing b with
    | ind n ih =>
      intro hnot
      have hgoes := honce.goes (s := b) fun ⟨c, hparams, hD⟩ => hnot ⟨c, .here hparams, hD⟩
      rw [unwrapWith_eq hskip b, unwrapInvokeWrappers_eq b, Get.bind_apply, Get.bind_apply, hgoes]
      cases hround : unwrapOnce skipJsonValue b with
      | error e b' => rfl
      | ok more b' =>
        cases more with
        | false => rfl
        | true =>
          have hless := unwrapOnce_takes takes_skipJsonValue hround
          exact ih b'.length (by omega) rfl fun ⟨c, hcomes, hD⟩ => hnot ⟨c, .later hround hcomes, hD⟩

end Loop

/-! ## Trees -/

def JsonObjectValue.value : JsonObjectValue → JsonValue
  | .mk _ value => value

/-- The values directly inside a value. -/
def JsonValue.values : JsonValue → List JsonValue
  | .array values => values
  | .object values => values.map JsonObjectValue.value
  | _ => []

mutual

/-- So many calls of `SkipJsonValue`, one inside the other, skip the value. -/
def JsonValue.depth : JsonValue → Nat
  | .null | .bool _ | .number _ | .string _ => 1
  | .array values => depthOfValues values + 1
  | .object values => depthOfObjectValues values + 1

def depthOfValues : List JsonValue → Nat
  | [] => 0
  | v :: vs => max v.depth (depthOfValues vs)

def depthOfObjectValues : List JsonObjectValue → Nat
  | [] => 0
  | .mk _ value :: vs => max value.depth (depthOfObjectValues vs)

end

theorem lt_depthOfValues {n : Nat} : ∀ {vs : List JsonValue}, n < depthOfValues vs ↔ ∃ v ∈ vs, n < v.depth
  | [] => by simp [depthOfValues]
  | v :: vs => by
    have ih := @lt_depthOfValues n vs
    simp only [depthOfValues, List.mem_cons, exists_eq_or_imp, ← ih]
    omega

theorem lt_depthOfObjectValues {n : Nat} : ∀ {vs : List JsonObjectValue},
    n < depthOfObjectValues vs ↔ ∃ v ∈ vs, n < v.value.depth
  | [] => by simp [depthOfObjectValues]
  | .mk key value :: vs => by
    have ih := @lt_depthOfObjectValues n vs
    have hvalue : (JsonObjectValue.mk key value).value = value := rfl
    simp only [depthOfObjectValues, List.mem_cons, exists_eq_or_imp, ← ih, hvalue]
    omega

theorem JsonValue.depth_pos (j : JsonValue) : 0 < j.depth := by
  cases j <;> simp [depth]

/-- A value is deeper than `n + 1` if one inside is deeper than `n`. -/
theorem JsonValue.lt_depth {n : Nat} (j : JsonValue) : n + 1 < j.depth ↔ ∃ v ∈ j.values, n < v.depth := by
  cases j with
  | null | bool | number | string => simp [depth, values]
  | array vs => simp only [depth, values, Nat.add_lt_add_iff_right, lt_depthOfValues]
  | object vs => simp [depth, values, lt_depthOfObjectValues]

theorem encodable_of_mem_values : ∀ {vs : List JsonValue}, AllEncodable vs → ∀ v ∈ vs, v.Encodable
  | v :: vs, h, v', hv' => by
    obtain ⟨hv, hvs⟩ := h
    rcases List.mem_cons.mp hv' with rfl | hmem
    · exact hv
    · exact encodable_of_mem_values hvs v' hmem

theorem encodable_of_mem_objectValues : ∀ {vs : List JsonObjectValue}, AllObjectEncodable vs → ∀ v ∈ vs, v.Encodable
  | v :: vs, h, v', hv' => by
    obtain ⟨hv, hvs⟩ := h
    rcases List.mem_cons.mp hv' with rfl | hmem
    · exact hv
    · exact encodable_of_mem_objectValues hvs v' hmem

theorem JsonValue.Encodable.of_mem {j v : JsonValue} (h : j.Encodable) (hv : v ∈ j.values) : v.Encodable := by
  cases j with
  | null | bool | number | string => cases hv
  | array vs => exact encodable_of_mem_values h.2 v hv
  | object vs =>
    obtain ⟨⟨key, value⟩, hmem, rfl⟩ := List.mem_map.mp hv
    exact (encodable_of_mem_objectValues h.2 _ hmem).2

/-! The values that are skipped before one inside. -/

theorem skipTimes_encodeJsonValues_take : ∀ {vs : List JsonValue} (_ : AllEncodable vs) {k : Nat} (_ : k < vs.length)
    (rest : Bytes), ∃ rest', skipTimes skipJsonValue k (encodeJsonValues vs ++ rest) = .ok () (vs[k].encode ++ rest')
  | v :: vs, h, 0, _, rest => ⟨encodeJsonValues vs ++ rest, by
      rw [encodeJsonValues, List.append_assoc]
      rfl⟩
  | v :: vs, h, k + 1, hk, rest => by
    obtain ⟨hv, hvs⟩ := h
    obtain ⟨rest', hrest⟩ := skipTimes_encodeJsonValues_take hvs (Nat.lt_of_succ_lt_succ hk) rest
    refine ⟨rest', ?_⟩
    rw [encodeJsonValues, List.append_assoc, skipTimes, Get.bind_of_ok (skipJsonValue_encode v hv _)]
    exact hrest

theorem skipTimes_encodeJsonObjectValues_take : ∀ {vs : List JsonObjectValue} (_ : AllObjectEncodable vs) {k : Nat}
    (_ : k < vs.length) (rest : Bytes), ∃ rest',
      skipTimes (skipJsonObjectValue skipJsonValue) k (encodeJsonObjectValues vs ++ rest) = .ok () (vs[k].encode ++ rest')
  | v :: vs, h, 0, _, rest => ⟨encodeJsonObjectValues vs ++ rest, by
      rw [encodeJsonObjectValues, List.append_assoc]
      rfl⟩
  | v :: vs, h, k + 1, hk, rest => by
    obtain ⟨hv, hvs⟩ := h
    obtain ⟨rest', hrest⟩ := skipTimes_encodeJsonObjectValues_take hvs (Nat.lt_of_succ_lt_succ hk) rest
    refine ⟨rest', ?_⟩
    rw [encodeJsonObjectValues, List.append_assoc, skipTimes, Get.bind_of_ok (skipJsonObjectValue_encode v hv _)]
    exact hrest

theorem skipJsonKey_encode {v : JsonObjectValue} (h : v.Encodable) (rest : Bytes) :
    skipJsonKey (v.encode ++ rest) = .ok () (v.value.encode ++ rest) := by
  obtain ⟨key, value⟩ := v
  rw [JsonObjectValue.encode, List.append_assoc, List.append_assoc, skipJsonKey, consumeId_bind_put,
    getBytes_bind_put _ _ h.1]
  rfl

theorem enters_put {id : UInt32} {fields c : Bytes} : Enters (putId id ++ fields) c ↔ InnerValue id fields c := by
  have hpeek : peekId (putId id ++ fields) = .ok id (putId id ++ fields) := peekId_put id fields
  have hdrop : (putId id ++ fields).drop 4 = fields := List.drop_left' (length_putId id)
  constructor
  · rintro ⟨id', hid', hinner⟩
    rw [hpeek] at hid'
    cases hid'
    rwa [hdrop] at hinner
  · intro hinner
    exact ⟨id, hpeek, by rwa [hdrop]⟩

/-- The values inside the value at the front are those of the tree. -/
theorem enters_encode {j : JsonValue} (h : j.Encodable) (rest : Bytes) :
    (∀ c, Enters (j.encode ++ rest) c → ∃ v ∈ j.values, ∃ rest', c = v.encode ++ rest') ∧
      ∀ v ∈ j.values, ∃ rest', Enters (j.encode ++ rest) (v.encode ++ rest') := by
  have hnone : ∀ {id : UInt32} {fields : Bytes}, id ≠ jsonArrayTypeId → id ≠ jsonObjectTypeId →
      ∀ c, ¬Enters (putId id ++ fields) c := by
    intro id fields harray hobject c henters
    cases enters_put.mp henters with
    | array hid => exact harray hid
    | object hid => exact hobject hid
  cases j with
  | null =>
    rw [JsonValue.encode]
    exact ⟨fun c hc => (hnone (by decide) (by decide) c hc).elim, fun v hv => by cases hv⟩
  | bool value | number value | string value =>
    rw [JsonValue.encode, List.append_assoc]
    exact ⟨fun c hc => (hnone (by decide) (by decide) c hc).elim, fun v hv => by cases hv⟩
  | array vs =>
    obtain ⟨hcount, hvs⟩ := h
    rw [JsonValue.encode, List.append_assoc, List.append_assoc]
    constructor
    · intro c henters
      cases enters_put.mp henters with
      | array _ hheader hk hbefore =>
        rw [vectorHeader_put] at hheader
        cases hheader
        rw [vectorCount_of_lt hcount] at hk
        obtain ⟨rest', hrest⟩ := skipTimes_encodeJsonValues_take hvs hk rest
        rw [hrest] at hbefore
        cases hbefore
        exact ⟨_, List.getElem_mem hk, rest', rfl⟩
      | object hid => exact absurd hid (by decide)
    · intro v hv
      obtain ⟨k, hk, rfl⟩ := List.getElem_of_mem hv
      obtain ⟨rest', hrest⟩ := skipTimes_encodeJsonValues_take hvs hk rest
      exact ⟨rest', enters_put.mpr (.array rfl (vectorHeader_put _ _) (by rwa [vectorCount_of_lt hcount]) hrest)⟩
  | object vs =>
    obtain ⟨hcount, hvs⟩ := h
    rw [JsonValue.encode, List.append_assoc, List.append_assoc]
    constructor
    · intro c henters
      cases enters_put.mp henters with
      | array hid => exact absurd hid (by decide)
      | object _ hheader hk hbefore hkey =>
        rw [vectorHeader_put] at hheader
        cases hheader
        rw [vectorCount_of_lt hcount] at hk
        obtain ⟨rest', hrest⟩ := skipTimes_encodeJsonObjectValues_take hvs hk rest
        rw [hrest] at hbefore
        cases hbefore
        rw [skipJsonKey_encode (encodable_of_mem_objectValues hvs _ (List.getElem_mem hk))] at hkey
        cases hkey
        exact ⟨_, List.mem_map_of_mem (List.getElem_mem hk), rest', rfl⟩
    · intro v hv
      obtain ⟨entry, hentry, rfl⟩ := List.mem_map.mp hv
      obtain ⟨k, hk, rfl⟩ := List.getElem_of_mem hentry
      obtain ⟨rest', hrest⟩ := skipTimes_encodeJsonObjectValues_take hvs hk rest
      exact ⟨rest', enters_put.mpr (.object rfl (vectorHeader_put _ _) (by rwa [vectorCount_of_lt hcount]) hrest
        (skipJsonKey_encode (encodable_of_mem_objectValues hvs _ hentry) rest'))⟩

/-- **The nesting of a tree is its depth.** -/
theorem nestedTo_encode : ∀ (n : Nat) {j : JsonValue} (_ : j.Encodable) (rest : Bytes),
    NestedTo n (j.encode ++ rest) ↔ n < j.depth
  | 0, j, _, rest => iff_of_true trivial j.depth_pos
  | n + 1, j, h, rest => by
    obtain ⟨hinner, henters⟩ := enters_encode h rest
    rw [j.lt_depth]
    constructor
    · rintro ⟨c, hc, hnested⟩
      obtain ⟨v, hv, rest', rfl⟩ := hinner c hc
      exact ⟨v, hv, (nestedTo_encode n (h.of_mem hv) rest').mp hnested⟩
    · rintro ⟨v, hv, hlt⟩
      obtain ⟨rest', hc⟩ := henters v hv
      exact ⟨_, hc, (nestedTo_encode n (h.of_mem hv) rest').mpr hlt⟩

/-! ## Wrappers around a call -/

/-- The depth of the parameters of a wrapper. -/
def Wrapper.depth : Wrapper → Nat
  | .initConnection c => c.params.elim 0 JsonValue.depth
  | _ => 0

theorem not_holdsParams_put {id : UInt32} (hid : id ≠ initConnectionTypeId) (fields c : Bytes) :
    ¬HoldsParams (putId id ++ fields) c := by
  rintro ⟨hpeek, -⟩
  rw [show peekId (putId id ++ fields) = .ok id (putId id ++ fields) from peekId_put id fields] at hpeek
  cases hpeek
  exact hid rfl

theorem holdsParams_encode {connection : InitConnection} (h : connection.Encodable) (rest c : Bytes) :
    HoldsParams (putId initConnectionTypeId ++ (connection.encode ++ rest)) c ↔
      connection.params.isSome ∧ c = InitConnection.encodeParams connection.params ++ rest := by
  have hdrop : (putId initConnectionTypeId ++ (connection.encode ++ rest)).drop 4 = connection.encode ++ rest :=
    List.drop_left' (length_putId _)
  have hfields : skipConnectionFields (connection.encode ++ rest) =
      .ok connection.flags (InitConnection.encodeParams connection.params ++ rest) := by
    rw [InitConnection.encode, List.append_assoc]
    exact InitConnection.skipConnectionFields_encode h _
  rw [connection.params_iff]
  constructor
  · rintro ⟨-, flags, hflags, hflag⟩
    rw [hdrop, hfields] at hflags
    cases hflags
    exact ⟨hflag, rfl⟩
  · rintro ⟨hflag, rfl⟩
    exact ⟨peekId_put _ _, connection.flags, by rw [hdrop, hfields], hflag⟩

/-- The parameters of a wrapper are nested deeper than `frames`. -/
theorem holdsNested_encode {w : Wrapper} (h : w.Encodable) (frames : Nat) (rest : Bytes) :
    (∃ c, HoldsParams (w.encode ++ rest) c ∧ NestedTo frames c) ↔ frames < w.depth := by
  cases w with
  | invokeWithLayer layer | invokeAfterMsg msgId =>
    rw [Wrapper.encode, List.append_assoc]
    refine iff_of_false ?_ (Nat.not_lt_zero frames)
    rintro ⟨c, hc, -⟩
    exact not_holdsParams_put (by decide) _ c hc
  | invokeWithoutUpdates =>
    rw [Wrapper.encode]
    refine iff_of_false ?_ (Nat.not_lt_zero frames)
    rintro ⟨c, hc, -⟩
    exact not_holdsParams_put (by decide) _ c hc
  | initConnection connection =>
    simp only [Wrapper.encode, List.append_assoc, holdsParams_encode h]
    cases hparams : connection.params with
    | none =>
      refine iff_of_false ?_ (by simp [Wrapper.depth, hparams])
      rintro ⟨c, hc, -⟩
      cases hc.1
    | some j =>
      have hdepth : (Wrapper.initConnection connection).depth = j.depth := by simp [Wrapper.depth, hparams]
      rw [hdepth, ← nestedTo_encode frames (h.params j hparams) rest]
      constructor
      · rintro ⟨c, ⟨-, rfl⟩, hnested⟩
        exact hnested
      · intro hnested
        exact ⟨_, ⟨rfl, rfl⟩, hnested⟩

/-- A round strips a wrapper whose parameters are not too deep. -/
theorem Wrapper.unwrapOnce_within {w : Wrapper} (h : w.Encodable) (frames : Nat) (rest : Bytes) :
    (w.depth ≤ frames → unwrapOnce (skipJsonWithin frames) (w.encode ++ rest) = .ok true rest) ∧
      (frames < w.depth → ∃ b', unwrapOnce (skipJsonWithin frames) (w.encode ++ rest) = .error .stackExhausted b') := by
  have hcut := cutAt_unwrapOnce (cutAt_skipJsonWithin frames)
  have hdeep := holdsNested_encode h frames rest
  constructor
  · intro hfits
    rw [hcut.goes fun hd => absurd (hdeep.mp hd) (Nat.not_lt.mpr hfits)]
    exact unwrapOnce_encode h rest
  · intro htoo
    exact hcut.stops (hdeep.mpr htoo)

/-- The wrappers are stripped if the parameters of none are too deep, and otherwise the process dies. -/
theorem unwrapInvokeWrappersWithin_wrapped {frames : Nat} {q : Bytes}
    (hq : unwrapInvokeWrappersWithin frames q = .ok () q) : ∀ {ws : List Wrapper}, (∀ w ∈ ws, w.Encodable) →
      (unwrapInvokeWrappersWithin frames (wrapped ws q) = .ok () q ↔ ∀ w ∈ ws, w.depth ≤ frames)
  | [], _ => iff_of_true hq fun w hw => by cases hw
  | w :: ws, h => by
    have ih := unwrapInvokeWrappersWithin_wrapped hq fun w' hw => h w' (List.mem_cons_of_mem w hw)
    obtain ⟨hfits, hdies⟩ := Wrapper.unwrapOnce_within (h w List.mem_cons_self) frames (wrapped ws q)
    have hsplit : wrapped (w :: ws) q = w.encode ++ wrapped ws q := by
      rw [wrapped, List.flatMap_cons, List.append_assoc, wrapped]
    have hloop := unwrapWith_eq (takes_skipJsonWithin frames) (w.encode ++ wrapped ws q)
    rw [List.forall_mem_cons, ← ih, hsplit, unwrapInvokeWrappersWithin, hloop]
    by_cases hdepth : w.depth ≤ frames
    · rw [Get.bind_of_ok (hfits hdepth), if_pos rfl, and_iff_right hdepth]
    · obtain ⟨b', hstop⟩ := hdies (Nat.lt_of_not_le hdepth)
      refine iff_of_false ?_ fun hall => hdepth hall.1
      rw [Steps.bind_of_error hstop]
      intro hok
      cases hok

/-! ## Exactness -/

theorem unwrapInvokeWrappersWithin_call (frames : Nat) {q : Bytes} (hq : 4 ≤ q.length)
    (hid : ∀ id rest, q = putId id ++ rest → isWrapper id = false) :
    unwrapInvokeWrappersWithin frames q = .ok () q := by
  obtain ⟨id, hsplit⟩ := exists_putUint32 hq
  rw [hsplit]
  exact unwrapWith_plain (takes_skipJsonWithin frames) (hid id (q.drop 4) hsplit) (q.drop 4)

theorem cutAt_unwrapInvokeWrappersWithin (frames : Nat) :
    CutAt .stackExhausted (fun b => ∃ c, ComesTo b c ∧ NestedTo frames c) (unwrapInvokeWrappersWithin frames)
      unwrapInvokeWrappers :=
  cutAt_unwrapWith (takes_skipJsonWithin frames) (cutAt_skipJsonWithin frames)

/-- **Wrappers are stripped exactly, as deep as the stack goes.** Whatever wrappers stand around a call, in any order and
to any depth, the call is left, to the byte, if and only if the stack has room for the JSON values inside them. On any
bytes at all the stripping ends, with a suffix of them or an exception, if and only if it does not come to parameters
that are nested deeper than that; what it does then does not depend on the stack. The loop and the recursion are the
source's, and a round that goes on has taken an id. -/
theorem unwrapInvokeWrappers_exact (frames : Nat) :
    (∀ (ws : List Wrapper) (q : Bytes), (∀ w ∈ ws, w.Encodable) → 4 ≤ q.length →
      (∀ id rest, q = putId id ++ rest → isWrapper id = false) →
      (unwrapInvokeWrappersWithin frames (wrapped ws q) = .ok () q ↔ ∀ w ∈ ws, w.depth ≤ frames)) ∧
    (∀ b : Bytes, ((∃ b', unwrapInvokeWrappersWithin frames b = .ok () b' ∧ b' <:+ b) ∨
        ∃ e b', unwrapInvokeWrappersWithin frames b = .error e b' ∧ e ≠ .stackExhausted) ↔
      ∀ c, ComesTo b c → ¬NestedTo frames c) ∧
    (∀ b : Bytes, (∀ c, ComesTo b c → ¬NestedTo frames c) →
      unwrapInvokeWrappersWithin frames b = unwrapInvokeWrappers b) ∧
    (∀ b : Bytes, skipJsonValue b = skipJsonStep skipJsonValue b) ∧
    (∀ b : Bytes, unwrapInvokeWrappersWithin frames b = (do
      let more ← unwrapOnce (skipJsonWithin frames)
      if more then unwrapInvokeWrappersWithin frames else pure ()) b) ∧
    ∀ b b' : Bytes, unwrapOnce (skipJsonWithin frames) b = .ok true b' → b'.length + 4 ≤ b.length := by
  have htakes := takes_skipJsonWithin frames
  have hcut := cutAt_unwrapInvokeWrappersWithin frames
  refine ⟨?_, ?_, ?_, skipJsonValue_eq, unwrapWith_eq htakes, fun _ _ => unwrapOnce_takes htakes⟩
  · intro ws q hws hq hid
    exact unwrapInvokeWrappersWithin_wrapped (unwrapInvokeWrappersWithin_call frames hq hid) hws
  · intro b
    have hdies := hcut.stops_iff never_unwrapInvokeWrappers (s := b)
    constructor
    · rintro hends c hcomes hnested
      obtain ⟨b₁, hstop⟩ := hdies.mpr ⟨c, hcomes, hnested⟩
      rcases hends with ⟨b', hok, -⟩ | ⟨e, b', herror, hne⟩
      · cases hstop.symm.trans hok
      · cases hstop.symm.trans herror
        exact hne rfl
    · intro hfits
      cases h : unwrapInvokeWrappersWithin frames b with
      | ok u b' => exact .inl ⟨b', rfl, leavesSuffix_unwrapWith (leavesSuffix_skipJsonWithin frames) h⟩
      | error e b' =>
        refine .inr ⟨e, b', rfl, ?_⟩
        rintro rfl
        obtain ⟨c, hcomes, hnested⟩ := hdies.mp ⟨b', h⟩
        exact hfits c hcomes hnested
  · intro b hfits
    exact hcut.goes fun ⟨c, hcomes, hnested⟩ => hfits c hcomes hnested

theorem isWrapper_getConfig : ∀ id rest, putId 0xc4f9186b = putId id ++ rest → isWrapper id = false := by
  intro id rest hsplit
  have hpeek : peekId (putId 0xc4f9186b ++ []) = .ok id (putId id ++ rest) := by
    rw [List.append_nil, hsplit]
    exact peekId_put id rest
  rw [show peekId (putId 0xc4f9186b ++ []) = .ok 0xc4f9186b (putId 0xc4f9186b ++ []) from peekId_put _ _] at hpeek
  cases hpeek
  decide

/-- `jsonArray`s of one value each, `n` of them, around a `jsonNull`. -/
def nestedArrays : Nat → JsonValue
  | 0 => .null
  | n + 1 => .array [nestedArrays n]

theorem depth_nestedArrays : ∀ n, (nestedArrays n).depth = n + 1
  | 0 => rfl
  | n + 1 => by
    have ih := depth_nestedArrays n
    simp [nestedArrays, JsonValue.depth, depthOfValues, ih]

theorem encodable_nestedArrays : ∀ n, (nestedArrays n).Encodable
  | 0 => trivial
  | n + 1 => ⟨show FitsVector 1 by decide, encodable_nestedArrays n, trivial⟩

/-- An `initConnection` with these parameters, and nothing else in it. -/
def connectionWith (params : JsonValue) : InitConnection where
  flags := 2
  apiId := 0
  deviceModel := []
  systemVersion := []
  appVersion := []
  systemLangCode := []
  langPack := []
  langCode := []
  proxy := none
  params := some params
  proxy_iff := by decide
  params_iff := iff_of_true rfl (by decide)

theorem encodable_connectionWith {params : JsonValue} (h : params.Encodable) : (connectionWith params).Encodable where
  deviceModel := show FitsString [] by decide
  systemVersion := show FitsString [] by decide
  appVersion := show FitsString [] by decide
  systemLangCode := show FitsString [] by decide
  langPack := show FitsString [] by decide
  langCode := show FitsString [] by decide
  proxy := fun _ _ h => by cases h
  params := fun j hj => by
    cases hj
    exact h

/-- `help.getConfig`, behind a connection with these parameters. -/
def connected (params : JsonValue) : Bytes :=
  wrapped [.initConnection (connectionWith params)] (putId 0xc4f9186b)

theorem encodable_connected {params : JsonValue} (h : params.Encodable) :
    ∀ w ∈ [Wrapper.initConnection (connectionWith params)], w.Encodable := by
  simpa [Wrapper.Encodable] using encodable_connectionWith h

theorem unwrapInvokeWrappersWithin_connected {frames : Nat} {params : JsonValue} (h : params.Encodable)
    (hdeep : frames < params.depth) :
    ∃ b', unwrapInvokeWrappersWithin frames (connected params) = .error .stackExhausted b' := by
  have hw := encodable_connected h _ (List.mem_singleton_self _)
  obtain ⟨c, hparams, hnested⟩ := (holdsNested_encode hw frames (putId 0xc4f9186b)).mpr hdeep
  have hsplit : connected params = (Wrapper.initConnection (connectionWith params)).encode ++ putId 0xc4f9186b := by
    rw [connected, wrapped, List.flatMap_singleton]
  rw [hsplit]
  exact (cutAt_unwrapInvokeWrappersWithin frames).stops ⟨c, .here hparams, hnested⟩

/-- A call behind two arrays, one in the other: three calls of `SkipJsonValue` skip them, and two do not. -/
theorem unwrapInvokeWrappers_exact_connected :
    unwrapInvokeWrappersWithin 3 (connected (nestedArrays 2)) = .ok () (putId 0xc4f9186b) ∧
      unwrapInvokeWrappersWithin 2 (connected (nestedArrays 2)) ≠ .ok () (putId 0xc4f9186b) := by
  have hws := encodable_connected (encodable_nestedArrays 2)
  constructor
  · exact ((unwrapInvokeWrappers_exact 3).1 _ _ hws (by decide) isWrapper_getConfig).mpr (by decide)
  · intro hleft
    exact absurd (((unwrapInvokeWrappers_exact 2).1 _ _ hws (by decide) isWrapper_getConfig).mp hleft) (by decide)

/-- 8 MiB of stack have no room for 110000 calls of 80 bytes, and the arrays of this call need more of them: the process
dies, and the call is not left. -/
theorem unwrapInvokeWrappers_not_exact :
    (∃ b', unwrapInvokeWrappersWithin (8 * 1024 * 1024 / 80) (connected (nestedArrays 110000)) =
      .error .stackExhausted b') ∧
    ¬∀ (ws : List Wrapper) (q : Bytes), (∀ w ∈ ws, w.Encodable) → 4 ≤ q.length →
      (∀ id rest, q = putId id ++ rest → isWrapper id = false) →
      unwrapInvokeWrappersWithin (8 * 1024 * 1024 / 80) (wrapped ws q) = .ok () q := by
  have hws := encodable_connected (encodable_nestedArrays 110000)
  have hdies := unwrapInvokeWrappersWithin_connected (encodable_nestedArrays 110000)
    (show 8 * 1024 * 1024 / 80 < _ by rw [depth_nestedArrays]; decide)
  refine ⟨hdies, fun hall => ?_⟩
  obtain ⟨b', hstop⟩ := hdies
  cases hstop.symm.trans (hall _ _ hws (by decide) isWrapper_getConfig)

end ShuzaGram.Mtproto.Messages

import ShuzaGram.Mtproto.TlBuffer

/-!
# Invoke wrappers

`mtproto/messages/invoke.hpp`: the constructors that clients put around a call, stripped off the
front of the buffer before the call is dispatched.

The loop and the recursion of the source are given the number of words in the buffer as fuel. Each
round takes at least one word, so the fuel is never felt: `unwrapInvokeWrappers_eq` is the source's
own loop, without fuel.

`SkipJsonValue` calls itself for a value inside a value, and nothing but the stack of the thread bounds
how deep. `unwrapInvokeWrappers` has all the stack it needs; `unwrapInvokeWrappersWithin` has room for a
number of these calls, and the process dies at the next one.
-/

namespace ShuzaGram.Mtproto.Messages

open Infra

def invokeWithLayerTypeId : UInt32 := 0xda9b0d0d
def invokeWithoutUpdatesTypeId : UInt32 := 0xbf9459b7
def invokeAfterMsgTypeId : UInt32 := 0xcb9f372d
def initConnectionTypeId : UInt32 := 0xc1cd5ea9

def jsonNullTypeId : UInt32 := 0x3f6d7b68
def jsonBoolTypeId : UInt32 := 0xc7345e6a
def jsonNumberTypeId : UInt32 := 0x2be0dfa4
def jsonStringTypeId : UInt32 := 0xb71e767a
def jsonArrayTypeId : UInt32 := 0xf7444763
def jsonObjectTypeId : UInt32 := 0x99c1d49d
def jsonObjectValueTypeId : UInt32 := 0xc0de1bd9
def inputClientProxyTypeId : UInt32 := 0x75588b3f

/-- `for (int i = 0; i < count; ++i) x`, for its effect on the buffer. -/
def skipTimes (x : Get Unit) : Nat → Get Unit
  | 0 => pure ()
  | n + 1 => do x; skipTimes x n

/-- One entry of a `jsonObject`, given how to skip its value. -/
def skipJsonObjectValue (skip : Get Unit) : Get Unit := do
  consumeId jsonObjectValueTypeId
  let _ ← getBytes
  skip

/-- The `switch` of `SkipJsonValue`, given how to skip a value inside. -/
def skipJsonFields (skip : Get Unit) (id : UInt32) : Get Unit := do
  if id = jsonNullTypeId then pure ()
  else if id = jsonBoolTypeId then do
    let boolId ← peekId
    consumeId boolId
  else if id = jsonNumberTypeId then do let _ ← uint64
  else if id = jsonStringTypeId then do let _ ← getBytes
  else if id = jsonArrayTypeId then do
    let count ← vectorHeader
    skipTimes skip count.toInt.toNat
  else if id = jsonObjectTypeId then do
    let count ← vectorHeader
    skipTimes (skipJsonObjectValue skip) count.toInt.toNat
  else throw (.unexpectedId id)

/-- The body of `SkipJsonValue`. -/
def skipJsonStep (skip : Get Unit) : Get Unit := do
  let id ← peekId
  consumeId id
  skipJsonFields skip id

/-- `SkipJsonValue`. Without fuel the buffer is empty, and its first read underruns. -/
def skipJsonFuel : Nat → Get Unit
  | 0 => throw .bufferUnderrun
  | n + 1 => skipJsonStep (skipJsonFuel n)

def skipJsonValue : Get Unit := fun b => skipJsonFuel (b.length / 4 + 1) b

/-- `SkipJsonValue` on a stack with room for `frames` calls of it, one inside the other. -/
def skipJsonWithin : Nat → Get Unit
  | 0 => throw .stackExhausted
  | frames + 1 => skipJsonStep (skipJsonWithin frames)

/-- The fields of `initConnection` in front of `params`; gives the flags. -/
def skipConnectionFields : Get UInt32 := do
  let flags ← uint32
  let _ ← int32
  let _ ← getBytes
  let _ ← getBytes
  let _ ← getBytes
  let _ ← getBytes
  let _ ← getBytes
  let _ ← getBytes
  if flags &&& 1 ≠ 0 then do
    consumeId inputClientProxyTypeId
    let _ ← getBytes
    let _ ← int32
  return flags

section Unwrap

-- How a JSON value is skipped.
variable (skip : Get Unit)

/-- The fields of `initConnection` in front of the query. -/
def skipInitConnection : Get Unit := do
  let flags ← skipConnectionFields
  if flags &&& 2 ≠ 0 then skip

/-- One round of the loop of `UnwrapInvokeWrappers`: whether it strips a wrapper and goes on. -/
def unwrapOnce : Get Bool := do
  let id ← peekId
  if id = invokeWithLayerTypeId then do
    consumeId id
    let _ ← int32
    return true
  else if id = invokeWithoutUpdatesTypeId then do
    consumeId id
    return true
  else if id = invokeAfterMsgTypeId then do
    consumeId id
    let _ ← long
    return true
  else if id = initConnectionTypeId then do
    consumeId id
    skipInitConnection skip
    return true
  else return false

def unwrapFuel : Nat → Get Unit
  | 0 => throw .bufferUnderrun
  | n + 1 => do
    let more ← unwrapOnce skip
    if more then unwrapFuel n else pure ()

def unwrapWith : Get Unit := fun b => unwrapFuel skip (b.length / 4 + 1) b

end Unwrap

def unwrapInvokeWrappers : Get Unit := unwrapWith skipJsonValue

/-- `UnwrapInvokeWrappers` on a stack with room for `frames` calls of `SkipJsonValue`. -/
def unwrapInvokeWrappersWithin (frames : Nat) : Get Unit := unwrapWith (skipJsonWithin frames)

/-! ## Readers only take bytes -/

/-- A reader that never leaves more bytes than it found, less `k` of them. -/
def Takes {α : Type} (k : Nat) (x : Get α) : Prop :=
  ∀ b a b', x b = .ok a b' → b'.length + k ≤ b.length

section Takes

variable {α β : Type} {k l : Nat}

theorem Takes.mono {x : Get α} (h : Takes k x) (hl : l ≤ k) : Takes l x := by
  intro b a b' hx
  have := h b a b' hx
  omega

theorem takes_pure (a : α) : Takes 0 (pure a : Get α) := by
  intro b a' b' h
  cases h
  exact Nat.le_refl _

theorem takes_throw (e : Exn) : Takes k (throw e : Get α) := by
  intro b a b' h
  cases h

theorem Takes.bind {x : Get α} {f : α → Get β} (hx : Takes k x) (hf : ∀ a, Takes l (f a)) :
    Takes (k + l) (x >>= f) := by
  intro b r b'' h
  obtain ⟨a, b', h1, h2⟩ := Get.bind_eq_ok.mp h
  have := hx b a b' h1
  have := hf a b' r b'' h2
  omega

theorem Takes.ite {c : Prop} [Decidable c] {x y : Get α} (hx : Takes k x) (hy : Takes k y) :
    Takes k (if c then x else y) := by
  split
  · exact hx
  · exact hy

theorem takes_peekId : Takes 0 peekId := by
  intro b a b' h
  unfold peekId at h
  split at h
  · cases h
  · cases h
    exact Nat.le_refl _

theorem takes_consumeN (n : Nat) : Takes n (consumeN n) := by
  intro b a b' h
  unfold consumeN at h
  split at h
  · cases h
  · next hn =>
    cases h
    rw [List.length_drop]
    omega

theorem takes_uint32 : Takes 4 uint32 :=
  (takes_peekId.bind fun _ => (takes_consumeN 4).bind fun _ => takes_pure _).mono (by decide)

theorem takes_int32 : Takes 4 int32 :=
  takes_uint32.bind fun _ => takes_pure _

theorem takes_consumeId (id : UInt32) : Takes 4 (consumeId id) := by
  unfold consumeId
  refine (takes_peekId.bind fun got => Takes.ite ?_ ?_).mono (k := 0 + 4) (by decide)
  · exact takes_throw _
  · exact (takes_consumeN 4).bind fun _ => takes_pure _

theorem takes_uint64 : Takes 8 uint64 :=
  (takes_consumeN 8).bind fun _ => takes_pure _

theorem takes_long : Takes 8 long :=
  takes_uint64.bind fun _ => takes_pure _

theorem takes_vectorHeader : Takes 8 vectorHeader :=
  (takes_consumeId _).bind fun _ => takes_int32

theorem takes_getBytes : Takes 0 getBytes := by
  intro b a b' h
  rcases getBytes_cases b with herror | ⟨headerLen, len, -, -, hok⟩
  · rw [herror] at h
    cases h
  · rw [hok] at h
    cases h
    rw [List.length_drop]
    omega

theorem Takes.skipTimes {x : Get Unit} (hx : Takes 0 x) : ∀ n, Takes 0 (skipTimes x n)
  | 0 => takes_pure _
  | n + 1 => hx.bind fun _ => Takes.skipTimes hx n

theorem Takes.skipJsonObjectValue {skip : Get Unit} (h : Takes 0 skip) :
    Takes 4 (skipJsonObjectValue skip) :=
  (takes_consumeId _).bind fun _ => takes_getBytes.bind fun _ => h

end Takes

/-! ## The fuel suffices -/

theorem takes_skipJsonStep {skip : Get Unit} (h : Takes 0 skip) : Takes 4 (skipJsonStep skip) := by
  refine (takes_peekId.bind fun id => (takes_consumeId id).bind fun _ => ?_).mono (k := 0 + (4 + 0))
    (by decide)
  refine Takes.ite (takes_pure _) (Takes.ite ?_ (Takes.ite ?_ (Takes.ite ?_ (Takes.ite ?_
    (Takes.ite ?_ (takes_throw _))))))
  · exact (takes_peekId.bind fun _ => takes_consumeId _).mono (by decide)
  · exact (takes_uint64.bind fun _ => takes_pure _).mono (by decide)
  · exact takes_getBytes.bind fun _ => takes_pure _
  · exact (takes_vectorHeader.bind fun _ => h.skipTimes _).mono (by decide)
  · exact (takes_vectorHeader.bind fun _ =>
      ((h.skipJsonObjectValue).mono (by decide)).skipTimes _).mono (by decide)

theorem takes_skipJsonFuel : ∀ n, Takes 4 (skipJsonFuel n)
  | 0 => takes_throw _
  | n + 1 => takes_skipJsonStep ((takes_skipJsonFuel n).mono (by decide))

/-- Two readers that agree on every buffer shorter than `m` bytes. -/
def AgreeBelow (m : Nat) {α : Type} (x y : Get α) : Prop := ∀ b, b.length < m → x b = y b

section AgreeBelow

variable {α β : Type} {m k : Nat}

theorem AgreeBelow.refl (x : Get α) : AgreeBelow m x x := fun _ _ => rfl

/-- After a read of `k` bytes it is enough to agree on buffers shorter by `k`. -/
theorem AgreeBelow.bind {x : Get α} {f g : α → Get β} (hx : Takes k x)
    (hfg : ∀ a, AgreeBelow (m - k) (f a) (g a)) : AgreeBelow m (x >>= f) (x >>= g) := by
  intro b hb
  rw [Get.bind_apply, Get.bind_apply]
  cases h : x b with
  | error e b' => rfl
  | ok a b' =>
    have := hx b a b' h
    exact hfg a b' (by omega)

theorem AgreeBelow.ite {c : Prop} [Decidable c] {x x' y y' : Get α} (hx : AgreeBelow m x x')
    (hy : AgreeBelow m y y') : AgreeBelow m (if c then x else y) (if c then x' else y') := by
  split
  · exact hx
  · exact hy

theorem AgreeBelow.skipTimes {x y : Get Unit} (hxy : AgreeBelow m x y) (hx : Takes 0 x) :
    ∀ n, AgreeBelow m (skipTimes x n) (skipTimes y n)
  | 0 => .refl _
  | n + 1 => by
    intro b hb
    rw [Messages.skipTimes, Messages.skipTimes, Get.bind_apply, Get.bind_apply, ← hxy b hb]
    cases h : x b with
    | error e b' => rfl
    | ok a b' =>
      have := hx b a b' h
      exact AgreeBelow.skipTimes hxy hx n b' (by omega)

/-- Where one more unit of fuel changes nothing, any sufficient amount gives the same result. -/
theorem fuel_eq {F : Nat → Get α} (hF : ∀ n, AgreeBelow (4 * n) (F n) (F (n + 1))) {b : Bytes}
    {n : Nat} (h : b.length < 4 * n) : F n b = F (b.length / 4 + 1) b := by
  obtain ⟨d, rfl⟩ := Nat.exists_eq_add_of_le (show b.length / 4 + 1 ≤ n by omega)
  induction d with
  | zero => rfl
  | succ d ih =>
    have hstep := hF (b.length / 4 + 1 + d) b (by omega)
    rw [← ih (by omega)]
    exact hstep.symm

end AgreeBelow

theorem skipJsonStep_agree {m : Nat} {x y : Get Unit} (hxy : AgreeBelow m x y) (hx : Takes 0 x) :
    AgreeBelow (m + 4) (skipJsonStep x) (skipJsonStep y) := by
  refine AgreeBelow.bind takes_peekId fun id => AgreeBelow.bind (takes_consumeId id) fun _ => ?_
  rw [Nat.sub_zero, Nat.add_sub_cancel]
  refine AgreeBelow.ite (.refl _) (AgreeBelow.ite (.refl _) (AgreeBelow.ite (.refl _)
    (AgreeBelow.ite (.refl _) (AgreeBelow.ite ?_ (AgreeBelow.ite ?_ (.refl _))))))
  · exact AgreeBelow.bind (takes_vectorHeader.mono (Nat.zero_le _)) fun count => hxy.skipTimes hx _
  · refine AgreeBelow.bind (takes_vectorHeader.mono (Nat.zero_le _)) fun count => ?_
    refine AgreeBelow.skipTimes ?_ (hx.skipJsonObjectValue.mono (by decide)) _
    exact AgreeBelow.bind ((takes_consumeId _).mono (Nat.zero_le _)) fun _ =>
      AgreeBelow.bind takes_getBytes fun _ => hxy

theorem skipJsonFuel_succ : ∀ n, AgreeBelow (4 * n) (skipJsonFuel n) (skipJsonFuel (n + 1))
  | 0 => fun b hb => absurd hb (by omega)
  | n + 1 => skipJsonStep_agree (skipJsonFuel_succ n) ((takes_skipJsonFuel n).mono (by decide))

theorem skipJsonFuel_eq {b : Bytes} {n : Nat} (h : b.length < 4 * n) :
    skipJsonFuel n b = skipJsonValue b :=
  fuel_eq skipJsonFuel_succ h

/-- `SkipJsonValue` as the source has it. -/
theorem skipJsonValue_eq (b : Bytes) : skipJsonValue b = skipJsonStep skipJsonValue b := by
  have hagree : AgreeBelow (4 * (b.length / 4 + 1)) (skipJsonFuel (b.length / 4 + 1)) skipJsonValue :=
    fun c hc => skipJsonFuel_eq hc
  rw [← skipJsonFuel_eq (show b.length < 4 * (b.length / 4 + 1 + 1) by omega)]
  exact skipJsonStep_agree hagree ((takes_skipJsonFuel _).mono (by decide)) b (by omega)

theorem takes_skipJsonValue : Takes 4 skipJsonValue :=
  fun b a b' h => takes_skipJsonFuel _ b a b' h

theorem takes_skipJsonWithin : ∀ frames, Takes 4 (skipJsonWithin frames)
  | 0 => takes_throw _
  | frames + 1 => takes_skipJsonStep ((takes_skipJsonWithin frames).mono (by decide))

theorem takes_skipConnectionFields : Takes 0 skipConnectionFields := by
  refine Takes.bind (l := 0) (takes_uint32.mono (Nat.zero_le _)) fun flags =>
    Takes.bind (l := 0) (takes_int32.mono (Nat.zero_le _)) fun _ => ?_
  iterate 6 refine Takes.bind (l := 0) takes_getBytes fun _ => ?_
  refine Takes.ite ?_ (takes_pure flags)
  exact ((takes_consumeId _).mono (Nat.zero_le _)).bind (l := 0) fun _ =>
    takes_getBytes.bind fun _ => (takes_int32.mono (Nat.zero_le _)).bind fun _ => takes_pure flags

section Unwrap

variable {skip : Get Unit}

theorem takes_skipInitConnection (h : Takes 4 skip) : Takes 0 (skipInitConnection skip) :=
  takes_skipConnectionFields.bind fun _ => Takes.ite (h.mono (by decide)) (takes_pure _)

/-- A round that goes on has taken the wrapper's id. -/
theorem unwrapOnce_takes (hskip : Takes 4 skip) {b b' : Bytes} (h : unwrapOnce skip b = .ok true b') :
    b'.length + 4 ≤ b.length := by
  obtain ⟨id, b1, h1, h⟩ := Get.bind_eq_ok.mp h
  have hb1 := takes_peekId b id b1 h1
  suffices hs : b'.length + 4 ≤ b1.length by omega
  split at h
  · exact (((takes_consumeId id).bind fun _ => takes_int32.bind fun _ => takes_pure true).mono
      (by decide)) b1 true b' h
  split at h
  · exact ((takes_consumeId id).bind fun _ => takes_pure true) b1 true b' h
  split at h
  · exact (((takes_consumeId id).bind fun _ => takes_long.bind fun _ => takes_pure true).mono
      (by decide)) b1 true b' h
  split at h
  · exact ((takes_consumeId id).bind fun _ => (takes_skipInitConnection hskip).bind fun _ =>
      takes_pure true) b1 true b' h
  · cases h

theorem unwrapFuel_succ (hskip : Takes 4 skip) : ∀ n, AgreeBelow (4 * n) (unwrapFuel skip n) (unwrapFuel skip (n + 1))
  | 0 => fun b hb => absurd hb (by omega)
  | n + 1 => by
    intro b hb
    rw [unwrapFuel, unwrapFuel, Get.bind_apply, Get.bind_apply]
    cases h : unwrapOnce skip b with
    | error e b' => rfl
    | ok more b' =>
      cases more with
      | false => rfl
      | true =>
        have := unwrapOnce_takes hskip h
        exact unwrapFuel_succ hskip n b' (by omega)

theorem unwrapFuel_eq (hskip : Takes 4 skip) {b : Bytes} {n : Nat} (h : b.length < 4 * n) :
    unwrapFuel skip n b = unwrapWith skip b :=
  fuel_eq (unwrapFuel_succ hskip) h

/-- **The loop of `UnwrapInvokeWrappers` as the source has it**: strip a wrapper and go round again,
or return. -/
theorem unwrapWith_eq (hskip : Takes 4 skip) (b : Bytes) :
    unwrapWith skip b = (do
      let more ← unwrapOnce skip
      if more then unwrapWith skip else pure ()) b := by
  rw [← unwrapFuel_eq hskip (show b.length < 4 * (b.length / 4 + 1 + 1) by omega), unwrapFuel,
    Get.bind_apply, Get.bind_apply]
  cases h : unwrapOnce skip b with
  | error e b' => rfl
  | ok more b' =>
    cases more with
    | false => rfl
    | true =>
      have := unwrapOnce_takes hskip h
      exact unwrapFuel_eq hskip (by omega)

end Unwrap

theorem unwrapInvokeWrappers_eq (b : Bytes) :
    unwrapInvokeWrappers b = (do
      let more ← unwrapOnce skipJsonValue
      if more then unwrapInvokeWrappers else pure ()) b :=
  unwrapWith_eq takes_skipJsonValue b

/-- The constructors that are stripped. -/
def isWrapper (id : UInt32) : Bool :=
  id = invokeWithLayerTypeId || id = invokeWithoutUpdatesTypeId || id = invokeAfterMsgTypeId
    || id = initConnectionTypeId

/-- A call without a wrapper is left as it is. -/
theorem unwrapWith_plain {skip : Get Unit} (hskip : Takes 4 skip) {id : UInt32} (h : isWrapper id = false)
    (rest : Bytes) : unwrapWith skip (putId id ++ rest) = .ok () (putId id ++ rest) := by
  simp only [isWrapper, Bool.or_eq_false_iff, decide_eq_false_iff_not] at h
  obtain ⟨⟨⟨h1, h2⟩, h3⟩, h4⟩ := h
  have honce : unwrapOnce skip (putId id ++ rest) = .ok false (putId id ++ rest) := by
    rw [unwrapOnce, putId, Get.bind_of_ok (peekId_put id rest), if_neg h1, if_neg h2, if_neg h3,
      if_neg h4]
    rfl
  rw [unwrapWith_eq hskip, Get.bind_of_ok honce]
  rfl

theorem unwrapInvokeWrappers_plain {id : UInt32} (h : isWrapper id = false) (rest : Bytes) :
    unwrapInvokeWrappers (putId id ++ rest) = .ok () (putId id ++ rest) :=
  unwrapWith_plain takes_skipJsonValue h rest

/-- What is left after unwrapping starts with an id. -/
theorem peekId_of_unwrapFuel : ∀ (n : Nat) (b b' : Bytes), unwrapFuel skipJsonValue n b = .ok () b' →
    ∃ id, peekId b' = .ok id b'
  | 0, _, _, h => by cases h
  | n + 1, b, b', h => by
    obtain ⟨more, b1, h1, h2⟩ := Get.bind_eq_ok.mp h
    cases more with
    | true => exact peekId_of_unwrapFuel n b1 b' h2
    | false =>
      cases h2
      -- the last round only peeked, so the buffer it leaves still starts with that id
      obtain ⟨id, b2, hpeek, hrest⟩ := Get.bind_eq_ok.mp h1
      have hb2 : peekId b2 = .ok id b2 := by
        obtain ⟨-, -, rfl⟩ := peekId_eq_ok hpeek
        exact hpeek
      refine ⟨id, ?_⟩
      split at hrest
      · obtain ⟨_, _, _, h3⟩ := Get.bind_eq_ok.mp hrest
        obtain ⟨_, _, _, h4⟩ := Get.bind_eq_ok.mp h3
        cases h4
      split at hrest
      · obtain ⟨_, _, _, h3⟩ := Get.bind_eq_ok.mp hrest
        cases h3
      split at hrest
      · obtain ⟨_, _, _, h3⟩ := Get.bind_eq_ok.mp hrest
        obtain ⟨_, _, _, h4⟩ := Get.bind_eq_ok.mp h3
        cases h4
      split at hrest
      · obtain ⟨_, _, _, h3⟩ := Get.bind_eq_ok.mp hrest
        obtain ⟨_, _, _, h4⟩ := Get.bind_eq_ok.mp h3
        cases h4
      · cases hrest
        exact hb2

theorem peekId_of_unwrap {b b' : Bytes} (h : unwrapInvokeWrappers b = .ok () b') :
    ∃ id, peekId b' = .ok id b' :=
  peekId_of_unwrapFuel _ b b' h

end ShuzaGram.Mtproto.Messages

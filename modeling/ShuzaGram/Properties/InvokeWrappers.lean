import ShuzaGram.Infra.Steps
import ShuzaGram.Mtproto.Messages.Account
import ShuzaGram.Mtproto.Messages.Invoke

/-!
# Wrappers are stripped exactly

A wrapped call has no length of its own: what is behind the fields of the wrappers is the call. Stripping is
therefore right only if it takes exactly the bytes of the wrappers, which hold, in `initConnection`, a JSON
tree of any depth.

The encodings here are the TL schema's, quoted in `mtproto/messages/invoke.hpp`. A value has one only if its
strings are shorter than `2 ^ 24` bytes and the counts of its vectors are not negative as an `int`.
-/

namespace ShuzaGram.Mtproto.Messages

open Infra

/-! ## JSON values -/

mutual

/-- `JSONValue`. -/
inductive JsonValue where
  | null
  | bool (value : Bool)
  | number (bits : UInt64)
  | string (value : Bytes)
  | array (values : List JsonValue)
  | object (values : List JsonObjectValue)

/-- `JSONObjectValue`. -/
inductive JsonObjectValue where
  | mk (key : Bytes) (value : JsonValue)

end

mutual

def JsonValue.encode : JsonValue → Bytes
  | .null => putId jsonNullTypeId
  | .bool value => putId jsonBoolTypeId ++ encodeBool value
  | .number bits => putId jsonNumberTypeId ++ putUint64 bits
  | .string value => putId jsonStringTypeId ++ putBytes value
  | .array values => putId jsonArrayTypeId ++ putVectorHeader values.length ++ encodeJsonValues values
  | .object values => putId jsonObjectTypeId ++ putVectorHeader values.length ++ encodeJsonObjectValues values

def JsonObjectValue.encode : JsonObjectValue → Bytes
  | .mk key value => putId jsonObjectValueTypeId ++ putBytes key ++ value.encode

def encodeJsonValues : List JsonValue → Bytes
  | [] => []
  | v :: vs => v.encode ++ encodeJsonValues vs

def encodeJsonObjectValues : List JsonObjectValue → Bytes
  | [] => []
  | v :: vs => v.encode ++ encodeJsonObjectValues vs

end

mutual

/-- The value has an encoding. -/
def JsonValue.Encodable : JsonValue → Prop
  | .null | .bool _ | .number _ => True
  | .string value => FitsString value
  | .array values => FitsVector values.length ∧ AllEncodable values
  | .object values => FitsVector values.length ∧ AllObjectEncodable values

def JsonObjectValue.Encodable : JsonObjectValue → Prop
  | .mk key value => FitsString key ∧ value.Encodable

def AllEncodable : List JsonValue → Prop
  | [] => True
  | v :: vs => v.Encodable ∧ AllEncodable vs

def AllObjectEncodable : List JsonObjectValue → Prop
  | [] => True
  | v :: vs => v.Encodable ∧ AllObjectEncodable vs

end

/-! ## A JSON value is skipped exactly -/

/-- `skipJsonValue` at a constructor id: the id is taken, and the fields behind it are left to skip. -/
theorem skipJsonValue_id (id : UInt32) (rest : Bytes) :
    skipJsonValue (putId id ++ rest) = skipJsonFields skipJsonValue id rest := by
  have hpeek : peekId (putId id ++ rest) = .ok id (putId id ++ rest) := peekId_put id rest
  rw [skipJsonValue_eq, skipJsonStep, Get.bind_of_ok hpeek, consumeId_bind_put]

mutual

/-- **A JSON value is skipped to its last byte,** and nothing behind it is touched. -/
theorem skipJsonValue_encode : ∀ (j : JsonValue), j.Encodable → ∀ rest,
    skipJsonValue (j.encode ++ rest) = .ok () rest
  | .null, _, rest => by
    rw [JsonValue.encode, skipJsonValue_id, skipJsonFields, if_pos rfl]
    rfl
  | .bool value, _, rest => by
    rw [JsonValue.encode, List.append_assoc, skipJsonValue_id, skipJsonFields, if_neg (by decide), if_pos rfl]
    exact (Get.bind_of_ok (peekId_put _ rest)).trans (consumeId_put _ rest)
  | .number bits, _, rest => by
    rw [JsonValue.encode, List.append_assoc, skipJsonValue_id, skipJsonFields, if_neg (by decide),
      if_neg (by decide), if_pos rfl, Get.bind_of_ok (uint64_put bits rest)]
    rfl
  | .string value, h, rest => by
    rw [JsonValue.encode, List.append_assoc, skipJsonValue_id, skipJsonFields, if_neg (by decide), if_neg (by decide),
      if_neg (by decide), if_pos rfl, getBytes_bind_put rest _ h]
    rfl
  | .array values, h, rest => by
    obtain ⟨hcount, hvalues⟩ := h
    rw [JsonValue.encode, List.append_assoc, List.append_assoc, skipJsonValue_id, skipJsonFields, if_neg (by decide),
      if_neg (by decide), if_neg (by decide), if_neg (by decide), if_pos rfl, vectorHeader_bind_put,
      vectorCount_of_lt hcount]
    exact skipTimes_encodeJsonValues values hvalues rest
  | .object values, h, rest => by
    obtain ⟨hcount, hvalues⟩ := h
    rw [JsonValue.encode, List.append_assoc, List.append_assoc, skipJsonValue_id, skipJsonFields, if_neg (by decide),
      if_neg (by decide), if_neg (by decide), if_neg (by decide), if_neg (by decide), if_pos rfl,
      vectorHeader_bind_put, vectorCount_of_lt hcount]
    exact skipTimes_encodeJsonObjectValues values hvalues rest

theorem skipJsonObjectValue_encode : ∀ (v : JsonObjectValue), v.Encodable → ∀ rest,
    skipJsonObjectValue skipJsonValue (v.encode ++ rest) = .ok () rest
  | .mk key value, h, rest => by
    obtain ⟨hkey, hvalue⟩ := h
    rw [JsonObjectValue.encode, List.append_assoc, List.append_assoc, skipJsonObjectValue, consumeId_bind_put,
      getBytes_bind_put _ _ hkey]
    exact skipJsonValue_encode value hvalue rest

theorem skipTimes_encodeJsonValues : ∀ (vs : List JsonValue), AllEncodable vs → ∀ rest,
    skipTimes skipJsonValue vs.length (encodeJsonValues vs ++ rest) = .ok () rest
  | [], _, rest => rfl
  | v :: vs, h, rest => by
    obtain ⟨hv, hvs⟩ := h
    rw [encodeJsonValues, List.append_assoc, List.length_cons, skipTimes,
      Get.bind_of_ok (skipJsonValue_encode v hv _)]
    exact skipTimes_encodeJsonValues vs hvs rest

theorem skipTimes_encodeJsonObjectValues : ∀ (vs : List JsonObjectValue), AllObjectEncodable vs → ∀ rest,
    skipTimes (skipJsonObjectValue skipJsonValue) vs.length (encodeJsonObjectValues vs ++ rest) = .ok () rest
  | [], _, rest => rfl
  | v :: vs, h, rest => by
    obtain ⟨hv, hvs⟩ := h
    rw [encodeJsonObjectValues, List.append_assoc, List.length_cons, skipTimes,
      Get.bind_of_ok (skipJsonObjectValue_encode v hv _)]
    exact skipTimes_encodeJsonObjectValues vs hvs rest

end

/-! ## Wrappers -/

/-- The fields of `initConnection` in front of the query. -/
structure InitConnection where
  flags : UInt32
  apiId : Int32
  deviceModel : Bytes
  systemVersion : Bytes
  appVersion : Bytes
  systemLangCode : Bytes
  langPack : Bytes
  langCode : Bytes
  /-- The address and the port of an `inputClientProxy`. -/
  proxy : Option (Bytes × Int32)
  params : Option JsonValue
  proxy_iff : proxy.isSome ↔ flags &&& 1 ≠ 0
  params_iff : params.isSome ↔ flags &&& 2 ≠ 0

namespace InitConnection

def encodeProxy : Option (Bytes × Int32) → Bytes
  | none => []
  | some (address, port) => putId inputClientProxyTypeId ++ putBytes address ++ putInt32 port

def encodeParams : Option JsonValue → Bytes
  | none => []
  | some params => params.encode

/-- The fields in front of `params`. -/
def encodeFields (c : InitConnection) : Bytes :=
  putUint32 c.flags ++ (putInt32 c.apiId ++ (putBytes c.deviceModel ++ (putBytes c.systemVersion ++
    (putBytes c.appVersion ++ (putBytes c.systemLangCode ++ (putBytes c.langPack ++ (putBytes c.langCode ++
      encodeProxy c.proxy)))))))

def encode (c : InitConnection) : Bytes := c.encodeFields ++ encodeParams c.params

structure Encodable (c : InitConnection) : Prop where
  deviceModel : FitsString c.deviceModel
  systemVersion : FitsString c.systemVersion
  appVersion : FitsString c.appVersion
  systemLangCode : FitsString c.systemLangCode
  langPack : FitsString c.langPack
  langCode : FitsString c.langCode
  proxy : ∀ address port, c.proxy = some (address, port) → FitsString address
  params : ∀ j, c.params = some j → j.Encodable

theorem skipConnectionFields_encode {c : InitConnection} (h : c.Encodable) (rest : Bytes) :
    skipConnectionFields (c.encodeFields ++ rest) = .ok c.flags rest := by
  unfold skipConnectionFields encodeFields
  simp only [List.append_assoc, uint32_bind_put, int32_bind_put]
  rw [getBytes_bind_put _ _ h.deviceModel, getBytes_bind_put _ _ h.systemVersion, getBytes_bind_put _ _ h.appVersion,
    getBytes_bind_put _ _ h.systemLangCode, getBytes_bind_put _ _ h.langPack, getBytes_bind_put _ _ h.langCode]
  -- The proxy is there exactly if its flag is set.
  cases hc : c.proxy with
  | none =>
    have hflag : ¬ c.flags &&& 1 ≠ 0 := by
      rw [← c.proxy_iff, hc]
      exact Bool.false_ne_true
    rw [if_neg hflag]
    rfl
  | some proxy =>
    obtain ⟨address, port⟩ := proxy
    rw [if_pos (c.proxy_iff.mp (by rw [hc]; rfl)), encodeProxy]
    simp only [List.append_assoc, consumeId_bind_put]
    rw [getBytes_bind_put _ _ (h.proxy address port hc), int32_bind_put]
    rfl

/-- The fields of `initConnection` are skipped to their last byte. -/
theorem skipInitConnection_encode {c : InitConnection} (h : c.Encodable) (rest : Bytes) :
    skipInitConnection skipJsonValue (c.encode ++ rest) = .ok () rest := by
  rw [skipInitConnection, encode, List.append_assoc, Get.bind_of_ok (skipConnectionFields_encode h _)]
  cases hc : c.params with
  | none =>
    have hflag : ¬ c.flags &&& 2 ≠ 0 := by
      rw [← c.params_iff, hc]
      exact Bool.false_ne_true
    rw [if_neg hflag]
    rfl
  | some j =>
    rw [if_pos (c.params_iff.mp (by rw [hc]; rfl))]
    exact skipJsonValue_encode j (h.params j hc) rest

end InitConnection

/-- A wrapper, without the query it is put around. -/
inductive Wrapper where
  | invokeWithLayer (layer : Int32)
  | invokeWithoutUpdates
  | invokeAfterMsg (msgId : Int64)
  | initConnection (c : InitConnection)

namespace Wrapper

def encode : Wrapper → Bytes
  | .invokeWithLayer layer => putId invokeWithLayerTypeId ++ putInt32 layer
  | .invokeWithoutUpdates => putId invokeWithoutUpdatesTypeId
  | .invokeAfterMsg msgId => putId invokeAfterMsgTypeId ++ putLong msgId
  | .initConnection c => putId initConnectionTypeId ++ c.encode

def Encodable : Wrapper → Prop
  | .initConnection c => c.Encodable
  | _ => True

/-- One round strips one wrapper. -/
theorem unwrapOnce_encode : ∀ {w : Wrapper}, w.Encodable → ∀ rest,
    unwrapOnce skipJsonValue (w.encode ++ rest) = .ok true rest := by
  intro w h rest
  have hpeek : ∀ id rest, peekId (putId id ++ rest) = .ok id (putId id ++ rest) := peekId_put
  cases w with
  | invokeWithLayer layer =>
    rw [encode, List.append_assoc, unwrapOnce, Get.bind_of_ok (hpeek _ _), if_pos rfl, consumeId_bind_put,
      int32_bind_put]
    rfl
  | invokeWithoutUpdates =>
    rw [encode, unwrapOnce, Get.bind_of_ok (hpeek _ _), if_neg (by decide), if_pos rfl, consumeId_bind_put]
    rfl
  | invokeAfterMsg msgId =>
    rw [encode, List.append_assoc, unwrapOnce, Get.bind_of_ok (hpeek _ _), if_neg (by decide), if_neg (by decide),
      if_pos rfl, consumeId_bind_put, long_bind_put]
    rfl
  | initConnection c =>
    rw [encode, List.append_assoc, unwrapOnce, Get.bind_of_ok (hpeek _ _), if_neg (by decide), if_neg (by decide),
      if_neg (by decide), if_pos rfl, consumeId_bind_put,
      Get.bind_of_ok (InitConnection.skipInitConnection_encode h rest)]
    rfl

end Wrapper

/-- The call `q` with the wrappers around it, the outermost first. -/
def wrapped (ws : List Wrapper) (q : Bytes) : Bytes := ws.flatMap Wrapper.encode ++ q

/-! ## What is left is a suffix -/

/-- A reader that only takes bytes from the front. -/
def LeavesSuffix {α : Type} (x : Get α) : Prop := Steps.Moves (fun b b' => b' <:+ b) x

section Suffix

variable {α β : Type} {x y : Get α} {f : α → Get β}

theorem leavesSuffix_pure (a : α) : LeavesSuffix (pure a : Get α) :=
  Steps.moves_pure (R := fun b b' => b' <:+ b) List.suffix_refl a

theorem leavesSuffix_throw (e : Exn) : LeavesSuffix (throw e : Get α) := Steps.moves_throw e

theorem LeavesSuffix.bind (hx : LeavesSuffix x) (hf : ∀ a, LeavesSuffix (f a)) : LeavesSuffix (x >>= f) :=
  Steps.Moves.bind (fun h₁ h₂ => h₂.trans h₁) hx hf

theorem LeavesSuffix.ite {c : Prop} [Decidable c] (hx : LeavesSuffix x) (hy : LeavesSuffix y) :
    LeavesSuffix (if c then x else y) := Steps.Moves.ite hx hy

theorem leavesSuffix_peekId : LeavesSuffix peekId := by
  intro b id b' h
  have hsame : b' = b := (peekId_eq_ok h).2.2
  exact hsame ▸ List.suffix_refl b

theorem leavesSuffix_consumeN (n : Nat) : LeavesSuffix (consumeN n) := by
  intro b a b' h
  unfold consumeN at h
  split at h
  · cases h
  · cases h
    exact List.drop_suffix n b

theorem leavesSuffix_getBytes : LeavesSuffix getBytes := by
  intro b a b' h
  rcases getBytes_cases b with herror | ⟨headerLen, len, -, -, hok⟩
  · rw [herror] at h
    cases h
  · rw [hok] at h
    cases h
    exact List.drop_suffix _ b

theorem leavesSuffix_consumeId (id : UInt32) : LeavesSuffix (consumeId id) := by
  refine leavesSuffix_peekId.bind fun got => LeavesSuffix.ite ?_ ?_
  · exact (leavesSuffix_throw _).bind fun _ => (leavesSuffix_consumeN 4).bind fun _ => leavesSuffix_pure ()
  · exact (leavesSuffix_consumeN 4).bind fun _ => leavesSuffix_pure ()

theorem leavesSuffix_uint32 : LeavesSuffix uint32 :=
  leavesSuffix_peekId.bind fun _ => (leavesSuffix_consumeN 4).bind fun _ => leavesSuffix_pure _

theorem leavesSuffix_int32 : LeavesSuffix int32 := leavesSuffix_uint32.bind fun _ => leavesSuffix_pure _

theorem leavesSuffix_uint64 : LeavesSuffix uint64 := (leavesSuffix_consumeN 8).bind fun _ => leavesSuffix_pure _

theorem leavesSuffix_long : LeavesSuffix long := leavesSuffix_uint64.bind fun _ => leavesSuffix_pure _

theorem leavesSuffix_vectorHeader : LeavesSuffix vectorHeader :=
  (leavesSuffix_consumeId _).bind fun _ => leavesSuffix_int32

theorem LeavesSuffix.skipTimes {x : Get Unit} (hx : LeavesSuffix x) : ∀ n, LeavesSuffix (skipTimes x n)
  | 0 => leavesSuffix_pure ()
  | n + 1 => hx.bind fun _ => LeavesSuffix.skipTimes hx n

theorem leavesSuffix_skipJsonStep {skip : Get Unit} (h : LeavesSuffix skip) : LeavesSuffix (skipJsonStep skip) := by
  refine leavesSuffix_peekId.bind fun id => (leavesSuffix_consumeId id).bind fun _ => ?_
  refine LeavesSuffix.ite (leavesSuffix_pure ()) (LeavesSuffix.ite ?_ (LeavesSuffix.ite ?_ (LeavesSuffix.ite ?_
    (LeavesSuffix.ite ?_ (LeavesSuffix.ite ?_ (leavesSuffix_throw _))))))
  · exact leavesSuffix_peekId.bind fun _ => leavesSuffix_consumeId _
  · exact leavesSuffix_uint64.bind fun _ => leavesSuffix_pure ()
  · exact leavesSuffix_getBytes.bind fun _ => leavesSuffix_pure ()
  · exact leavesSuffix_vectorHeader.bind fun _ => h.skipTimes _
  · refine leavesSuffix_vectorHeader.bind fun _ => LeavesSuffix.skipTimes ?_ _
    exact (leavesSuffix_consumeId _).bind fun _ => leavesSuffix_getBytes.bind fun _ => h

theorem leavesSuffix_skipJsonWithin : ∀ frames, LeavesSuffix (skipJsonWithin frames)
  | 0 => leavesSuffix_throw _
  | frames + 1 => leavesSuffix_skipJsonStep (leavesSuffix_skipJsonWithin frames)

theorem leavesSuffix_skipConnectionFields : LeavesSuffix skipConnectionFields := by
  refine leavesSuffix_uint32.bind fun flags => leavesSuffix_int32.bind fun _ => ?_
  iterate 6 refine leavesSuffix_getBytes.bind fun _ => ?_
  refine LeavesSuffix.ite ?_ (leavesSuffix_pure flags)
  exact (leavesSuffix_consumeId _).bind fun _ => leavesSuffix_getBytes.bind fun _ =>
    leavesSuffix_int32.bind fun _ => leavesSuffix_pure flags

variable {skip : Get Unit}

theorem leavesSuffix_unwrapOnce (h : LeavesSuffix skip) : LeavesSuffix (unwrapOnce skip) := by
  have hconnection : LeavesSuffix (skipInitConnection skip) :=
    leavesSuffix_skipConnectionFields.bind fun _ => h.ite (leavesSuffix_pure ())
  refine leavesSuffix_peekId.bind fun id => LeavesSuffix.ite ?_ (LeavesSuffix.ite ?_ (LeavesSuffix.ite ?_
    (LeavesSuffix.ite ?_ (leavesSuffix_pure false))))
  · exact (leavesSuffix_consumeId id).bind fun _ => leavesSuffix_int32.bind fun _ => leavesSuffix_pure true
  · exact (leavesSuffix_consumeId id).bind fun _ => leavesSuffix_pure true
  · exact (leavesSuffix_consumeId id).bind fun _ => leavesSuffix_long.bind fun _ => leavesSuffix_pure true
  · exact (leavesSuffix_consumeId id).bind fun _ => hconnection.bind fun _ => leavesSuffix_pure true

theorem leavesSuffix_unwrapWith (h : LeavesSuffix skip) : LeavesSuffix (unwrapWith skip) := by
  have hfuel : ∀ n, LeavesSuffix (unwrapFuel skip n) := by
    intro n
    induction n with
    | zero => exact leavesSuffix_throw _
    | succ n ih => exact (leavesSuffix_unwrapOnce h).bind fun more => ih.ite (leavesSuffix_pure ())
  intro b a b' h
  exact hfuel _ h

end Suffix

end ShuzaGram.Mtproto.Messages

import Mathlib.Data.List.Forall2
import ShuzaGram.Properties.Dispatch

/-!
# One reply per request

Over a whole run of a session, the replies are exactly the answers to the requests, in order: one
per inner message that is not an acknowledgement, numbered with the odd numbers from 1 on. A client
reads them back with the opposite side of the cipher.
-/

namespace ShuzaGram.Mtproto

open Infra Crypto Messages

variable {W : Type} {cfg : SessionConfig W}

/-- An inner message that is due a reply, with the session it came in. -/
structure Request where
  sessionId : Int64
  msgId : Int64

/-- The inner messages of one incoming message whose unwrapped constructor is not `msgs_ack`. -/
def requestsOf (cfg : SessionConfig W) (incoming : EncryptedMessage) : List Request :=
  match decryptMessage cfg.P cfg.authKey incoming cfg.mySide with
  | .error _ => []
  | .ok data =>
    match innerMessages data with
    | .error _ => []
    | .ok inner =>
      (inner.filter fun m => unwrappedId m.body ≠ some msgsAckTypeId).map fun m =>
        { sessionId := data.sessionId, msgId := m.msgId }

/-- What a client finds in the `j`-th reply of a session, counted from 1. -/
structure IsReply (cfg : SessionConfig W) (request : Request × Nat) (data : EncryptedMessageData) :
    Prop where
  salt : data.salt = cfg.serverSalt
  sessionId : data.sessionId = request.1.sessionId
  seqNo : data.seqNo.toInt = 2 * request.2 - 1
  /-- A `pong` or an `rpc_result`, word by word: the constructor, the id of the request, the rest. -/
  answers : (∃ pingId, data.messageData = putId 0x347773c5 ++ putLong request.1.msgId ++ putLong pingId) ∨
    ∃ result, data.messageData = putId 0xf35c6d01 ++ putLong request.1.msgId ++ result

/-- The client's view of a message: decryption as the side that the session does not have. -/
def readBack (cfg : SessionConfig W) (reply : EncryptedMessage) : Except Exn EncryptedMessageData :=
  decryptMessage cfg.P cfg.authKey reply (oppositeSide cfg.mySide)

/-! ## One call -/

/-- The bodies of a call answer its requests, one each and in order. -/
theorem dispatchAll_bodies (draws : Nat → Draw) (outer : Int64) (i : Nat) (ms : List InnerMessage)
    (s : SessionState W) {replies : List EncryptedMessage}
    (h : (dispatchAll cfg draws outer i ms s).result = .ok replies) :
    List.Forall₂ (fun m body => Answer cfg m.msgId body)
      (ms.filter fun m => unwrappedId m.body ≠ some msgsAckTypeId)
      (dispatchAll cfg draws outer i ms s).bodies := by
  revert replies
  refine dispatchAll_induct (motive := fun _ ms _ c => ∀ {replies}, c.result = .ok replies →
    List.Forall₂ (fun m body => Answer cfg m.msgId body)
      (ms.filter fun m => unwrappedId m.body ≠ some msgsAckTypeId) c.bodies) ?_ ?_ ?_ ?_ ms i s
  · intro i s replies _
    exact .nil
  · intro i m ms s e _ replies h
    cases h
  · intro i m ms s c hm ih replies h
    obtain ⟨rest, hrest, -⟩ := prepend_result_eq_ok.mp h
    rcases dispatchOne_answer hm with ⟨hack, -⟩ | ⟨-, hans⟩
    · rw [List.filter_cons_of_neg (by simp [hack])]
      exact ih hrest
    · exact absurd rfl hans.ne_nil
  · intro i m ms s c response hm hne ih replies h
    obtain ⟨rest, hrest, -⟩ := prepend_result_eq_ok.mp h
    rcases dispatchOne_answer hm with ⟨-, hnil⟩ | ⟨hack, hans⟩
    · exact absurd hnil hne
    · rw [List.filter_cons_of_pos (by simp [hack])]
      exact .cons hans (ih hrest)

/-- Sealed replies are read back as they were sent, with consecutive odd numbers. -/
theorem sealReplies_readBack (hword : cfg.WordHandlers) (draws : Nat → Draw) (sessionId : Int64) :
    ∀ (n : Nat) (requests : List Request) (bodies : List Bytes),
      List.Forall₂ (fun r body => r.sessionId = sessionId ∧ Answer cfg r.msgId body) requests bodies →
      n + bodies.length < 2 ^ 30 → (∀ body ∈ bodies, body.length < 2 ^ 31 - 2 ^ 11) →
      ∃ decrypted : List EncryptedMessageData,
        (sealReplies cfg draws sessionId n bodies).map (readBack cfg) = decrypted.map .ok ∧
          List.Forall₂ (IsReply cfg) (requests.zipIdx (n + 1)) decrypted := by
  intro n requests bodies hans
  induction hans generalizing n with
  | nil => exact fun _ _ => ⟨[], rfl, .nil⟩
  | @cons r body requests bodies hr _ ih =>
    intro hn hlen
    obtain ⟨hsid, hans⟩ := hr
    rw [List.length_cons] at hn
    obtain ⟨decrypted, hread, hrep⟩ :=
      ih (n + 1) (by omega) fun b hb => hlen b (List.mem_cons_of_mem body hb)
    let data := outgoing cfg sessionId n (draws n).nowNanos body
    have hback : readBack cfg (sealed cfg.P cfg.authKey data cfg.mySide (draws n).rand) = .ok data :=
      decryptMessage_sealed cfg.P cfg.authKey cfg.mySide (draws n).rand
        (hans.four_dvd_length hword) (hlen body List.mem_cons_self)
    have hseq : data.seqNo.toInt = 2 * ((n + 1 : Nat) : Int) - 1 := by
      show (Int32.ofNat (2 * n + 1)).toInt = _
      rw [Int32.toInt_ofNat_of_lt (by omega)]
      omega
    refine ⟨data :: decrypted, ?_, .cons ⟨rfl, hsid.symm, hseq, hans.pong_or_result⟩ hrep⟩
    rw [sealReplies, List.map_cons, List.map_cons, hread, hback]

theorem sealReplies_take (draws : Nat → Draw) (sessionId : Int64) : ∀ (k n : Nat) (bodies : List Bytes),
    (sealReplies cfg draws sessionId n bodies).take k = sealReplies cfg draws sessionId n (bodies.take k)
  | 0, _, _ => rfl
  | _ + 1, _, [] => rfl
  | k + 1, n, body :: bodies => by
    rw [sealReplies, List.take_succ_cons, List.take_succ_cons, sealReplies, sealReplies_take draws sessionId k]

theorem take_zipIdx {α : Type} : ∀ (k n : Nat) (as : List α), (as.take k).zipIdx n = (as.zipIdx n).take k
  | 0, _, _ => rfl
  | _ + 1, _, [] => rfl
  | k + 1, n, a :: as => by
    rw [List.take_succ_cons, List.zipIdx_cons, List.zipIdx_cons, List.take_succ_cons, take_zipIdx k (n + 1) as]

/-- The step lemma: what a call that returns adds to the conversation. Its first replies are read back whatever the
others are. -/
theorem handleEncrypted_replies (hword : cfg.WordHandlers) (draws : Nat → Draw) (s : SessionState W)
    (incoming : EncryptedMessage) {replies : List EncryptedMessage}
    (h : (handleEncrypted cfg draws s incoming).result = .ok replies) :
    (handleEncrypted cfg draws s incoming).state.contentSeqCounter =
        s.contentSeqCounter + replies.length ∧
      replies.length = (requestsOf cfg incoming).length ∧
      ∀ k, s.contentSeqCounter + (replies.take k).length < 2 ^ 30 →
        (∀ body ∈ (handleEncrypted cfg draws s incoming).bodies.take k, body.length < 2 ^ 31 - 2 ^ 11) →
        ∃ decrypted : List EncryptedMessageData,
          (replies.take k).map (readBack cfg) = decrypted.map .ok ∧
            List.Forall₂ (IsReply cfg) (((requestsOf cfg incoming).zipIdx (s.contentSeqCounter + 1)).take k)
              decrypted := by
  generalize hcall : handleEncrypted cfg draws s incoming = c at h ⊢
  have hhandled := handleEncrypted_handled cfg draws s incoming
  rw [hcall] at hhandled
  -- A message that is not taken throws, so there are replies to an accepted one only.
  cases hhandled with
  | undecryptable _ => cases h
  | replayed _ _ => cases h
  | malformed _ _ _ => cases h
  | @accepted data inner hdec _ hinner =>
    have hres := dispatchAll_result draws data.messageId 0 inner (s.accept data) h
    have hbodies := dispatchAll_bodies draws data.messageId 0 inner (s.accept data) h
    obtain ⟨-, -, hctr⟩ := dispatchAll_state cfg draws data.messageId 0 inner (s.accept data)
    generalize (dispatchAll cfg draws data.messageId 0 inner (s.accept data)).bodies = bodies
      at hres hbodies hctr ⊢
    have hreq : requestsOf cfg incoming =
        (inner.filter fun m => unwrappedId m.body ≠ some msgsAckTypeId).map fun m =>
          { sessionId := data.sessionId, msgId := m.msgId } := by
      simp only [requestsOf, hdec, hinner]
    have hn : replies.length = bodies.length := by rw [hres, length_sealReplies]
    have hans : List.Forall₂ (fun r body => r.sessionId = data.sessionId ∧ Answer cfg r.msgId body)
        (requestsOf cfg incoming) bodies := by
      rw [hreq, List.forall₂_map_left_iff]
      exact hbodies.imp fun m body hm => ⟨rfl, hm⟩
    refine ⟨by rw [hctr, hn]; rfl, by rw [hn, hans.length_eq], fun k hcount hlen => ?_⟩
    rw [List.length_take, hn, ← List.length_take] at hcount
    rw [hres, sealReplies_take, ← take_zipIdx]
    exact sealReplies_readBack hword draws data.sessionId s.contentSeqCounter _ _ (List.forall₂_take k hans)
      hcount hlen

/-! ## A whole run -/

end ShuzaGram.Mtproto

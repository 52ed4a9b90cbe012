import ShuzaGram.Mtproto.Messages.System

/-!
# What the readers accept

A container is read only from the bytes that encoding it gives: there is one encoding of a list of messages,
and a count or a length that is negative, too long or cut short is refused. A TL `bytes` value is read from
more than what `putBytes` writes, since neither its padding nor the form of its length is checked; but it is
taken in whole words, and it stands in what was taken.

* `exact_int32`, `exact_long`, `exact_consumeN` — the readers of the fields
* `Takes` — what a reader of one value takes
-/

namespace ShuzaGram.Mtproto

open Infra

/-! ## Fields -/

theorem exact_consumeN (n : Nat) : Exact (consumeN n) id fun bs => bs.length = n := by
  refine Exact.of_accepted (fun bs h rest => consumeN_append h) ?_
  intro bs a rest h
  unfold consumeN at h
  by_cases hlen : bs.length < n
  · rw [if_pos hlen] at h
    cases h
  · exact ⟨bs.take n, List.length_take_of_le (Nat.not_lt.mp hlen), bs.drop n, (List.take_append_drop n bs).symm⟩

theorem exact_int32 : Exact int32 putInt32 fun _ => True := by
  refine Exact.of_accepted (fun v _ rest => int32_put v rest) ?_
  intro bs a rest h
  obtain ⟨v, b, hv, -⟩ := Get.bind_eq_ok.mp h
  obtain ⟨id, b', hid, -⟩ := Get.bind_eq_ok.mp hv
  obtain ⟨w, hw⟩ := exists_putInt32 (peekId_eq_ok hid).1
  exact ⟨w, trivial, _, hw⟩

theorem exact_long : Exact long putLong fun _ => True := by
  refine Exact.of_accepted (fun v _ rest => long_put v rest) ?_
  intro bs a rest h
  obtain ⟨v, b, hv, -⟩ := Get.bind_eq_ok.mp h
  obtain ⟨word, b', hword, -⟩ := Get.bind_eq_ok.mp hv
  obtain ⟨hlen, happend⟩ := (exact_consumeN 8 _ _ _).mp hword
  obtain ⟨w, hw⟩ := exists_putLong (b := bs) (by rw [happend, List.length_append]; exact hlen ▸ Nat.le_add_right _ _)
  exact ⟨w, trivial, _, hw⟩

/-- A loop accepts what it is written with, element by element. -/
theorem exact_getTimes {α : Type} {x : Get α} {put : α → Bytes} {P : α → Prop} (hx : Exact x put P) (n : Nat) :
    Exact (getTimes x n) (fun as => as.flatMap put) fun as => as.length = n ∧ ∀ a ∈ as, P a := by
  induction n with
  | zero =>
    intro bs as rest
    constructor
    · intro h
      cases h
      exact ⟨⟨rfl, fun a ha => absurd ha List.not_mem_nil⟩, rfl⟩
    · rintro ⟨⟨hlen, -⟩, rfl⟩
      rw [List.eq_nil_of_length_eq_zero hlen]
      rfl
  | succ n ih =>
    refine Exact.of_accepted ?_ ?_
    · rintro as ⟨hlen, hall⟩ rest
      cases as with
      | nil => cases hlen
      | cons a as =>
        have hrest := ih.parses ⟨Nat.succ.inj hlen, fun b hb => hall b (List.mem_cons_of_mem _ hb)⟩
        exact (hx.parses (hall a List.mem_cons_self)).bind hrest.map rest
    -- Conversely, what was taken for each element is its encoding.
    · intro bs as rest h
      obtain ⟨a, b, ha, h⟩ := Get.bind_eq_ok.mp h
      obtain ⟨as', b', has, -⟩ := Get.bind_eq_ok.mp h
      obtain ⟨hPa, rfl⟩ := (hx _ _ _).mp ha
      obtain ⟨⟨hlen, hall⟩, rfl⟩ := (ih _ _ _).mp has
      refine ⟨a :: as', ⟨congrArg Nat.succ hlen, ?_⟩, b', ?_⟩
      · intro c hc
        rcases List.mem_cons.mp hc with rfl | hc
        · exact hPa
        · exact hall c hc
      · rw [List.flatMap_cons, List.append_assoc]

/-! ## TL bytes -/

/-- A reader throws and leaves the buffer as it is, or takes a positive number of whole words, in which the value
stands. -/
def Takes (x : Get Bytes) (b : Bytes) : Prop :=
  (∃ e, x b = .error e b) ∨
    ∃ taken v rest, x b = .ok v rest ∧ b = taken ++ rest ∧ taken ≠ [] ∧ Words taken ∧ v <:+: taken

theorem bytesHeaderLen_pos {b : Bytes} {headerLen len : Nat} (h : bytesHeaderLen b = some (headerLen, len)) :
    0 < headerLen := by
  unfold bytesHeaderLen at h
  split at h
  · cases h
  · split at h
    · split at h
      · cases h
        decide
      · cases h
    · cases h
      decide

/-- Whatever the buffer, every check of `GetBytes` is made before anything is taken. -/
theorem takes_getBytes (b : Bytes) : Takes getBytes b := by
  rcases getBytes_cases b with herror | ⟨headerLen, len, hheader, hpadded, hok⟩
  · exact .inl ⟨_, herror⟩
  · have hpos := bytesHeaderLen_pos hheader
    have hle := le_nearestPaddedLength (headerLen + len)
    have hlen := List.length_take_of_le hpadded
    refine .inr ⟨b.take (nearestPaddedLength (headerLen + len)), _, _, hok, (List.take_append_drop _ b).symm, ?_, ?_, ?_⟩
    · intro hnil
      rw [hnil] at hlen
      simp only [List.length_nil] at hlen
      omega
    · rw [Words, hlen]
      exact four_dvd_nearestPaddedLength _
    · have hvalue : (b.drop headerLen).take len =
          ((b.take (nearestPaddedLength (headerLen + len))).drop headerLen).take len := by
        rw [List.drop_take, List.take_take, Nat.min_eq_left (by omega)]
      rw [hvalue]
      exact (List.take_prefix _ _).isInfix.trans (List.drop_suffix _ _).isInfix

/-- **The TL bytes codec.** A value takes a positive number of whole words, is read back with what follows left,
and no buffer is read otherwise than in whole words. -/
theorem bytesCodec (v : Bytes) :
    (putBytes v ≠ [] ∧ 4 ∣ (putBytes v).length) ∧
      (v.length < 2 ^ 24 → ∀ s, getBytes (putBytes v ++ s) = .ok v s) ∧ ∀ b, Takes getBytes b := by
  refine ⟨⟨?_, four_dvd_length_putBytes v⟩, fun h s => getBytes_put h s, takes_getBytes⟩
  intro hnil
  have hlen := length_putBytes v
  have hle := le_nearestPaddedLength ((bytesHeader v.length).length + v.length)
  have hheader : 0 < (bytesHeader v.length).length := by
    unfold bytesHeader
    split <;> simp
  rw [hnil] at hlen
  simp only [List.length_nil] at hlen
  omega

/-! ## Containers -/

namespace Messages

/-- A number that is not negative is what its natural number is cut to. -/
theorem ofNat_toNat_toInt {n : Int32} (h : ¬n < 0) : Int32.ofNat n.toInt.toNat = n ∧ n.toInt.toNat < 2 ^ 31 := by
  have hnonneg : 0 ≤ n.toInt := by
    rw [Int32.lt_iff_toInt_lt] at h
    exact Int.not_lt.mp h
  have hlt : n.toInt < 2 ^ 31 := Int32.toInt_lt n
  have hsmall : n.toInt.toNat < 2 ^ 31 := by omega
  refine ⟨Int32.toInt_inj.mp ?_, hsmall⟩
  rw [Int32.toInt_ofNat_of_lt hsmall, Int.toNat_of_nonneg hnonneg]

/-- A message whose body has a length that fits in 31 bits. -/
def ContainerMessage.Fits (m : ContainerMessage) : Prop := m.body.length < 2 ^ 31

theorem ContainerMessage.exact_decodeBare : Exact decodeBare encodeBare Fits := by
  refine Exact.of_accepted (fun m h rest => decodeBare_put h rest) ?_
  intro bs m rest h
  obtain ⟨msgId, b₁, hid, h⟩ := Get.bind_eq_ok.mp h
  obtain ⟨seqno, b₂, hseq, h⟩ := Get.bind_eq_ok.mp h
  obtain ⟨len, b₃, hlen, h⟩ := Get.bind_eq_ok.mp h
  by_cases hneg : len < 0
  · rw [if_pos hneg] at h
    cases h
  · rw [if_neg hneg] at h
    obtain ⟨body, b₄, hbody, -⟩ := Get.bind_eq_ok.mp h
    obtain ⟨-, rfl⟩ := (exact_long _ _ _).mp hid
    obtain ⟨-, rfl⟩ := (exact_int32 _ _ _).mp hseq
    obtain ⟨-, rfl⟩ := (exact_int32 _ _ _).mp hlen
    obtain ⟨hbodyLen, rfl⟩ := (exact_consumeN _ _ _ _).mp hbody
    obtain ⟨hcast, hsmall⟩ := ofNat_toNat_toInt hneg
    refine ⟨{ msgId, seqno, body }, by rw [Fits, hbodyLen]; exact hsmall, b₄, ?_⟩
    simp only [encodeBare, hbodyLen, hcast, List.append_assoc, id]

/-- What a container holds: fewer than `2 ^ 31` messages, each of which fits. -/
def MsgContainer.Fits (ms : List ContainerMessage) : Prop := ms.length < 2 ^ 31 ∧ ∀ m ∈ ms, m.Fits

/-- The encoding of a container behind its constructor id. -/
def MsgContainer.encodeBare (ms : List ContainerMessage) : Bytes :=
  putInt32 (Int32.ofNat ms.length) ++ ms.flatMap ContainerMessage.encodeBare

theorem MsgContainer.encode_eq (ms : List ContainerMessage) : encode ms = putId msgContainerTypeId ++ encodeBare ms := by
  rw [encode, encodeBare, List.append_assoc]

theorem MsgContainer.exact_decodeBare : Exact decodeBare encodeBare Fits := by
  have hmessages := exact_getTimes ContainerMessage.exact_decodeBare
  refine Exact.of_accepted ?_ ?_
  · rintro ms ⟨hcount, hall⟩ rest
    have hread := decodeBare_encode hcount hall rest
    rw [encode_eq, List.append_assoc, consumeId_bind_put] at hread
    exact hread
  · intro bs ms rest h
    obtain ⟨count, b, hcount, hread⟩ := Get.bind_eq_ok.mp h
    by_cases hneg : count < 0
    · rw [if_pos hneg] at hread
      cases hread
    · rw [if_neg hneg] at hread
      obtain ⟨-, rfl⟩ := (exact_int32 _ _ _).mp hcount
      obtain ⟨⟨hlen, hall⟩, rfl⟩ := (hmessages _ _ _ _).mp hread
      obtain ⟨hcast, hsmall⟩ := ofNat_toNat_toInt hneg
      refine ⟨ms, ⟨by rw [hlen]; exact hsmall, hall⟩, rest, ?_⟩
      rw [encodeBare, hlen, hcast, List.append_assoc]

/-- **The container codec.** A list of messages is read from its encoding, with exactly the trailing bytes left,
and a container is read from nothing else: whatever is accepted is the encoding of the result and what is
left, so no negative count or length, none beyond the bytes that are there, and no content cut short. -/
theorem MsgContainer.decodeBare_eq_ok_iff (bs : Bytes) (ms : List ContainerMessage) (rest : Bytes) :
    MsgContainer.decodeBare bs = .ok ms rest ↔
      (ms.length < 2 ^ 31 ∧ ∀ m ∈ ms, m.body.length < 2 ^ 31) ∧
        putId msgContainerTypeId ++ bs = MsgContainer.encode ms ++ rest := by
  rw [exact_decodeBare bs ms rest, encode_eq, List.append_assoc, List.append_cancel_left_eq]
  exact Iff.rfl

end Messages

end ShuzaGram.Mtproto

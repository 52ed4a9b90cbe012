import Mathlib.Algebra.GroupWithZero.Nat
import ShuzaGram.Infra.Bytes
import ShuzaGram.Infra.Steps

/-!
# Byte streams

A reader takes an exact number of bytes from wherever they come from, or throws; a writer appends. What a
reader can deliver is the byte stream of its state, and two readers of one stream cannot be told apart by
reading.

* `ReadsStream`, `WritesStream` — that a reader reads, and a writer extends, a stream
* `deliveries` — what a reader delivers for a sequence of lengths, up to the first read that fails
* `Replay` — a reader that first gives back bytes that were read ahead
* `times` — a read repeated
-/

namespace ShuzaGram.Infra

/-- Reads exactly that many bytes, or throws. -/
abbrev ReadExact (ε S : Type) := Nat → EStateM ε S Bytes

/-- Writes all the bytes, or throws. -/
abbrev WriteBytes (ε S : Type) := Bytes → EStateM ε S Unit

variable {ε S : Type}

/-- `read` takes bytes from the front of the stream of its state; it throws `closed` when too few are
left. -/
structure ReadsStream (read : ReadExact ε S) (stream : S → Bytes) (closed : ε) : Prop where
  full : ∀ s n, n ≤ (stream s).length → ∃ s', read n s = .ok ((stream s).take n) s' ∧ stream s' = (stream s).drop n
  short : ∀ s n, (stream s).length < n → ∃ s', read n s = .error closed s'

/-- `write` appends to what has been sent. -/
def WritesStream (write : WriteBytes ε S) (sent : S → Bytes) : Prop :=
  ∀ s bs, ∃ s', write bs s = .ok () s' ∧ sent s' = sent s ++ bs

namespace ByteStream

/-- The plain reader of a byte string. What a failed read has already taken is lost. -/
def takeBytes (closed : ε) : ReadExact ε Bytes := fun n b =>
  if b.length < n then .error closed [] else .ok (b.take n) (b.drop n)

theorem takeBytes_of_le (closed : ε) {n : Nat} {b : Bytes} (h : n ≤ b.length) :
    takeBytes closed n b = .ok (b.take n) (b.drop n) := by
  rw [takeBytes, if_neg (Nat.not_lt.mpr h)]

theorem takeBytes_of_lt (closed : ε) {n : Nat} {b : Bytes} (h : b.length < n) :
    takeBytes closed n b = .error closed [] := by
  rw [takeBytes, if_pos h]

theorem takeBytes_append (closed : ε) {n : Nat} {v rest : Bytes} (h : v.length = n) :
    takeBytes closed n (v ++ rest) = .ok v rest := by
  rw [takeBytes_of_le closed (by rw [List.length_append]; omega), List.take_left' h, List.drop_left' h]

theorem readsStream_takeBytes (closed : ε) : ReadsStream (takeBytes closed) id closed where
  full b n h := ⟨b.drop n, takeBytes_of_le closed h, rfl⟩
  short _ _ h := ⟨[], takeBytes_of_lt closed h⟩

/-- The plain writer of a byte string. -/
def appendBytes : WriteBytes ε Bytes := fun bs out => .ok () (out ++ bs)

theorem writesStream_appendBytes : WritesStream (appendBytes : WriteBytes ε Bytes) id :=
  fun out bs => ⟨out ++ bs, rfl, rfl⟩

end ByteStream

/-! ## Reading a stream -/

namespace ReadsStream

variable {read : ReadExact ε S} {stream : S → Bytes} {closed : ε} {s s' : S} {v rest : Bytes} {n : Nat}

/-- The bytes at the front of the stream. -/
theorem read_append (h : ReadsStream read stream closed) (hs : stream s = v ++ rest) (hn : v.length = n) :
    ∃ s', read n s = .ok v s' ∧ stream s' = rest := by
  obtain ⟨s', hread, hrest⟩ := h.full s n (by rw [hs, List.length_append]; omega)
  rw [hs] at hread hrest
  rw [List.take_left' hn] at hread
  rw [List.drop_left' hn] at hrest
  exact ⟨s', hread, hrest⟩

/-- A read that returns took what it returned from the front. -/
theorem stream_of_ok (h : ReadsStream read stream closed) (hread : read n s = .ok v s') :
    v.length = n ∧ stream s = v ++ stream s' := by
  by_cases hn : n ≤ (stream s).length
  · obtain ⟨t, hok, hrest⟩ := h.full s n hn
    rw [hok] at hread
    cases hread
    rw [hrest, List.take_append_drop]
    exact ⟨List.length_take_of_le hn, rfl⟩
  · obtain ⟨t, herr⟩ := h.short s n (Nat.lt_of_not_le hn)
    rw [herr] at hread
    cases hread

end ReadsStream

/-- What `read` delivers for a sequence of lengths, and the exception of the first read that fails. -/
def deliveries (read : ReadExact ε S) : List Nat → S → List Bytes × Option ε
  | [], _ => ([], none)
  | n :: ns, s =>
    match read n s with
    | .ok bs s' => (bs :: (deliveries read ns s').1, (deliveries read ns s').2)
    | .error e _ => ([], some e)

namespace ReadsStream

variable {read : ReadExact ε S} {stream : S → Bytes} {closed : ε}

/-- **A reader delivers what its stream does,** for every sequence of lengths, and fails at the same read. -/
theorem deliveries_eq (h : ReadsStream read stream closed) : ∀ (ns : List Nat) (s : S),
    deliveries read ns s = deliveries (ByteStream.takeBytes closed) ns (stream s)
  | [], _ => rfl
  | n :: ns, s => by
    by_cases hn : n ≤ (stream s).length
    · obtain ⟨s', hread, hrest⟩ := h.full s n hn
      simp only [deliveries, hread, ByteStream.takeBytes_of_le closed hn, deliveries_eq h ns s', hrest]
    · have hlt := Nat.lt_of_not_le hn
      obtain ⟨s', hread⟩ := h.short s n hlt
      simp only [deliveries, hread, ByteStream.takeBytes_of_lt closed hlt]

end ReadsStream

/-- However it is split into reads, a stream is delivered from its first byte. -/
theorem deliveries_takeBytes (closed : ε) : ∀ (ns : List Nat) (b : Bytes), ns.sum ≤ b.length →
    (deliveries (ByteStream.takeBytes closed) ns b).2 = none ∧
      (deliveries (ByteStream.takeBytes closed) ns b).1.map List.length = ns ∧
      (deliveries (ByteStream.takeBytes closed) ns b).1.flatten = b.take ns.sum
  | [], b, _ => by simp [deliveries]
  | n :: ns, b, h => by
    rw [List.sum_cons] at h
    have hn : n ≤ b.length := by omega
    obtain ⟨hnone, hlens, hflat⟩ := deliveries_takeBytes closed ns (b.drop n) (by rw [List.length_drop]; omega)
    simp only [deliveries, ByteStream.takeBytes_of_le closed hn]
    refine ⟨hnone, ?_, ?_⟩
    · rw [List.map_cons, hlens, List.length_take_of_le hn]
    · rw [List.flatten_cons, hflat, List.sum_cons, List.take_add]

/-! ## Reading ahead -/

/-- Bytes that were read ahead, how many of them have been given back, and the state of the reader they
came from. -/
structure Replay (S : Type) where
  bytes : Bytes
  pos : Nat
  source : S

namespace Replay

/-- Gives the bytes back before it reads on. -/
def read (read : ReadExact ε S) : ReadExact ε (Replay S) := fun len r =>
  let fromReplay := min len (r.bytes.length - r.pos)
  let head := (r.bytes.drop r.pos).take fromReplay
  let replayed := { r with pos := r.pos + fromReplay }
  if fromReplay < len then
    match read (len - fromReplay) replayed.source with
    | .ok tail s => .ok (head ++ tail) { replayed with source := s }
    | .error e s => .error e { replayed with source := s }
  else .ok head replayed

def stream (stream : S → Bytes) (r : Replay S) : Bytes := r.bytes.drop r.pos ++ stream r.source

variable {raw : ReadExact ε S} {rawStream : S → Bytes} {closed : ε}

/-- Reading ahead and giving back is not noticed. -/
theorem readsStream (h : ReadsStream raw rawStream closed) :
    ReadsStream (read raw) (stream rawStream) closed where
  full r n hn := by
    have hlen : (r.bytes.drop r.pos).length = r.bytes.length - r.pos := List.length_drop
    by_cases hle : n ≤ r.bytes.length - r.pos
    · -- the bytes read ahead are enough
      have hmin : min n (r.bytes.length - r.pos) = n := Nat.min_eq_left hle
      refine ⟨{ r with pos := r.pos + n }, ?_, ?_⟩
      · simp only [read, hmin, Nat.lt_irrefl, if_false, stream]
        rw [List.take_append_of_le_length (by omega)]
      · simp only [stream]
        rw [List.drop_append_of_le_length (by omega), List.drop_drop]
    · -- the read goes past them
      have hmin : min n (r.bytes.length - r.pos) = r.bytes.length - r.pos := Nat.min_eq_right (by omega)
      simp only [stream, List.length_append] at hn
      obtain ⟨s', hread, hrest⟩ := h.full r.source (n - (r.bytes.length - r.pos)) (by omega)
      refine ⟨{ r with pos := r.pos + (r.bytes.length - r.pos), source := s' }, ?_, ?_⟩
      · simp only [read, hmin, stream]
        rw [if_pos (by omega), hread, List.take_append, List.take_of_length_le (Nat.le_of_eq hlen),
          List.take_of_length_le (by omega : (r.bytes.drop r.pos).length ≤ n), hlen]
      · simp only [stream]
        rw [hrest, List.drop_append, hlen, List.drop_eq_nil_of_le (by omega : r.bytes.length ≤ _),
          List.drop_eq_nil_of_le (by omega : (r.bytes.drop r.pos).length ≤ n)]
  short r n hn := by
    have hlen : (r.bytes.drop r.pos).length = r.bytes.length - r.pos := List.length_drop
    simp only [stream, List.length_append] at hn
    have hmin : min n (r.bytes.length - r.pos) = r.bytes.length - r.pos := Nat.min_eq_right (by omega)
    obtain ⟨s', hread⟩ := h.short r.source (n - (r.bytes.length - r.pos)) (by omega)
    refine ⟨{ r with pos := r.pos + (r.bytes.length - r.pos), source := s' }, ?_⟩
    simp only [read, hmin]
    rw [if_pos (by omega), hread]

end Replay

/-! ## Repeating a read -/

variable {α : Type}

/-- `x`, so many times. -/
def times (x : EStateM ε S α) : Nat → EStateM ε S (List α)
  | 0 => pure []
  | n + 1 => do
    let a ← x
    let as ← times x n
    return a :: as

theorem times_succ_eq_ok {x : EStateM ε S α} {n : Nat} {s s'' : S} {as : List α} :
    times x (n + 1) s = .ok as s'' ↔
      ∃ a s' as', x s = .ok a s' ∧ times x n s' = .ok as' s'' ∧ as = a :: as' := by
  rw [times, Steps.bind_eq_ok]
  constructor
  · rintro ⟨a, s', hx, h⟩
    obtain ⟨as', t, htimes, hpure⟩ := Steps.bind_eq_ok.mp h
    cases hpure
    exact ⟨a, s', as', hx, htimes, rfl⟩
  · rintro ⟨a, s', as', hx, htimes, rfl⟩
    exact ⟨a, s', hx, Steps.bind_eq_ok.mpr ⟨as', s'', htimes, rfl⟩⟩

/-- A read that fails behind reads that return. -/
theorem times_error {x : EStateM ε S α} {e : ε} {s' t : S} (herror : x s' = .error e t) (k : Nat) :
    ∀ (m : Nat) {as : List α} {s : S}, times x m s = .ok as s' → times x (m + 1 + k) s = .error e t
  | 0, _, _, h => by
    cases h
    rw [show 0 + 1 + k = k + 1 from by omega, times, Steps.bind_of_error herror]
  | m + 1, _, _, h => by
    obtain ⟨a, s₁, as', hx, htimes, -⟩ := times_succ_eq_ok.mp h
    rw [show m + 1 + 1 + k = (m + 1 + k) + 1 from by omega, times, Steps.bind_of_ok hx,
      Steps.bind_of_error (times_error herror k m htimes)]

/-- Fewer reads give the first of the values. -/
theorem times_take {x : EStateM ε S α} : ∀ {n m : Nat} {as : List α} {s s' : S}, times x n s = .ok as s' → m ≤ n →
    ∃ t, times x m s = .ok (as.take m) t ∧ (m = n → t = s')
  | n, 0, as, s, s', h, _ => by
    refine ⟨s, rfl, fun hn => ?_⟩
    subst hn
    cases h
    rfl
  | n + 1, m + 1, as, s, s', h, hm => by
    obtain ⟨a, s₁, as', hx, htimes, rfl⟩ := times_succ_eq_ok.mp h
    obtain ⟨t, htake, hsame⟩ := times_take htimes (Nat.le_of_succ_le_succ hm)
    exact ⟨t, times_succ_eq_ok.mpr ⟨a, s₁, as'.take m, hx, htake, rfl⟩, fun hn => hsame (Nat.succ.inj hn)⟩

theorem embeds_times {T : Type} {g : S → T} {x : EStateM ε S α} {y : EStateM ε T α} (h : Steps.Embeds g x y) :
    ∀ n, Steps.Embeds g (times x n) (times y n)
  | 0 => Steps.embeds_pure g []
  | n + 1 => h.bind fun a => (embeds_times h n).bind fun as => Steps.embeds_pure g (a :: as)

/-- What `x` gives, one time after another: behind a time that throws there is no other. -/
def outcomes (x : EStateM ε S α) : Nat → S → List (Except ε α)
  | 0, _ => []
  | n + 1, s =>
    match x s with
    | .ok a s' => .ok a :: outcomes x n s'
    | .error e _ => [.error e]

theorem outcomes_of_times {x : EStateM ε S α} {e : ε} {s' t : S} (herror : x s' = .error e t) :
    ∀ {n m : Nat} {as : List α} {s : S}, times x n s = .ok as s' → n < m → outcomes x m s = as.map .ok ++ [.error e]
  | 0, 0, _, _, _, hm => absurd hm (Nat.lt_irrefl 0)
  | 0, m + 1, _, _, h, _ => by
    cases h
    rw [outcomes, herror, List.map_nil, List.nil_append]
  | n + 1, m, _, _, h, hm => by
    obtain ⟨a, s₁, as', hx, htimes, rfl⟩ := times_succ_eq_ok.mp h
    obtain ⟨k, rfl⟩ := Nat.exists_eq_add_of_lt hm
    rw [show n + 1 + k + 1 = (n + k + 1) + 1 from by omega, outcomes, hx, List.map_cons, List.cons_append]
    exact congrArg _ (outcomes_of_times herror htimes (by omega))

/-- If `x` reads a frame wherever one stands, then it reads as many frames as there are, and leaves what is
behind them. -/
theorem times_frames {β : Type} {x : EStateM ε S β} {stream : S → Bytes} {frame : α → Bytes} {value : α → β}
    {Good : α → Prop}
    (hstep : ∀ a s rest, Good a → stream s = frame a ++ rest → ∃ s', x s = .ok (value a) s' ∧ stream s' = rest) :
    ∀ (as : List α) (s : S) (rest : Bytes), (∀ a ∈ as, Good a) → stream s = as.flatMap frame ++ rest →
      ∃ s', times x as.length s = .ok (as.map value) s' ∧ stream s' = rest
  | [], s, rest, _, hs => ⟨s, rfl, hs⟩
  | a :: as, s, rest, hgood, hs => by
    rw [List.flatMap_cons, List.append_assoc] at hs
    obtain ⟨s', hx, hs'⟩ := hstep a s _ (hgood a List.mem_cons_self) hs
    obtain ⟨s'', htimes, hs''⟩ :=
      times_frames hstep as s' rest (fun b hb => hgood b (List.mem_cons_of_mem a hb)) hs'
    exact ⟨s'', times_succ_eq_ok.mpr ⟨value a, s', as.map value, hx, htimes, rfl⟩, hs''⟩

/-! ## Repeating a write -/

/-- One write after another. -/
def writeAll (write : α → EStateM ε S Unit) : List α → EStateM ε S Unit
  | [] => pure ()
  | a :: as => do
    write a
    writeAll write as

theorem writeAll_cons_eq_ok {write : α → EStateM ε S Unit} {a : α} {as : List α} {s s'' : S} :
    writeAll write (a :: as) s = .ok () s'' ↔ ∃ s', write a s = .ok () s' ∧ writeAll write as s' = .ok () s'' := by
  rw [writeAll, Steps.bind_eq_ok]
  constructor
  · rintro ⟨_, s', hwrite, hall⟩
    exact ⟨s', hwrite, hall⟩
  · rintro ⟨s', hwrite, hall⟩
    exact ⟨(), s', hwrite, hall⟩

theorem writeAll_map {β : Type} (write : β → EStateM ε S Unit) (f : α → β) : ∀ as : List α,
    writeAll (fun a => write (f a)) as = writeAll write (as.map f)
  | [] => rfl
  | a :: as => by rw [writeAll, writeAll_map write f as, List.map_cons, writeAll]

theorem embeds_writeAll {T : Type} {g : S → T} {write : α → EStateM ε S Unit} {write' : α → EStateM ε T Unit}
    (h : ∀ a, Steps.Embeds g (write a) (write' a)) : ∀ as, Steps.Embeds g (writeAll write as) (writeAll write' as)
  | [] => Steps.embeds_pure g ()
  | a :: as => (h a).bind fun _ => embeds_writeAll h as

/-- If a write appends the frame of an accepted value and throws on any other, then writes that all return
were of accepted values, and have appended their frames. -/
theorem sent_of_writeAll {write : α → EStateM ε S Unit} {sent : S → Bytes} {Accepts : α → Prop} {frame : α → Bytes}
    (hok : ∀ a s, Accepts a → ∃ s', write a s = .ok () s' ∧ sent s' = sent s ++ frame a)
    (herror : ∀ a s, ¬ Accepts a → ∃ e s', write a s = .error e s') : ∀ (as : List α) {s s' : S},
    writeAll write as s = .ok () s' → (∀ a ∈ as, Accepts a) ∧ sent s' = sent s ++ as.flatMap frame
  | [], s, s', h => by
    cases h
    exact ⟨fun _ ha => absurd ha List.not_mem_nil, by simp⟩
  | a :: as, s, s'', h => by
    obtain ⟨s', hwrite, hall⟩ := writeAll_cons_eq_ok.mp h
    have ha : Accepts a := by
      by_contra hna
      obtain ⟨e, t, herr⟩ := herror a s hna
      rw [herr] at hwrite
      cases hwrite
    obtain ⟨t, hwrite', ht⟩ := hok a s ha
    rw [hwrite'] at hwrite
    cases hwrite
    obtain ⟨hacc, hsent⟩ := sent_of_writeAll hok herror as hall
    refine ⟨?_, by rw [hsent, ht, List.flatMap_cons, List.append_assoc]⟩
    intro b hb
    rcases List.mem_cons.mp hb with rfl | hb
    · exact ha
    · exact hacc b hb

theorem writeAll_of_accepts {write : α → EStateM ε S Unit} {Accepts : α → Prop}
    (hok : ∀ a s, Accepts a → ∃ s', write a s = .ok () s') : ∀ (as : List α) (s : S), (∀ a ∈ as, Accepts a) →
    ∃ s', writeAll write as s = .ok () s'
  | [], s, _ => ⟨s, rfl⟩
  | a :: as, s, h => by
    obtain ⟨t, hwrite⟩ := hok a s (h a List.mem_cons_self)
    obtain ⟨s', hall⟩ := writeAll_of_accepts hok as t fun b hb => h b (List.mem_cons_of_mem a hb)
    exact ⟨s', writeAll_cons_eq_ok.mpr ⟨t, hwrite, hall⟩⟩

end ShuzaGram.Infra

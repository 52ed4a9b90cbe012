import ShuzaGram.Infra.Bytes

/-!
# UTF-8

The runes of a byte string. A valid sequence is one rune, and so is each byte that belongs to none, which is
how Go's `utf8` package reads a string.

* `sequenceLength` — how far the rune reaches that starts here
* `runeCount` — the number of runes
* `strayContinuations` — the continuation bytes that belong to no valid sequence
* `runeCount_eq` — a rune is a byte that is no continuation byte, or a stray one
-/

namespace ShuzaGram.Infra.Utf8

/-- A byte of the form `10xxxxxx`. -/
def isContinuation (b : UInt8) : Bool := 0x80 ≤ b && b ≤ 0xBF

/-- How many bytes follow a lead byte of several, and the range of the first of them. -/
def followers (b : UInt8) : Option (Nat × UInt8 × UInt8) :=
  if 0xC2 ≤ b ∧ b ≤ 0xDF then some (1, 0x80, 0xBF)
  else if b = 0xE0 then some (2, 0xA0, 0xBF)
  else if b = 0xED then some (2, 0x80, 0x9F)
  else if 0xE1 ≤ b ∧ b ≤ 0xEF then some (2, 0x80, 0xBF)
  else if b = 0xF0 then some (3, 0x90, 0xBF)
  else if 0xF1 ≤ b ∧ b ≤ 0xF3 then some (3, 0x80, 0xBF)
  else if b = 0xF4 then some (3, 0x80, 0x8F)
  else none

/-- The length of the valid sequence that `b` starts; 1 where it starts none of several bytes. -/
def sequenceLength (b : UInt8) (rest : Bytes) : Nat :=
  match followers b with
  | none => 1
  | some (n, lo, hi) =>
    let cs := rest.take n
    if cs.length = n ∧ (cs.take 1).all (fun c => lo ≤ c && c ≤ hi) ∧ cs.all isContinuation then n + 1 else 1

/-- The runes that start behind the next `skip` bytes. -/
def runeCountFrom : Nat → Bytes → Nat
  | _, [] => 0
  | skip + 1, _ :: rest => runeCountFrom skip rest
  | 0, b :: rest => 1 + runeCountFrom (sequenceLength b rest - 1) rest

/-- `utf8.RuneCountInString` of Go. -/
def runeCount (s : Bytes) : Nat := runeCountFrom 0 s

/-- The continuation bytes behind the next `skip` bytes that are runes of their own. -/
def straysFrom : Nat → Bytes → Nat
  | _, [] => 0
  | skip + 1, _ :: rest => straysFrom skip rest
  | 0, b :: rest => (if isContinuation b then 1 else 0) + straysFrom (sequenceLength b rest - 1) rest

def strayContinuations (s : Bytes) : Nat := straysFrom 0 s

/-- Every rune is a valid sequence, from the one behind the next `skip` bytes on. -/
def validFrom : Nat → Bytes → Bool
  | _, [] => true
  | skip + 1, _ :: rest => validFrom skip rest
  | 0, b :: rest => (b < 0x80 || sequenceLength b rest ≠ 1) && validFrom (sequenceLength b rest - 1) rest

/-- The string is UTF-8. -/
def valid (s : Bytes) : Bool := validFrom 0 s

/-! ## Counting -/

/-- A byte starts no sequence of several, or the bytes behind it continue it. -/
theorem sequenceLength_cases (b : UInt8) (rest : Bytes) :
    sequenceLength b rest = 1 ∨
      isContinuation b = false ∧ (rest.take (sequenceLength b rest - 1)).all isContinuation = true := by
  unfold sequenceLength
  cases hb : followers b with
  | none => exact .inl rfl
  | some r =>
    obtain ⟨n, lo, hi⟩ := r
    simp only
    split
    · next h =>
      have hlead : isContinuation b = false := by
        unfold followers at hb
        unfold isContinuation
        grind
      exact .inr ⟨hlead, h.2.2⟩
    · exact .inl rfl

/-- In the middle of a sequence, only continuation bytes are skipped. -/
theorem runeCountFrom_eq : ∀ (s : Bytes) (skip : Nat), (s.take skip).all isContinuation = true →
    runeCountFrom skip s = (s.countP fun b => !isContinuation b) + straysFrom skip s
  | [], _, _ => rfl
  | b :: rest, skip + 1, h => by
    rw [List.take_succ_cons, List.all_cons, Bool.and_eq_true] at h
    rw [runeCountFrom, straysFrom, runeCountFrom_eq rest skip h.2, List.countP_cons, h.1]
    rfl
  | b :: rest, 0, _ => by
    rw [runeCountFrom, straysFrom, List.countP_cons]
    rcases sequenceLength_cases b rest with hone | ⟨hlead, hrest⟩
    · rw [hone, runeCountFrom_eq rest 0 (by simp)]
      cases isContinuation b <;> simp <;> omega
    · rw [runeCountFrom_eq rest _ hrest, hlead]
      simp
      omega

/-- **A rune is a byte that is no continuation byte, or a stray one.** -/
theorem runeCount_eq (s : Bytes) :
    runeCount s = (s.countP fun b => !isContinuation b) + strayContinuations s :=
  runeCountFrom_eq s 0 rfl

/-! ## Valid strings -/

theorem straysFrom_of_valid : ∀ (s : Bytes) (skip : Nat), validFrom skip s = true → straysFrom skip s = 0
  | [], _, _ => rfl
  | _ :: rest, skip + 1, h => straysFrom_of_valid rest skip h
  | b :: rest, 0, h => by
    rw [validFrom, Bool.and_eq_true] at h
    have hlead : isContinuation b = false := by
      rcases sequenceLength_cases b rest with hone | ⟨hlead, -⟩
      · have hascii : b < 0x80 := by simpa [hone] using h.1
        unfold isContinuation
        grind
      · exact hlead
    rw [straysFrom, straysFrom_of_valid rest _ h.2, hlead]
    rfl

theorem strayContinuations_of_valid {s : Bytes} (h : valid s = true) : strayContinuations s = 0 :=
  straysFrom_of_valid s 0 h

theorem sequenceLength_ascii {b : UInt8} (h : b < 0x80) (rest : Bytes) : sequenceLength b rest = 1 := by
  have hnone : followers b = none := by
    unfold followers
    grind
  rw [sequenceLength, hnone]

theorem valid_ascii : ∀ {s : Bytes}, (∀ b ∈ s, b < 0x80) → valid s = true
  | [], _ => rfl
  | b :: rest, h => by
    have hb := h b List.mem_cons_self
    have ih := valid_ascii fun c hc => h c (List.mem_cons_of_mem b hc)
    rw [valid, validFrom, sequenceLength_ascii hb, decide_eq_true hb]
    exact ih

end ShuzaGram.Infra.Utf8

import ShuzaGram.Infra.Bytes

/-!
# Searching and numbering texts

* `find` — the first place of a pattern, as `std::string::find` gives it
* `rfind` — the last place of a letter
* `joinLines` — lines with the end of each; `find_blank_line`, where an empty line ends them; `splitLines_joinLines`,
  they are read back
* `ofDigits` — decimal numbers; `ofDigits_toString`, they are read back
-/

namespace ShuzaGram.Infra.Text

/-! ## Finding a pattern -/

/-- A pattern stands at `j` where the text up to its end ends with it. -/
theorem isPrefix_drop_iff {α : Type} {pat s : List α} {j : Nat} :
    pat <+: s.drop j ∧ j ≤ s.length ↔ pat <:+ s.take (j + pat.length) ∧ j + pat.length ≤ s.length := by
  constructor
  · rintro ⟨⟨t, ht⟩, hj⟩
    have hsplit : s = s.take j ++ (pat ++ t) := by rw [ht, List.take_append_drop]
    have hlen : (s.take j).length = j := List.length_take_of_le hj
    have htake : s.take (j + pat.length) = s.take j ++ pat := by
      conv_lhs => rw [hsplit, ← List.append_assoc]
      rw [List.take_left' (by rw [List.length_append, hlen])]
    refine ⟨htake ▸ List.suffix_append _ _, ?_⟩
    have := congrArg List.length hsplit
    simp only [List.length_append, hlen] at this
    omega
  · rintro ⟨⟨t, ht⟩, hle⟩
    have hlen : t.length = j := by
      have := congrArg List.length ht
      rw [List.length_append, List.length_take_of_le hle] at this
      omega
    refine ⟨⟨s.drop (j + pat.length), ?_⟩, by omega⟩
    conv_rhs => rw [← List.take_append_drop (j + pat.length) s, ← ht, List.append_assoc]
    rw [List.drop_left' hlen]

section Find

variable {α : Type} [DecidableEq α]

/-- The first place at which `pat` stands. -/
def find (pat : List α) : List α → Option Nat
  | [] => if pat = [] then some 0 else none
  | a :: s => if pat <+: a :: s then some 0 else (find pat s).map (· + 1)

variable {pat s line : List α} {c : α} {k : Nat}

theorem find_of_isPrefix (h : pat <+: s) : find pat s = some 0 := by
  cases s with
  | nil => rw [find, if_pos (List.prefix_nil.mp h)]
  | cons a s => rw [find, if_pos h]

theorem find_cons_of_not_isPrefix {a : α} (h : ¬pat <+: a :: s) : find pat (a :: s) = (find pat s).map (· + 1) := by
  rw [find, if_neg h]

/-- A pattern does not begin where its first letter does not stand. -/
theorem find_append_of_not_mem (h : c ∉ line) (s : List α) :
    find (c :: pat) (line ++ s) = (find (c :: pat) s).map (· + line.length) := by
  induction line with
  | nil => simp
  | cons a line ih =>
    rw [List.mem_cons, not_or] at h
    have hhead : ¬c :: pat <+: a :: (line ++ s) := by
      rw [List.cons_prefix_cons]
      exact fun hp => h.1 hp.1
    rw [List.cons_append, find_cons_of_not_isPrefix hhead, ih h.2, Option.map_map]
    congr 1

/-- What `find` gives is a place of the pattern, and there is none before it. -/
theorem find_eq_some_iff : find pat s = some k ↔ k ≤ s.length ∧ pat <+: s.drop k ∧ ∀ j < k, ¬pat <+: s.drop j := by
  induction s generalizing k with
  | nil =>
    rw [find]
    constructor
    · intro h
      split at h
      · next hnil =>
        cases h
        exact ⟨Nat.le_refl 0, hnil ▸ List.nil_prefix, fun j hj => absurd hj (Nat.not_lt_zero j)⟩
      · cases h
    · rintro ⟨hk, hpat, -⟩
      obtain rfl := Nat.le_zero.mp hk
      rw [if_pos (List.prefix_nil.mp hpat)]
  | cons a s ih =>
    by_cases hpat : pat <+: a :: s
    · rw [find_of_isPrefix hpat]
      constructor
      · intro h
        cases h
        exact ⟨Nat.zero_le _, hpat, fun j hj => absurd hj (Nat.not_lt_zero j)⟩
      · rintro ⟨-, -, hfirst⟩
        cases k with
        | zero => rfl
        | succ k => exact absurd hpat (hfirst 0 (Nat.succ_pos k))
    · rw [find_cons_of_not_isPrefix hpat, Option.map_eq_some_iff]
      constructor
      · rintro ⟨k', hk', rfl⟩
        obtain ⟨hle, hat, hfirst⟩ := ih.mp hk'
        refine ⟨Nat.succ_le_succ hle, hat, fun j hj => ?_⟩
        cases j with
        | zero => exact hpat
        | succ j => exact hfirst j (Nat.lt_of_succ_lt_succ hj)
      · rintro ⟨hle, hat, hfirst⟩
        cases k with
        | zero => exact absurd hat hpat
        | succ k =>
          exact ⟨k, ih.mpr ⟨Nat.le_of_succ_le_succ hle, hat, fun j hj => hfirst (j + 1) (Nat.succ_lt_succ hj)⟩, rfl⟩

theorem find_eq_none_iff (hpat : pat ≠ []) : find pat s = none ↔ ∀ j, ¬pat <+: s.drop j := by
  constructor
  · intro h j hj
    induction s generalizing j with
    | nil =>
      rw [List.drop_nil] at hj
      exact hpat (List.prefix_nil.mp hj)
    | cons a s ih =>
      by_cases hhead : pat <+: a :: s
      · rw [find_of_isPrefix hhead] at h
        cases h
      · rw [find_cons_of_not_isPrefix hhead, Option.map_eq_none_iff] at h
        cases j with
        | zero => exact hhead hj
        | succ j => exact ih h j hj
  · intro h
    cases hfind : find pat s with
    | none => rfl
    | some k => exact absurd (find_eq_some_iff.mp hfind).2.1 (h k)

/-- The last place at which `c` stands. -/
def rfind (c : α) (s : List α) : Option Nat := (find [c] s.reverse).map fun i => s.length - 1 - i

theorem find_single_append (h : c ∉ line) (s : List α) : find [c] (line ++ c :: s) = some line.length := by
  rw [find_append_of_not_mem h, find_of_isPrefix (show [c] <+: c :: s from ⟨s, rfl⟩)]
  simp

/-- A letter that is found splits the text before it. -/
theorem find_single_eq_some (h : find [c] s = some k) : ∃ line rest, s = line ++ c :: rest ∧ c ∉ line ∧ line.length = k := by
  obtain ⟨hk, ⟨rest, hrest⟩, hfirst⟩ := find_eq_some_iff.mp h
  refine ⟨s.take k, rest, ?_, fun hmem => ?_, List.length_take_of_le hk⟩
  · conv_lhs => rw [← List.take_append_drop k s, ← hrest]
    rfl
  · obtain ⟨j, hj, heq⟩ := List.getElem_of_mem hmem
    rw [List.length_take] at hj
    refine hfirst j (by omega) ⟨(s.drop (j + 1)), ?_⟩
    rw [List.getElem_take] at heq
    rw [List.drop_eq_getElem_cons (by omega : j < s.length), heq]
    rfl

theorem rfind_append (h : c ∉ line) (s : List α) : rfind c (s ++ c :: line) = some s.length := by
  have hreverse : (s ++ c :: line).reverse = line.reverse ++ c :: s.reverse := by simp
  rw [rfind, hreverse, find_single_append (by simpa using h)]
  simp only [Option.map_some, List.length_append, List.length_cons, List.length_reverse]
  congr 1
  omega

end Find

/-! ## Lines -/

/-- The end of a line. -/
def crlf : Bytes := [13, 10]

/-- Lines with their ends. -/
def joinLines (lines : List Bytes) : Bytes := lines.flatMap (· ++ crlf)

/-- A line is not empty, and holds no end of a line. -/
def IsLine (line : Bytes) : Prop := line ≠ [] ∧ 13 ∉ line

theorem find_crlf {line : Bytes} (h : 13 ∉ line) (rest : Bytes) : find crlf (line ++ crlf ++ rest) = some line.length := by
  rw [List.append_assoc, crlf, find_append_of_not_mem h, find_of_isPrefix (List.prefix_append _ rest)]
  simp

/-- **The empty line behind lines is found,** and nothing before it is taken for it. -/
theorem find_blank_line : ∀ {lines : List Bytes} (_ : lines ≠ []) (_ : ∀ l ∈ lines, IsLine l) (rest : Bytes),
    find (crlf ++ crlf) (joinLines lines ++ crlf ++ rest) = some ((joinLines lines).length - 2)
  | [l], _, h, rest => by
    have hl := (h l List.mem_cons_self).2
    have htext : joinLines [l] ++ crlf ++ rest = l ++ (crlf ++ crlf ++ rest) := by simp [joinLines]
    rw [htext, show crlf ++ crlf = 13 :: [10, 13, 10] from rfl, find_append_of_not_mem hl,
      find_of_isPrefix (List.prefix_append _ rest)]
    simp [joinLines, crlf]
  | l :: l' :: lines, _, h, rest => by
    have hl := (h l List.mem_cons_self).2
    obtain ⟨hne, hl'⟩ := h l' (by simp)
    have ih := find_blank_line (List.cons_ne_nil l' lines) (fun x hx => h x (List.mem_cons_of_mem l hx)) rest
    have htext : joinLines (l :: l' :: lines) ++ crlf ++ rest =
        l ++ (13 :: 10 :: (joinLines (l' :: lines) ++ crlf ++ rest)) := by simp [joinLines, crlf]
    -- behind the end of `l` stands the first byte of `l'`, which is no 13
    obtain ⟨b, l', rfl⟩ := List.exists_cons_of_ne_nil hne
    have hb : 13 ≠ b := fun heq => hl' (heq ▸ List.mem_cons_self)
    have hfirst : ¬crlf ++ crlf <+: 13 :: 10 :: (joinLines ((b :: l') :: lines) ++ crlf ++ rest) := by
      simp [crlf, joinLines, hb]
    have hsecond : ¬crlf ++ crlf <+: 10 :: (joinLines ((b :: l') :: lines) ++ crlf ++ rest) := by simp [crlf]
    rw [htext, show crlf ++ crlf = 13 :: [10, 13, 10] from rfl, find_append_of_not_mem hl]
    rw [show (13 :: [10, 13, 10] : Bytes) = crlf ++ crlf from rfl, find_cons_of_not_isPrefix hfirst,
      find_cons_of_not_isPrefix hsecond, ih]
    simp [joinLines, crlf]
    omega

/-- The lines of a text, each up to its end; `n` of them at most. -/
def splitLines : Nat → Bytes → List Bytes
  | 0, _ => []
  | n + 1, s =>
    match find crlf s with
    | none => []
    | some k => s.take k :: splitLines n (s.drop (k + 2))

/-- **Lines are read back** from their text. -/
theorem splitLines_joinLines : ∀ {lines : List Bytes} (_ : ∀ l ∈ lines, 13 ∉ l) {n : Nat} (_ : lines.length ≤ n),
    splitLines n (joinLines lines) = lines
  | [], _, n, _ => by
    cases n with
    | zero => rfl
    | succ n => simp [splitLines, joinLines, find, crlf]
  | l :: lines, h, n, hn => by
    rw [List.length_cons] at hn
    obtain ⟨n, rfl⟩ := Nat.exists_eq_add_of_le' hn
    have htext : joinLines (l :: lines) = l ++ crlf ++ joinLines lines := by simp [joinLines]
    have hfind := find_crlf (h l List.mem_cons_self) (joinLines lines)
    rw [htext, show n + (lines.length + 1) = (n + lines.length) + 1 from by omega, splitLines, hfind]
    simp only
    rw [List.append_assoc, List.take_left' rfl, ← List.append_assoc, List.drop_left' (by simp [crlf]),
      splitLines_joinLines (fun x hx => h x (List.mem_cons_of_mem l hx)) (by omega)]

theorem length_le_joinLines : ∀ lines : List Bytes, lines.length ≤ (joinLines lines).length
  | [] => Nat.le_refl 0
  | l :: lines => by
    have ih := length_le_joinLines lines
    simp only [joinLines, List.flatMap_cons, List.length_append, List.length_cons, crlf] at *
    omega

/-! ## Decimal numbers -/

/-- The number of a text of digits. -/
def ofDigits (s : Bytes) : Nat := s.foldl (fun n c => 10 * n + (c.toNat - 48)) 0

/-- The text of a number is made of digits. -/
theorem digits_toString (n : Nat) : ∀ b ∈ ascii (toString n), 48 ≤ b ∧ b ≤ 57 := by
  intro b hb
  obtain ⟨c, hc, rfl⟩ := List.mem_map.mp hb
  rw [show (toString n).toList = Nat.toDigits 10 n from Nat.toList_repr] at hc
  have hdigit := Nat.isDigit_of_mem_toDigits (by decide) (by decide) hc
  simp only [Char.isDigit, Bool.and_eq_true, decide_eq_true_eq] at hdigit
  obtain ⟨hlo, hhi⟩ := hdigit
  have hlo' : 48 ≤ c.toNat := hlo
  have hhi' : c.toNat ≤ 57 := hhi
  simp only [UInt8.le_iff_toNat_le, Nat.toUInt8_eq, UInt8.toNat_ofNat']
  constructor <;> simp <;> omega

theorem toString_ne_nil (n : Nat) : ascii (toString n) ≠ [] := by
  rw [ascii, show (toString n).toList = Nat.toDigits 10 n from Nat.toList_repr, ne_eq, List.map_eq_nil_iff]
  exact Nat.toDigits_ne_nil

/-- **A number is read back** from its text. -/
theorem ofDigits_toString (n : Nat) : ofDigits (ascii (toString n)) = n := by
  have hchars : ∀ (l : List Char) (init : Nat), (∀ c ∈ l, c.isDigit = true) →
      (l.map fun c => c.toNat.toUInt8).foldl (fun n c => 10 * n + (c.toNat - 48)) init = Nat.ofDigitChars 10 l init := by
    intro l
    induction l with
    | nil => intro init _; rfl
    | cons c l ih =>
      intro init hl
      have hc := hl c List.mem_cons_self
      simp only [Char.isDigit, Bool.and_eq_true, decide_eq_true_eq] at hc
      have hhi : c.toNat ≤ 57 := hc.2
      have hbyte : (c.toNat.toUInt8).toNat = c.toNat := by
        simp only [Nat.toUInt8_eq, UInt8.toNat_ofNat']
        omega
      rw [List.map_cons, List.foldl_cons, hbyte, ih _ fun x hx => hl x (List.mem_cons_of_mem c hx),
        Nat.ofDigitChars_cons]
      rfl
  rw [ofDigits, ascii, show (toString n).toList = Nat.toDigits 10 n from Nat.toList_repr,
    hchars _ 0 fun c hc => Nat.isDigit_of_mem_toDigits (by decide) (by decide) hc, Nat.ofDigitChars_ten_toDigits]

end ShuzaGram.Infra.Text

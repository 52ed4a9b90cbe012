import ShuzaGram.Net.HttpClient

/-!
# One HTTP exchange

What the client sends, a server reads back; what a server answers, the client reads back, and it takes no byte
more. Whatever a peer does, `HttpPost` reads a bounded head and a bounded body, and throws nothing but
`HttpError`.
-/

namespace ShuzaGram.Net

open Infra Infra.Text Domain OtpDelivery

/-! ## Numbers -/

theorem takeWhile_digits {digits tail : Bytes} (hdigits : ∀ b ∈ digits, 48 ≤ b ∧ b ≤ 57)
    (htail : ∀ b ∈ tail.head?, ¬isDigit b = true) : (digits ++ tail).takeWhile isDigit = digits := by
  have hall : ∀ b ∈ digits, isDigit b = true := by
    intro b hb
    simpa [isDigit] using hdigits b hb
  rw [List.takeWhile_append_of_pos hall]
  cases tail with
  | nil => simp
  | cons b tail => rw [List.takeWhile_cons_of_neg (htail b rfl), List.append_nil]

/-- A number is read up to the first byte that is no digit. -/
theorem strtol_digits {digits tail : Bytes} (hne : digits ≠ []) (hdigits : ∀ b ∈ digits, 48 ≤ b ∧ b ≤ 57)
    (htail : ∀ b ∈ tail.head?, ¬isDigit b = true) : strtol (digits ++ tail) = some (false, ofDigits digits) := by
  have htake := takeWhile_digits hdigits htail
  obtain ⟨b, digits, rfl⟩ := List.exists_cons_of_ne_nil hne
  obtain ⟨hlo, hhi⟩ := hdigits b List.mem_cons_self
  -- the first digit is no blank and no sign
  have hspace : ¬isSpace b = true := by
    unfold isSpace
    grind
  have hminus : b ≠ 45 := by grind
  have hplus : b ≠ 43 := by grind
  rw [strtol, List.cons_append, List.dropWhile_cons_of_neg hspace]
  simp only [List.head?_cons, Option.some.injEq, hminus, hplus, or_self, if_false, decide_false]
  rw [← List.cons_append, htake, if_neg (List.cons_ne_nil b digits)]

theorem strtol_toString (n : Nat) {tail : Bytes} (htail : ∀ b ∈ tail.head?, ¬isDigit b = true) :
    strtol (ascii (toString n) ++ tail) = some (false, n) := by
  rw [strtol_digits (toString_ne_nil n) (digits_toString n) htail, ofDigits_toString]

theorem stoi_toString {n : Nat} (h : n < 2 ^ 31) : stoi (ascii (toString n)) = some (n : Int) := by
  have hnum : strtol (ascii (toString n) ++ []) = some (false, n) := strtol_toString n (by simp)
  rw [List.append_nil] at hnum
  simp only [stoi, hnum, Bool.false_eq_true, if_false]
  rw [if_pos (by omega)]

theorem stoul_toString {n : Nat} (h : n < 2 ^ 64) : stoul (ascii (toString n)) = some n := by
  have hnum : strtol (ascii (toString n) ++ []) = some (false, n) := strtol_toString n (by simp)
  rw [List.append_nil] at hnum
  simp only [stoul, hnum, Bool.false_eq_true, if_false]
  rw [if_pos h]

/-- A byte that is no digit does not stand in a number. -/
theorem not_mem_toString {b : UInt8} (h : isDigit b = false) (n : Nat) : b ∉ ascii (toString n) := by
  intro hmem
  obtain ⟨hlo, hhi⟩ := digits_toString n b hmem
  simp [isDigit, hlo, hhi] at h

theorem length_toString_of_three {n : Nat} (hlo : 100 ≤ n) (hhi : n < 1000) : (ascii (toString n)).length = 3 := by
  have hlen : (ascii (toString n)).length = (Nat.toDigits 10 n).length := by
    rw [ascii, List.length_map, show (toString n).toList = Nat.toDigits 10 n from Nat.toList_repr]
  have hle := (Nat.length_toDigits_le_iff (b := 10) (n := n) (k := 3) (by decide) (by decide)).mpr hhi
  have hgt : ¬(Nat.toDigits 10 n).length ≤ 2 := fun h =>
    absurd ((Nat.length_toDigits_le_iff (b := 10) (by decide) (by decide)).mp h) (by omega)
  omega

/-! ## The head of a response -/

section Head

variable {S : Type} {read : ReadExact Exn S} {stream : S → Bytes} {closed : Exn}

/-- The end of a head. -/
abbrev blankLine : Bytes := crlf ++ crlf

/-- Nothing before the end of `head` ends a head. -/
def Unfinished (head : Bytes) : Prop := ∀ j < head.length, ¬blankLine <:+ head.take j

theorem find_blankLine_of_suffix {head rest : Bytes} (hend : blankLine <:+ head) (hopen : Unfinished head) :
    find blankLine (head ++ rest) = some (head.length - 4) ∧ 4 ≤ head.length := by
  have hlen : 4 ≤ head.length := hend.length_le
  refine ⟨?_, hlen⟩
  have hat : blankLine <+: (head ++ rest).drop (head.length - 4) ∧ head.length - 4 ≤ (head ++ rest).length := by
    rw [isPrefix_drop_iff, show blankLine.length = 4 from rfl, Nat.sub_add_cancel hlen, List.take_left' rfl]
    exact ⟨hend, by rw [List.length_append]; omega⟩
  refine find_eq_some_iff.mpr ⟨hat.2, hat.1, fun j hj hbefore => ?_⟩
  have hj' := (isPrefix_drop_iff.mp ⟨hbefore, by rw [List.length_append]; omega⟩).1
  rw [show blankLine.length = 4 from rfl, List.take_append_of_le_length (by omega)] at hj'
  exact hopen (j + 4) (by omega) hj'

/-- A head that goes on has not ended within what is read. -/
theorem lt_of_find_blankLine {head rest : Bytes} {k : Nat} (hend : ¬blankLine <:+ head) (hopen : Unfinished head)
    (hfind : find blankLine (head ++ rest) = some k) : head.length < k + 4 := by
  obtain ⟨hk, hat, -⟩ := find_eq_some_iff.mp hfind
  have hsuffix := (isPrefix_drop_iff.mp ⟨hat, hk⟩).1
  rw [show blankLine.length = 4 from rfl] at hsuffix
  by_contra hle
  have hle' : k + 4 ≤ head.length := Nat.le_of_not_lt hle
  rw [List.take_append_of_le_length hle'] at hsuffix
  rcases Nat.lt_or_eq_of_le hle' with hlt | heq
  · exact hopen (k + 4) hlt hsuffix
  · rw [heq, List.take_length] at hsuffix
    exact hend hsuffix

theorem Unfinished.snoc {head : Bytes} (hopen : Unfinished head) (hend : ¬blankLine <:+ head) (c : UInt8) :
    Unfinished (head ++ [c]) := by
  intro j hj
  rw [List.length_append, List.length_singleton] at hj
  rcases Nat.lt_or_eq_of_le (Nat.le_of_lt_succ hj) with hlt | heq
  · rw [List.take_append_of_le_length (Nat.le_of_lt hlt)]
    exact hopen j hlt
  · rw [heq, List.take_left' rfl]
    exact hend

/-- What is read of a byte string as a head. -/
def headOf (closed : Exn) (b : Bytes) : Except HttpExn (Bytes × Bytes) :=
  match find blankLine b with
  | some k =>
    if k + 4 ≤ 64 * 1024 then .ok (b.take (k + 4), b.drop (k + 4))
    else .error (.httpError (ascii "response headers too large"))
  | none =>
    if b.length ≤ 64 * 1024 then .error (.other closed) else .error (.httpError (ascii "response headers too large"))

/-- A run ends as a spec on the stream says, which also says what is left. -/
def EndsAs {ε α : Type} (stream : S → Bytes) (r : EStateM.Result ε S α) (spec : Except ε (α × Bytes)) : Prop :=
  match r, spec with
  | .ok a s, .ok (a', rest) => a = a' ∧ stream s = rest
  | .error e _, .error e' => e = e'
  | _, _ => False

/-- The loop reads a head as `headOf` says: by induction on the rounds, with what is already read as an open head. -/
theorem rounds_head (h : ReadsStream read stream closed) : ∀ (fuel : Nat) (head : Bytes) (s : S),
    head.length ≤ 64 * 1024 → 64 * 1024 + 1 < fuel + head.length → Unfinished head →
    EndsAs stream (Steps.rounds (.httpError []) (headRound read) fuel head s) (headOf closed (head ++ stream s))
  | 0, head, _, hlen, hfuel, _ => by omega
  | fuel + 1, head, s, hlen, hfuel, hopen => by
    rw [Steps.rounds]
    by_cases hend : blankLine <:+ head
    · have hround : headRound read head s = .ok (.inr head) s := by
        rw [headRound, if_pos hend]
        rfl
      obtain ⟨hfind, hfour⟩ := @find_blankLine_of_suffix head (stream s) hend hopen
      rw [Steps.bind_of_ok hround, headOf, hfind]
      simp only
      rw [if_pos (by omega), Nat.sub_add_cancel hfour, List.take_left' rfl, List.drop_left' rfl]
      exact ⟨rfl, rfl⟩
    · by_cases hnil : stream s = []
      · -- nothing is left
        obtain ⟨s', hread⟩ := h.short s 1 (by rw [hnil]; exact Nat.one_pos)
        have hround : headRound read head s = .error (.other closed) s' := by
          rw [headRound, if_neg hend]
          exact Steps.bind_of_error (by rw [rethrow, hread])
        have hfind : find blankLine (head ++ stream s) = none := by
          cases hfind : find blankLine (head ++ stream s) with
          | none => rfl
          | some k =>
            have hlt := lt_of_find_blankLine hend hopen hfind
            obtain ⟨hk, hat, -⟩ := find_eq_some_iff.mp hfind
            have hle := (isPrefix_drop_iff.mp ⟨hat, hk⟩).2
            rw [hnil, List.append_nil, show blankLine.length = 4 from rfl] at hle
            omega
        rw [Steps.bind_of_error hround, headOf, hfind]
        simp only
        rw [if_pos (by rw [hnil, List.append_nil]; exact hlen)]
        exact rfl
      · obtain ⟨c, rest, hs⟩ := List.exists_cons_of_ne_nil hnil
        obtain ⟨s', hread, hs'⟩ := h.read_append (show stream s = [c] ++ rest from hs) (show [c].length = 1 from rfl)
        have hlen' : (head ++ [c]).length = head.length + 1 := by simp
        have hstream : head ++ stream s = head ++ [c] ++ stream s' := by rw [hs, hs', List.append_assoc]; rfl
        by_cases hlarge : (head ++ [c]).length > 64 * 1024
        · have hround : headRound read head s = .error (.httpError (ascii "response headers too large")) s' := by
            rw [headRound, if_neg hend, Steps.bind_of_ok (show rethrow HttpExn.other (read 1) s = .ok [c] s' by
              rw [rethrow, hread])]
            simp only
            rw [if_pos hlarge]
            rfl
          rw [Steps.bind_of_error hround, headOf]
          cases hfind : find blankLine (head ++ stream s) with
          | none =>
            simp only
            rw [if_neg (by rw [hs, List.length_append, List.length_cons]; omega)]
            exact rfl
          | some k =>
            have hlt := lt_of_find_blankLine hend hopen hfind
            simp only
            rw [if_neg (by omega)]
            exact rfl
        · have hround : headRound read head s = .ok (.inl (head ++ [c])) s' := by
            rw [headRound, if_neg hend, Steps.bind_of_ok (show rethrow HttpExn.other (read 1) s = .ok [c] s' by
              rw [rethrow, hread])]
            simp only
            rw [if_neg hlarge]
            rfl
          rw [Steps.bind_of_ok hround, hstream]
          exact rounds_head h fuel (head ++ [c]) s' (by omega) (by omega) (hopen.snoc hend c)

/-- **The head of a response** is the stream up to the first empty line. -/
theorem readHead_endsAs (h : ReadsStream read stream closed) (s : S) :
    EndsAs stream (readHead read s) (headOf closed (stream s)) := by
  have hstart : Unfinished [] := fun j hj => absurd hj (Nat.not_lt_zero j)
  exact rounds_head h (64 * 1024 + 2) [] s (Nat.zero_le _) (by decide) hstart

end Head

/-! ## The lines of a head -/

/-- The line says how long the body is, or tries to. -/
def NamesLength (line : Bytes) : Prop :=
  ∃ colon, find [58] line = some colon ∧ toLowerAscii (line.take colon) = ascii "content-length"

theorem contentLengthLine_of_not {line : Bytes} (h : ¬NamesLength line) (known : Option Nat) :
    contentLengthLine line known = known := by
  unfold contentLengthLine
  split
  · rfl
  · next colon hcolon => rw [if_neg fun hname => h ⟨colon, hcolon, hname⟩]

/-- A header line with a length, behind any number of blanks. -/
theorem contentLengthLine_of_number {name : Bytes} (hcolon : 58 ∉ name)
    (hname : toLowerAscii name = ascii "content-length") (blanks : Nat) {n : Nat} (hn : n < 2 ^ 64) (known : Option Nat) :
    contentLengthLine (name ++ 58 :: (List.replicate blanks 32 ++ ascii (toString n))) known = some n := by
  have hvalue : (List.replicate blanks 32 ++ ascii (toString n)).dropWhile (· = (32 : UInt8)) = ascii (toString n) := by
    rw [List.dropWhile_append_of_pos fun b hb => by simp [List.eq_of_mem_replicate hb]]
    obtain ⟨b, digits, hdigits⟩ := List.exists_cons_of_ne_nil (toString_ne_nil n)
    have hb : b ≠ 32 := by
      have := digits_toString n b (by rw [hdigits]; exact List.mem_cons_self)
      grind
    rw [hdigits, List.dropWhile_cons_of_neg (by simpa using hb)]
  have hdrop : (name ++ 58 :: (List.replicate blanks 32 ++ ascii (toString n))).drop (name.length + 1) =
      List.replicate blanks 32 ++ ascii (toString n) := by
    rw [← List.drop_drop, List.drop_left' rfl]
    rfl
  unfold contentLengthLine
  rw [find_single_append hcolon]
  simp only
  rw [List.take_left' rfl, if_pos hname, hdrop, hvalue]
  obtain ⟨b, digits, hdigits⟩ := List.exists_cons_of_ne_nil (toString_ne_nil n)
  have hstoul := stoul_toString hn
  rw [hdigits] at hstoul ⊢
  simp only [hstoul, Option.elim]

/-- The loop over the header lines takes them one by one. -/
theorem contentLengthFrom_joinLines : ∀ {lines : List Bytes} (_ : ∀ l ∈ lines, IsLine l) {fuel : Nat}
    (_ : lines.length ≤ fuel) (known : Option Nat),
    contentLengthFrom fuel (joinLines lines ++ crlf) known = lines.foldl (fun known l => contentLengthLine l known) known
  | [], _, fuel, _, known => by
    cases fuel with
    | zero => rfl
    | succ fuel => simp [contentLengthFrom, joinLines, crlf, find]
  | l :: lines, h, fuel, hfuel, known => by
    obtain ⟨hne, hcr⟩ := h l List.mem_cons_self
    rw [List.length_cons] at hfuel
    obtain ⟨fuel, rfl⟩ := Nat.exists_eq_add_of_le' hfuel
    have htext : joinLines (l :: lines) ++ crlf = l ++ crlf ++ (joinLines lines ++ crlf) := by simp [joinLines]
    have hfind := find_crlf hcr (joinLines lines ++ crlf)
    obtain ⟨n, hn⟩ := Nat.exists_eq_succ_of_ne_zero (Nat.ne_of_gt (List.length_pos_of_ne_nil hne))
    rw [htext, show fuel + (lines.length + 1) = (fuel + lines.length) + 1 from by omega, contentLengthFrom, hfind, hn]
    simp only
    rw [← hn, List.append_assoc, List.take_left' rfl, ← List.append_assoc, List.drop_left' (by simp [crlf]),
      contentLengthFrom_joinLines (fun x hx => h x (List.mem_cons_of_mem l hx)) (by omega)]
    rfl

/-- The lengths that header lines name, the last one counting. -/
theorem foldl_contentLengthLine {before after : List Bytes} {line : Bytes} {n : Nat}
    (hline : ∀ known, contentLengthLine line known = some n) (hafter : ∀ l ∈ after, ¬NamesLength l) (known : Option Nat) :
    (before ++ line :: after).foldl (fun known l => contentLengthLine l known) known = some n := by
  rw [List.foldl_append, List.foldl_cons, hline]
  clear hline
  induction after with
  | nil => rfl
  | cons l after ih =>
    rw [List.foldl_cons, contentLengthLine_of_not (hafter l List.mem_cons_self)]
    exact ih fun x hx => hafter x (List.mem_cons_of_mem l hx)

/-- A status line. -/
theorem readStatus_line {version : Bytes} (hblank : 32 ∉ version) {code : Nat} (hlo : 100 ≤ code) (hhi : code < 1000)
    (reason : Bytes) : readStatus (version ++ 32 :: (ascii (toString code) ++ reason)) = .ok (code : Int) := by
  have hdrop : (version ++ 32 :: (ascii (toString code) ++ reason)).drop (version.length + 1) =
      ascii (toString code) ++ reason := by
    rw [← List.drop_drop, List.drop_left' rfl]
    rfl
  unfold readStatus
  rw [find_single_append hblank]
  simp only
  rw [hdrop, List.take_left' (length_toString_of_three hlo hhi), stoi_toString (by omega)]
  rfl

/-- A head that is made of lines. -/
theorem parseHead_lines {statusLine : Bytes} {fields : List Bytes} {status : Int} (hstatusLine : IsLine statusLine)
    (hfields : ∀ l ∈ fields, IsLine l) (hstatus : readStatus statusLine = .ok status) :
    parseHead (joinLines (statusLine :: fields) ++ crlf) =
      .ok (status, fields.foldl (fun known l => contentLengthLine l known) none) := by
  have htext : joinLines (statusLine :: fields) ++ crlf = statusLine ++ crlf ++ (joinLines fields ++ crlf) := by
    simp [joinLines]
  have hfuel : fields.length ≤ (statusLine ++ crlf ++ (joinLines fields ++ crlf)).length := by
    have := length_le_joinLines fields
    simp only [List.length_append]
    omega
  unfold parseHead
  rw [htext, find_crlf hstatusLine.2]
  simp only
  rw [List.drop_left' (by simp [crlf]), contentLengthFrom_joinLines hfields hfuel, List.append_assoc,
    List.take_left' rfl, hstatus]
  rfl

/-! ## The response -/

section Response

variable {S : Type} {read : ReadExact Exn S} {stream : S → Bytes} {closed : Exn} {s : S}

/-- A response whose head ends, and has been understood. -/
theorem readHttpResponse_of_head (h : ReadsStream read stream closed) {head body rest : Bytes} {status : Int}
    {contentLength : Option Nat} (hstream : stream s = head ++ body ++ rest)
    (hend : find blankLine (stream s) = some (head.length - 4)) (hfour : 4 ≤ head.length)
    (hhead : head.length ≤ 64 * 1024) (hparse : parseHead head = .ok (status, contentLength))
    (hlength : contentLength.getD 0 = body.length) (hbody : body.length ≤ 1024 * 1024) :
    ∃ s', readHttpResponse read s = .ok { status, body } s' ∧ stream s' = rest := by
  have hof : headOf closed (stream s) = .ok (head, body ++ rest) := by
    rw [headOf, hend]
    simp only
    rw [if_pos (by omega), Nat.sub_add_cancel hfour, hstream, List.append_assoc, List.take_left' rfl,
      List.drop_left' rfl]
  have hread := readHead_endsAs h s
  rw [hof] at hread
  cases hrun : readHead read s with
  | error e t =>
    rw [hrun] at hread
    exact absurd hread id
  | ok got t =>
    rw [hrun] at hread
    obtain ⟨rfl, ht⟩ := hread
    have hrethrow : rethrow headFailed (readHead read) s = .ok got t := by rw [rethrow, hrun]
    have hlift : (liftExcept (parseHead got) : EStateM HttpExn S _) t = .ok (status, contentLength) t := by
      rw [hparse]
      rfl
    rw [readHttpResponse, Steps.bind_of_ok hrethrow, Steps.bind_of_ok hlift]
    simp only
    -- without a length, or with length 0, nothing is read
    have hempty : contentLength.getD 0 = 0 → body = [] := fun hzero => by
      rw [hlength] at hzero
      exact List.eq_nil_of_length_eq_zero hzero
    cases contentLength with
    | none =>
      obtain rfl := hempty rfl
      exact ⟨t, rfl, ht⟩
    | some n =>
      simp only [Option.getD_some] at hlength hempty
      subst hlength
      cases hn : body.length with
      | zero =>
        obtain rfl := List.eq_nil_of_length_eq_zero hn
        exact ⟨t, rfl, ht⟩
      | succ n =>
        obtain ⟨s', hok, hs'⟩ := h.read_append ht hn
        refine ⟨s', ?_, hs'⟩
        have hbodyRead : readBody read (some (n + 1)) t = .ok body s' := by
          unfold readBody
          simp only
          rw [if_neg (by omega), rethrow, hok]
        rw [Steps.bind_of_ok hbodyRead]
        rfl

/-- A response as servers write it: the status line, and header lines of which one names the length. -/
structure ResponseText where
  version : Bytes
  code : Nat
  reason : Bytes
  before : List Bytes
  lengthName : Bytes
  blanks : Nat
  after : List Bytes
  body : Bytes

namespace ResponseText

variable (r : ResponseText)

def statusLine : Bytes := r.version ++ 32 :: (ascii (toString r.code) ++ r.reason)

def lengthLine : Bytes := r.lengthName ++ 58 :: (List.replicate r.blanks 32 ++ ascii (toString r.body.length))

def head : Bytes := joinLines (r.statusLine :: (r.before ++ r.lengthLine :: r.after)) ++ crlf

/-- What HTTP asks of a response, and the limits of this client. -/
structure WellFormed : Prop where
  version : 32 ∉ r.version ∧ 13 ∉ r.version
  code : 100 ≤ r.code ∧ r.code < 1000
  reason : 13 ∉ r.reason
  before : ∀ l ∈ r.before, IsLine l
  lengthName : toLowerAscii r.lengthName = ascii "content-length"
  after : ∀ l ∈ r.after, IsLine l ∧ ¬NamesLength l
  head : r.head.length ≤ 64 * 1024
  body : r.body.length ≤ 1024 * 1024

variable {r}

theorem not_mem_of_toLowerAscii {name text : Bytes} (h : toLowerAscii name = text) {c : UInt8}
    (hc : ¬(65 ≤ c ∧ c ≤ 90)) (hnot : c ∉ text) : c ∉ name := by
  intro hmem
  refine hnot (h ▸ List.mem_map.mpr ⟨c, hmem, ?_⟩)
  rw [if_neg (by simpa using hc)]

theorem WellFormed.isLine_statusLine (h : r.WellFormed) : IsLine r.statusLine := by
  refine ⟨by simp [statusLine], ?_⟩
  have hcode := not_mem_toString (b := 13) (by decide) r.code
  simp only [statusLine, List.mem_append, List.mem_cons, not_or]
  exact ⟨h.version.2, by decide, hcode, h.reason⟩

theorem WellFormed.isLine_lengthLine (h : r.WellFormed) : IsLine r.lengthLine := by
  refine ⟨by simp [lengthLine], ?_⟩
  have hname : 13 ∉ r.lengthName := not_mem_of_toLowerAscii h.lengthName (by decide) (by decide)
  have hnumber := not_mem_toString (b := 13) (by decide) r.body.length
  have hblanks : (13 : UInt8) ∉ List.replicate r.blanks 32 := fun hmem => by
    have := List.eq_of_mem_replicate hmem
    contradiction
  simp only [lengthLine, List.mem_append, List.mem_cons, not_or]
  exact ⟨hname, by decide, hblanks, hnumber⟩

theorem WellFormed.isLine_fields (h : r.WellFormed) : ∀ l ∈ r.before ++ r.lengthLine :: r.after, IsLine l := by
  intro l hl
  rcases List.mem_append.mp hl with hl | hl
  · exact h.before l hl
  · rcases List.mem_cons.mp hl with rfl | hl
    · exact h.isLine_lengthLine
    · exact (h.after l hl).1

end ResponseText

/-- **A response is read back.** Whatever else its head holds, and however its length is written, the client returns
the status and the body, and leaves what is behind it. -/
theorem response_read_back (h : ReadsStream read stream closed) {r : ResponseText} (hr : r.WellFormed) {rest : Bytes}
    (hstream : stream s = r.head ++ r.body ++ rest) :
    ∃ s', readHttpResponse read s = .ok { status := r.code, body := r.body } s' ∧ stream s' = rest := by
  have hlines : ∀ l ∈ r.statusLine :: (r.before ++ r.lengthLine :: r.after), IsLine l :=
    List.forall_mem_cons.mpr ⟨hr.isLine_statusLine, hr.isLine_fields⟩
  have hfind := find_blank_line (List.cons_ne_nil r.statusLine _) hlines (r.body ++ rest)
  have hlong : 4 ≤ r.head.length := by
    have := List.length_pos_of_ne_nil hr.isLine_statusLine.1
    simp only [ResponseText.head, joinLines, List.flatMap_cons, List.length_append, crlf, List.length_cons,
      List.length_nil]
    omega
  have hparse := parseHead_lines hr.isLine_statusLine hr.isLine_fields
    (readStatus_line hr.version.1 hr.code.1 hr.code.2 r.reason)
  have hcolon : 58 ∉ r.lengthName := ResponseText.not_mem_of_toLowerAscii hr.lengthName (by decide) (by decide)
  have hbody := hr.body
  have hline : ∀ known, contentLengthLine r.lengthLine known = some r.body.length :=
    contentLengthLine_of_number hcolon hr.lengthName r.blanks (by omega)
  rw [foldl_contentLengthLine hline fun l hl => (hr.after l hl).2] at hparse
  refine readHttpResponse_of_head h hstream ?_ hlong hr.head hparse rfl hr.body
  rw [hstream, List.append_assoc]
  rw [ResponseText.head, hfind, List.length_append]
  rfl

end Response

/-- An answer of two bytes, with its length between other lines. -/
def sampleResponse : ResponseText where
  version := ascii "HTTP/1.1"
  code := 200
  reason := ascii " OK"
  before := [ascii "Server: x"]
  lengthName := ascii "CONTENT-length"
  blanks := 2
  after := [ascii "Connection: close"]
  body := ascii "{}"

theorem sampleResponse_wellFormed : sampleResponse.WellFormed := by
  have hafter : ∀ l : Bytes, l ∈ [ascii "Connection: close"] → IsLine l ∧ ¬NamesLength l := by
    intro l hl
    rcases List.mem_singleton.mp hl with rfl
    refine ⟨⟨by decide, by decide⟩, ?_⟩
    rintro ⟨colon, hcolon, hname⟩
    rw [show find [58] (ascii "Connection: close") = some 10 by decide] at hcolon
    cases hcolon
    revert hname
    decide
  have hbefore : ∀ l : Bytes, l ∈ [ascii "Server: x"] → IsLine l := by
    intro l hl
    rcases List.mem_singleton.mp hl with rfl
    exact ⟨by decide, by decide⟩
  exact ⟨by decide, by decide, by decide, hbefore, by decide, hafter, by decide, by decide⟩

/-! ## Any peer -/

section AnyPeer

variable {S : Type} {read : ReadExact Exn S} {stream : S → Bytes} {closed : Exn}

/-- What is thrown is an `HttpError`. -/
def OnlyHttpErrors {α : Type} (x : EStateM HttpExn S α) : Prop :=
  ∀ ⦃s e s'⦄, x s = .error e s' → ∃ what, e = .httpError what

theorem OnlyHttpErrors.bind {α β : Type} {x : EStateM HttpExn S α} {f : α → EStateM HttpExn S β}
    (hx : OnlyHttpErrors x) (hf : ∀ a, OnlyHttpErrors (f a)) : OnlyHttpErrors (x >>= f) := by
  intro s e s' h
  rw [Steps.bind_apply] at h
  split at h
  · next a t _ => exact hf a h
  · next e' t hxe =>
    cases h
    exact hx hxe

theorem onlyHttpErrors_rethrow {ε α : Type} {f : ε → HttpExn} (hf : ∀ e, ∃ what, f e = .httpError what)
    (x : EStateM ε S α) : OnlyHttpErrors (rethrow f x) := by
  intro s e s' h
  unfold rethrow at h
  split at h
  · cases h
  · cases h
    exact hf _

theorem onlyHttpErrors_liftExcept {α : Type} {x : Except HttpExn α} (hx : ∀ e, x = .error e → ∃ what, e = .httpError what) :
    OnlyHttpErrors (liftExcept x : EStateM HttpExn S α) := by
  intro s e s' h
  unfold liftExcept at h
  split at h
  · cases h
  · next he =>
    cases h
    exact hx _ rfl

theorem headFailed_eq (e : HttpExn) : ∃ what, headFailed e = .httpError what := by
  unfold headFailed
  split <;> exact ⟨_, rfl⟩

theorem parseHead_throws {head : Bytes} {e : HttpExn} (h : parseHead head = .error e) : ∃ what, e = .httpError what := by
  unfold parseHead at h
  split at h
  · cases h
    exact ⟨_, rfl⟩
  · next firstLineEnd _ =>
    unfold readStatus at h
    split at h
    · cases h
      exact ⟨_, rfl⟩
    · split at h
      · cases h
        exact ⟨_, rfl⟩
      · cases h

theorem onlyHttpErrors_readBody (read : ReadExact Exn S) (contentLength : Option Nat) :
    OnlyHttpErrors (readBody read contentLength) := by
  unfold readBody
  split
  · intro s e s' h
    cases h
  · intro s e s' h
    cases h
  · split
    · intro s e s' h
      cases h
      exact ⟨_, rfl⟩
    · exact onlyHttpErrors_rethrow (fun e => ⟨_, rfl⟩) _

theorem onlyHttpErrors_exchange (read : ReadExact Exn S) (write : WriteBytes Exn S) (request : Bytes) :
    OnlyHttpErrors (exchange read write request) := by
  refine (onlyHttpErrors_rethrow (fun e => ⟨_, rfl⟩) _).bind fun _ => ?_
  refine (onlyHttpErrors_rethrow headFailed_eq _).bind fun head => ?_
  refine (onlyHttpErrors_liftExcept fun e => parseHead_throws).bind fun parsed => ?_
  refine (onlyHttpErrors_readBody read parsed.2).bind fun body => ?_
  intro s e s' h
  cases h

theorem parseHttpUrl_throws {url : Bytes} {e : HttpExn} (h : parseHttpUrl url = .error e) :
    ∃ what, e = .httpError what := by
  have hport : ∀ {digits : Bytes} {e : HttpExn}, parsePort url digits = .error e → ∃ what, e = .httpError what := by
    intro digits e h
    unfold parsePort at h
    split at h
    · cases h
      exact ⟨_, rfl⟩
    · split at h
      · cases h
        exact ⟨_, rfl⟩
      · cases h
  unfold parseHttpUrl at h
  split at h
  · cases h
    exact ⟨_, rfl⟩
  · simp only at h
    split at h
    · cases h
      exact ⟨_, rfl⟩
    · split at h
      · cases h
      · next colon _ =>
        generalize hp : parsePort url _ = p at h
        cases p with
        | ok port => cases h
        | error e' =>
          cases h
          exact hport hp

/-- A response that is returned stood in the stream: a head that ends with its first empty line, then the body. -/
theorem readHttpResponse_sound (h : ReadsStream read stream closed) {s s' : S} {r : HttpResponse}
    (hrun : readHttpResponse read s = .ok r s') :
    ∃ head lineEnd, stream s = head ++ r.body ++ stream s' ∧ find blankLine (stream s) = some lineEnd ∧
      head.length = lineEnd + 4 ∧ head.length ≤ 64 * 1024 ∧ r.body.length ≤ 1024 * 1024 := by
  obtain ⟨head, t, hhead, hrun⟩ := Steps.bind_eq_ok.mp hrun
  obtain ⟨⟨status, contentLength⟩, t', hparse, hrun⟩ := Steps.bind_eq_ok.mp hrun
  obtain ⟨body, t'', hbody, hrun⟩ := Steps.bind_eq_ok.mp hrun
  cases hrun
  -- the head
  have hread := readHead_endsAs h s
  unfold rethrow at hhead
  split at hhead
  · next got u hok =>
    cases hhead
    rw [hok] at hread
    unfold headOf at hread
    split at hread
    · next k hk =>
      obtain ⟨hle, hat, -⟩ := find_eq_some_iff.mp hk
      have hfits : k + 4 ≤ (stream s).length := (isPrefix_drop_iff.mp ⟨hat, hle⟩).2
      split at hread
      · next hlimit =>
        obtain ⟨rfl, ht⟩ := hread
        have hlen : ((stream s).take (k + 4)).length = k + 4 := List.length_take_of_le hfits
        -- parsing leaves the state alone
        have htt : t' = t := by
          unfold liftExcept at hparse
          split at hparse
          · cases hparse
            rfl
          · cases hparse
        subst htt
        refine ⟨(stream s).take (k + 4), k, ?_, hk, hlen, by rw [hlen]; exact hlimit, ?_⟩
        all_goals
          unfold readBody at hbody
          split at hbody
        · cases hbody
          rw [List.append_nil, ht, List.take_append_drop]
        · cases hbody
          rw [List.append_nil, ht, List.take_append_drop]
        · split at hbody
          · cases hbody
          · unfold rethrow at hbody
            split at hbody
            · next got' u' hok' =>
              cases hbody
              rw [List.append_assoc, ← (h.stream_of_ok hok').2, ht, List.take_append_drop]
            · cases hbody
        · cases hbody
          exact Nat.zero_le _
        · cases hbody
          exact Nat.zero_le _
        · split at hbody
          · cases hbody
          · next hsmall =>
            unfold rethrow at hbody
            split at hbody
            · next got' u' hok' =>
              cases hbody
              rw [(h.stream_of_ok hok').1]
              exact Nat.le_of_not_lt hsmall
            · cases hbody
      · exact absurd hread id
    · split at hread <;> exact absurd hread id
  · cases hhead

/-- **Whatever the peer does, `HttpPost` returns a response that it has read, or throws `HttpError`.** Of what arrives
once the request is written, it reads a head of 64 KiB at most, up to the first empty line, and a body of 1 MiB at most,
right behind it. -/
theorem httpPost_bounded (connect : Bytes → UInt16 → Except Bytes S) (h : ReadsStream read stream closed)
    (write : WriteBytes Exn S) (url : Bytes) (headers : List (Bytes × Bytes)) (body : Bytes) :
    (∃ what left, httpPost connect read write url headers body = (.error (.httpError what), left)) ∨
      ∃ parsed s t r s' head lineEnd, parseHttpUrl url = .ok parsed ∧ connect parsed.host parsed.port = .ok s ∧
        write (requestText parsed headers body) s = .ok () t ∧
        httpPost connect read write url headers body = (.ok r, some s') ∧
        stream t = head ++ r.body ++ stream s' ∧ find blankLine (stream t) = some lineEnd ∧
        head.length = lineEnd + 4 ∧ head.length ≤ 64 * 1024 ∧ r.body.length ≤ 1024 * 1024 := by
  unfold httpPost
  cases hurl : parseHttpUrl url with
  | error e =>
    obtain ⟨what, rfl⟩ := parseHttpUrl_throws hurl
    exact .inl ⟨what, none, rfl⟩
  | ok parsed =>
    simp only
    cases hconnect : connect parsed.host parsed.port with
    | error what => exact .inl ⟨_, none, rfl⟩
    | ok s =>
      simp only
      cases hrun : exchange read write (requestText parsed headers body) s with
      | error e s' =>
        obtain ⟨what, rfl⟩ := onlyHttpErrors_exchange read write _ hrun
        exact .inl ⟨what, some s', rfl⟩
      | ok r s' =>
        obtain ⟨_, t, hsend, hread⟩ := Steps.bind_eq_ok.mp hrun
        have hwrite : write (requestText parsed headers body) s = .ok () t := by
          unfold rethrow at hsend
          split at hsend
          · next hok =>
            cases hsend
            exact hok
          · cases hsend
        obtain ⟨head, lineEnd, hstream, hend, hlen, hhead, hbody⟩ := readHttpResponse_sound h hread
        exact .inr ⟨parsed, s, t, r, s', head, lineEnd, rfl, hconnect, hwrite, rfl, hstream, hend, hlen, hhead, hbody⟩

end AnyPeer

/-- A peer that answers without a length. -/
def sampleAnswer : Bytes := ascii "HTTP/1.1 500 X\r\n\r\nmore"

def sampleConnect : Bytes → UInt16 → Except Bytes Bytes := fun _ _ => .ok sampleAnswer

def sampleWrite : WriteBytes Exn Bytes := fun _ s => .ok () s

theorem sampleAnswer_bounded :
    (∃ what left, httpPost sampleConnect (ByteStream.takeBytes .connectionClosed) sampleWrite (ascii "http://h/") [] [] =
        (.error (.httpError what), left)) ∨
      ∃ r s' head lineEnd,
        httpPost sampleConnect (ByteStream.takeBytes .connectionClosed) sampleWrite (ascii "http://h/") [] [] =
          (.ok r, some s') ∧
        sampleAnswer = head ++ r.body ++ s' ∧ find blankLine sampleAnswer = some lineEnd ∧
        head.length = lineEnd + 4 ∧ head.length ≤ 64 * 1024 ∧ r.body.length ≤ 1024 * 1024 := by
  have hbounded := httpPost_bounded sampleConnect (ByteStream.readsStream_takeBytes Exn.connectionClosed) sampleWrite
    (ascii "http://h/") [] []
  refine hbounded.imp id ?_
  rintro ⟨parsed, s, t, r, s', head, lineEnd, -, hconnect, hwrite, hrun, hread⟩
  cases hconnect
  cases hwrite
  exact ⟨r, s', head, lineEnd, hrun, hread⟩

end ShuzaGram.Net

import ShuzaGram.Auth.CheckPassword

/-!
# The challenge of an account with a password

What `GetPassword` makes of the row of an account that has a password, and what `CheckPassword` says to
the proof that a client with the right password makes of what it got.

* `ProtectedBy` — the password of the row
* `Challenged` — the row holds a challenge, under an id
* `getPassword_exec` — `GetPassword` stores a challenge and returns it
* `checkSrp_srpClientProof` — the proof of the right password for the stored challenge passes
-/

namespace ShuzaGram.Auth

open Infra Domain Store Mtproto.Crypto
open StoreProg

/-- The algorithm of the passwords of this server. -/
def passwordAlgo (salt1 : Bytes) : PasswordAlgo :=
  { salt1, salt2 := srpBaseSalt2, g := srpBaseG, p := srpBaseP }

/-- The row is that of an account whose password is `password`. -/
structure ProtectedBy (P : Primitives) (pbkdf2HmacSha512 : Pbkdf2) (password salt1 : Bytes) (row : PasswordRow) :
    Prop where
  hasPassword : row.hasPassword = true
  algo : row.algo = passwordAlgo salt1
  verifier : srpComputeVerifier P pbkdf2HmacSha512 password salt1 srpBaseSalt2 = .ok row.srpVerifier

/-- The row holds a challenge for its verifier, under an id. -/
structure Challenged (P : Primitives) (row : PasswordRow) : Prop where
  srpId : row.srpId ≠ 0
  made : ∃ rand, srpMakeChallenge P row.srpVerifier rand = .ok { bSecret := row.srpBSecret, b := row.srpB }

/-- The check that a client sends. -/
def provenCheck (srpId : Int64) (answer : SrpClientAnswer) : PasswordCheck :=
  { srpId, a := answer.a, m1 := answer.m1 }

/-! ## Reading the row -/

/-- A row with an algorithm is read as it is, but for the random bytes of an account without any. -/
theorem normalized_toSettings {row : PasswordRow} (hp : row.algo.p ≠ []) :
    normalized (some row.toSettings) =
      { row.toSettings with
        secureRandom := if row.secureRandom = [] then defaultSecureRandom else row.secureRandom
        currentAlgo := some row.algo } := by
  unfold normalized normalizePasswordSettings
  rw [Option.getD_some]
  by_cases hrandom : row.secureRandom = []
  · simp [hrandom, PasswordRow.toSettings, hp]
  · simp [hrandom, PasswordRow.toSettings, hp]

section Protected

variable {P : Primitives} {pbkdf2HmacSha512 : Pbkdf2} {password salt1 : Bytes} {row : PasswordRow}

theorem ProtectedBy.p_ne_nil (h : ProtectedBy P pbkdf2HmacSha512 password salt1 row) : row.algo.p ≠ [] := by
  have hlength : srpBaseP.length = 256 := by rw [srpBaseP, Mtproto.fixedDhPrime, length_toBE]
  intro hempty
  simp only [h.algo, passwordAlgo] at hempty
  rw [hempty] at hlength
  cases hlength

theorem ProtectedBy.isGoodLarge (h : ProtectedBy P pbkdf2HmacSha512 password salt1 row) :
    isGoodLarge row.srpVerifier srpBaseP = true := by
  have hverifier := h.verifier
  rw [srpComputeVerifier_eq, Except.ok.injEq] at hverifier
  rw [← hverifier]
  exact isGoodLarge_srpResidue_pow _

theorem ProtectedBy.srpVerifier_ne_nil (h : ProtectedBy P pbkdf2HmacSha512 password salt1 row) :
    row.srpVerifier ≠ [] := by
  have hpos := ((isGoodLarge_srpBaseP row.srpVerifier).mp h.isGoodLarge).1
  intro hempty
  rw [hempty] at hpos
  exact absurd hpos (by decide)

/-! ## A new challenge -/

theorem assignedId_ne_zero (current drawn : Int64) :
    (if current = 0 then (if drawn ≠ 0 then drawn else 1) else current) ≠ 0 := by
  by_cases hcurrent : current = 0
  · by_cases hdrawn : drawn = 0
    · simp [hcurrent, hdrawn]
    · simp [hcurrent, hdrawn]
  · simp [hcurrent]

/-- The row with a new challenge. -/
theorem ProtectedBy.withChallenge (h : ProtectedBy P pbkdf2HmacSha512 password salt1 row) (draw : ChallengeDraw) :
    ∃ settings, withChallenge P (normalized (some row.toSettings)) draw = .ok settings ∧
      settings.currentAlgo = some (passwordAlgo salt1) ∧
      ProtectedBy P pbkdf2HmacSha512 password salt1 (.ofSettings settings) ∧
      Challenged P (.ofSettings settings) ∧ (row.srpId ≠ 0 → settings.srpId = row.srpId) := by
  have hmade := srpMakeChallenge_eq P draw.secret h.isGoodLarge
  rw [normalized_toSettings h.p_ne_nil, Auth.withChallenge]
  simp only [PasswordRow.toSettings, hmade, bind, Except.bind, pure, Except.pure]
  refine ⟨_, rfl, congrArg some h.algo, ⟨h.hasPassword, h.algo, h.verifier⟩,
    ⟨assignedId_ne_zero row.srpId draw.srpId, draw.secret, hmade⟩, fun hne => if_neg hne⟩

/-- **`GetPassword` stores a challenge and returns it**, where the row can be written. -/
theorem getPassword_exec (h : ProtectedBy P pbkdf2HmacSha512 password salt1 row) {userId : Int64} {s : Stores}
    (hrow : s.accountPasswords.find userId = some row) (hsaves : s.moment.fault = none) (draw : ChallengeDraw) :
    ∃ settings, ((getPassword P userId draw).exec (StoreCall.exec P) s).result = .ok settings ∧
      ((getPassword P userId draw).exec (StoreCall.exec P) s).state.accountPasswords.find userId =
        some (.ofSettings settings) ∧
      settings.currentAlgo = some (passwordAlgo salt1) ∧
      ProtectedBy P pbkdf2HmacSha512 password salt1 (.ofSettings settings) ∧
      Challenged P (.ofSettings settings) := by
  obtain ⟨settings, hchallenge, halgo, hprotected, hchallenged, -⟩ := h.withChallenge draw
  have hread : s.passwordsGetByUser userId = some row.toSettings := by
    rw [Stores.passwordsGetByUser, hrow, Option.map_some]
  have hpassword : (normalized (some row.toSettings)).hasPassword = true := by
    rw [normalized_toSettings h.p_ne_nil]
    exact h.hasPassword
  refine ⟨settings, ?_⟩
  unfold getPassword loadNormalized Prog.exec
  simp only [Prog.run_bind, Prog.run_perform, StoreCall.exec, Prog.idle, hread, Prog.run_pure, hpassword,
    hchallenge, Bool.not_true, Bool.false_eq_true, if_false, write, hsaves, Stores.passwordsSave]
  exact ⟨trivial, by simp, halgo, hprotected, hchallenged⟩

/-! ## The right proof -/

/-- A challenge has 256 bytes of each. -/
theorem ProtectedBy.length_challenge (h : ProtectedBy P pbkdf2HmacSha512 password salt1 row)
    (hchallenged : Challenged P row) : row.srpBSecret.length = 256 ∧ row.srpB.length = 256 := by
  obtain ⟨rand, hmade⟩ := hchallenged.made
  rw [srpMakeChallenge_eq P rand h.isGoodLarge, Except.ok.injEq, SrpChallenge.mk.injEq] at hmade
  rw [← hmade.1, ← hmade.2, srpResidue, length_srpPadToHash]
  exact ⟨rand.length_eq, rfl⟩

/-- **The proof of the right password for the challenge of the row passes.** -/
theorem checkSrp_srpClientProof (h : ProtectedBy P pbkdf2HmacSha512 password salt1 row)
    (hchallenged : Challenged P row) {random : Bytes} {answer : SrpClientAnswer}
    (hanswer : srpClientProof P pbkdf2HmacSha512 password salt1 srpBaseSalt2 row.srpB random = .ok answer)
    (hu : (P.sha256 (answer.a ++ row.srpB)).toList.all (· = 0) = false) :
    checkSrp P (normalized (some row.toSettings)) (provenCheck row.srpId answer) = .ok () := by
  obtain ⟨rand, hmade⟩ := hchallenged.made
  have hm1 := srpCalcM1_srpClientProof P pbkdf2HmacSha512 h.verifier hmade hanswer hu
  obtain ⟨hlengthSecret, hlengthB⟩ := h.length_challenge hchallenged
  have hsecret : row.srpBSecret ≠ [] := List.ne_nil_of_length_pos (by omega)
  have hB : row.srpB ≠ [] := List.ne_nil_of_length_pos (by omega)
  rw [normalized_toSettings h.p_ne_nil]
  simp only [checkSrp, provenCheck, PasswordRow.toSettings, h.hasPassword, hchallenged.srpId,
    h.srpVerifier_ne_nil, hsecret, hB, h.algo, passwordAlgo, Option.getD_some, hm1, ne_eq, not_true_eq_false,
    or_self, if_false, Bool.not_true, Bool.false_eq_true]
  rfl

end Protected

end ShuzaGram.Auth

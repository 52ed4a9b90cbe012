import ShuzaGram.Infra.Utf8
import ShuzaGram.Mtproto.Crypto.MessageCipher
import ShuzaGram.Users.Profile

/-!
# The limits of a profile

`Utf8RuneCount` counts the bytes that are no continuation bytes. Of a text that is UTF-8 these are the runes.
In any other text a continuation byte may belong to no valid sequence, and then it is a rune that is not
counted, so that a text of any number of such bytes passes for a short one.
-/

namespace ShuzaGram.Users

open Infra Utf8 Domain Store Mtproto.Crypto
open StoreProg

/-! ## Counting runes -/

theorem continuation_mask (c : UInt8) : (c &&& 0xC0 ≠ 0x80) ↔ isContinuation c = false := by
  have hall : ∀ n < 256, (UInt8.ofNat n &&& 0xC0 ≠ 0x80) ↔ isContinuation (UInt8.ofNat n) = false := by
    decide +kernel
  have h := hall c.toNat c.toNat_lt
  rwa [UInt8.ofNat_toNat] at h

theorem utf8RuneCount_eq (s : Bytes) : utf8RuneCount s = s.countP fun b => !isContinuation b := by
  refine List.countP_congr fun c _ => ?_
  rw [decide_eq_true_iff, continuation_mask, Bool.not_eq_true']

/-- What is counted, and what is not. -/
theorem runeCount_eq_add (s : Bytes) : runeCount s = utf8RuneCount s + strayContinuations s := by
  rw [runeCount_eq, utf8RuneCount_eq]

theorem utf8RuneCount_eq_iff (s : Bytes) : utf8RuneCount s = runeCount s ↔ strayContinuations s = 0 := by
  rw [runeCount_eq_add]
  omega

/-- The runes of a text that is UTF-8 are counted. -/
theorem utf8RuneCount_of_valid {s : Bytes} (h : valid s = true) : utf8RuneCount s = runeCount s :=
  (utf8RuneCount_eq_iff s).mpr (strayContinuations_of_valid h)

/-! ## What an update writes -/

/-- The limit of `about`. -/
def aboutLimit (premium : Bool) : Nat := if premium then maxProfileAboutRunesPremium else maxProfileAboutRunes

/-- The checks of `UpdateProfile`, with `count` for the number of runes. -/
structure WithinLimits (count : Bytes → Nat) (premium : Bool) (firstName lastName about : Bytes) : Prop where
  firstName : count firstName ≤ maxProfileNameRunes
  lastName : count lastName ≤ maxProfileNameRunes
  about : count about ≤ aboutLimit premium

/-- The stray bytes of a text are no more than what the other bytes leave of the limit. -/
structure FewStrays (premium : Bool) (firstName lastName about : Bytes) : Prop where
  firstName : strayContinuations firstName ≤ maxProfileNameRunes - firstName.countP fun b => !isContinuation b
  lastName : strayContinuations lastName ≤ maxProfileNameRunes - lastName.countP fun b => !isContinuation b
  about : strayContinuations about ≤ aboutLimit premium - about.countP fun b => !isContinuation b

/-- Texts that pass the checks are within the limits where their stray bytes are few. -/
theorem withinLimits_runeCount_iff {premium : Bool} {firstName lastName about : Bytes}
    (h : WithinLimits utf8RuneCount premium firstName lastName about) :
    WithinLimits runeCount premium firstName lastName about ↔ FewStrays premium firstName lastName about := by
  have hfit : ∀ {s : Bytes} {limit : Nat}, utf8RuneCount s ≤ limit →
      (runeCount s ≤ limit ↔ strayContinuations s ≤ limit - s.countP fun b => !isContinuation b) := by
    intro s limit hs
    rw [runeCount_eq_add, ← utf8RuneCount_eq]
    omega
  constructor
  · rintro ⟨hfirst, hlast, habout⟩
    exact ⟨(hfit h.firstName).mp hfirst, (hfit h.lastName).mp hlast, (hfit h.about).mp habout⟩
  · rintro ⟨hfirst, hlast, habout⟩
    exact ⟨(hfit h.firstName).mpr hfirst, (hfit h.lastName).mpr hlast, (hfit h.about).mpr habout⟩

section Runs

variable {S : Type} {ex : (call : StoreCall) → S → Except Exn call.Res × S} {env : Nat → S → S}

/-- **What an update writes has passed the checks,** for the account that it has read. -/
theorem withinLimits_of_write {userId : Int64} {update : UserProfileUpdate} {now : Int} {n : Nat} {s : S}
    {id : Int64} {firstName lastName about : Bytes} {r : Except Exn User}
    (h : ⟨.usersUpdateProfile id firstName lastName about, r⟩ ∈
      (Prog.run ex env n (updateProfile userId update now) s).trace) :
    ∃ self, ⟨.usersById userId, .ok (some self)⟩ ∈ (Prog.run ex env n (updateProfile userId update now) s).trace ∧
      WithinLimits utf8RuneCount (self.premiumActiveAt now) firstName lastName about := by
  unfold updateProfile at h ⊢
  rw [Prog.run_perform_bind] at h ⊢
  rcases hread : ex (.usersById userId) (env n s) with ⟨_ | found, s'⟩
  · rw [hread] at h
    simp at h
  · rw [hread] at h
    cases found with
    | none => simp at h
    | some self =>
      refine ⟨self, by simp, ?_⟩
      simp only [List.mem_cons] at h
      generalize (update.firstName.map trimAsciiSpace).getD self.firstName = newFirstName at h
      generalize (update.lastName.map trimAsciiSpace).getD self.lastName = newLastName at h
      generalize (update.about.map trimAsciiSpace).getD self.about = newAbout at h
      rcases h with h | h
      · cases h
      -- The write comes behind the checks of the source, so they all passed.
      · by_cases hnames : newFirstName = [] ∨ utf8RuneCount newFirstName > maxProfileNameRunes ∨
            utf8RuneCount newLastName > maxProfileNameRunes
        · rw [if_pos hnames] at h
          cases h
        · rw [if_neg hnames] at h
          by_cases habout : utf8RuneCount newAbout > aboutLimit (self.premiumActiveAt now)
          · rw [← aboutLimit, if_pos habout] at h
            cases h
          · rw [← aboutLimit, if_neg habout] at h
            split at h
            · cases h
            · rw [Prog.run_perform] at h
              cases List.mem_singleton.mp h
              have hnames' := not_or.mp (not_or.mp hnames).2
              exact ⟨Nat.not_lt.mp hnames'.1, Nat.not_lt.mp hnames'.2, Nat.not_lt.mp habout⟩

end Runs

/-- **Runes and the limits of a profile.** A text is counted right if and only if it has no stray
continuation byte. What `UpdateProfile` writes, for any request, stores and other requests in between, is
within the limits if and only if the stray bytes of its texts are few. -/
theorem updateProfile_withinLimits_iff (text : Bytes) {S : Type} (ex : (call : StoreCall) → S → Except Exn call.Res × S)
    (env : Nat → S → S) (s : S) (userId : Int64) (update : UserProfileUpdate) (now : Int) (id : Int64)
    (firstName lastName about : Bytes) (r : Except Exn User) :
    (utf8RuneCount text = runeCount text ↔ strayContinuations text = 0) ∧
      (⟨.usersUpdateProfile id firstName lastName about, r⟩ ∈
          (Prog.run ex env 0 (updateProfile userId update now) s).trace →
        ∃ self, ⟨.usersById userId, .ok (some self)⟩ ∈ (Prog.run ex env 0 (updateProfile userId update now) s).trace ∧
          (WithinLimits runeCount (self.premiumActiveAt now) firstName lastName about ↔
            FewStrays (self.premiumActiveAt now) firstName lastName about)) := by
  refine ⟨utf8RuneCount_eq_iff text, ?_⟩
  intro h
  obtain ⟨self, hself, hchecked⟩ := withinLimits_of_write h
  exact ⟨self, hself, withinLimits_runeCount_iff hchecked⟩

/-- An account under the id 7. -/
def namedStores : Stores :=
  { Stores.empty { now := 0, newUserId := 0 } with users := Table.empty.upsert 7 { firstName := ascii "Ann" } }

/-- A change of the first name. -/
def renamed (firstName : Bytes) : UserProfileUpdate := { firstName := some firstName, lastName := none, about := none }

theorem updateProfile_withinLimits_bea :
    WithinLimits runeCount false (ascii "Bea") [] [] ↔ FewStrays false (ascii "Bea") [] [] := by
  have htrace : (Prog.run (StoreCall.exec blankPrimitives) Prog.idle 0 (updateProfile 7 (renamed (ascii "Bea")) 0)
      namedStores).trace =
      [⟨.usersById 7, .ok (some { id := 7, firstName := ascii "Ann" })⟩,
        ⟨.usersUpdateProfile 7 (ascii "Bea") [] [], .ok { id := 7, firstName := ascii "Bea" }⟩] := rfl
  obtain ⟨self, hself, hiff⟩ := (updateProfile_withinLimits_iff [] (StoreCall.exec blankPrimitives) Prog.idle namedStores
    7 (renamed (ascii "Bea")) 0 7 (ascii "Bea") [] [] (.ok { id := 7, firstName := ascii "Bea" })).2 (by rw [htrace]; simp)
  rw [htrace] at hself
  have hread : self = { id := 7, firstName := ascii "Ann" } := by simpa using hself
  rw [hread] at hiff
  exact hiff

/-- A letter and 64 continuation bytes. -/
def strayName : Bytes := 65 :: List.replicate 64 0x80

/-- **65 runes are stored as a first name.** -/
theorem strayName_stored :
    utf8RuneCount [0x80] = 0 ∧ runeCount [0x80] = 1 ∧
      (((updateProfile 7 (renamed strayName) 0).exec (StoreCall.exec blankPrimitives) namedStores).state.users.find 7).map
        (fun u => (u.firstName, runeCount u.firstName)) = some (strayName, maxProfileNameRunes + 1) := by
  decide +kernel

end ShuzaGram.Users

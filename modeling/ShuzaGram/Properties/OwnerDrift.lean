import ShuzaGram.Auth.LoginRuns

/-!
# A phone that changes hands during a login

Other writers of the accounts may act between any two store calls of one `signIn`: `usersAt k` is the
table `users` as its `k`-th call finds it. `signIn` never writes that table itself.

The owner of the phone is read three times, by the calls 1, 3 and 4, and the first two are compared
with the owner that the code was issued for. The account that is logged in to comes from the third
read, which nothing compares.
-/

namespace ShuzaGram.Auth

open Infra Domain Store Mtproto.Crypto

/-- The other writers change the accounts and nothing else. -/
def otherWriters (usersAt : Nat → Table Int64 User) : Nat → Stores → Stores :=
  fun k s => { s with users := usersAt k }

/-- Every login that the run asks for is for the account that the code was issued for. -/
def BindsIssued (codes : Codes) (hash : Bytes) (trace : List StoreEvent) : Prop :=
  ∀ a ∈ binds trace, ∃ rec, codes.find hash = some rec ∧ a.userId = rec.issuedUserId

/-- If the code is about to be accepted for an existing account, with the issued owner still there at
the first two reads, then the third read finds that owner too, or nobody. -/
def OwnerStaysToTheEnd (codes : Codes) (usersAt : Nat → Table Int64 User) (phone hash code : Bytes) : Prop :=
  ∀ rec, codes.find hash = some rec → rec.phone = phone → rec.signUpVerified = false →
    rec.code = code → rec.issuedUserId ≠ 0 → ownerId (phoneOwner (usersAt 1) phone) = rec.issuedUserId →
    ownerId (phoneOwner (usersAt 3) phone) = rec.issuedUserId →
    ∀ u, phoneOwner (usersAt 4) phone = some u → u.id = rec.issuedUserId

section

variable (P : Primitives) (lib : PhoneLibrary) (usersAt : Nat → Table Int64 User)
  (template : Authorization) (phoneNumber hash code : Bytes) (passwords : Bool) (s : Stores)

/-- The run of one `signIn` between the other writers. -/
def driftRun : Prog.Outcome StoreCall.Res Exn Stores SignInResult :=
  (signIn lib template phoneNumber hash code passwords).run (StoreCall.exec P) (otherWriters usersAt) 0 s

theorem driftRun_run :
    let o := driftRun P lib usersAt template phoneNumber hash code passwords s
    SignInRun False (fun k x => x = phoneOwner (usersAt k) (normalizePhone lib phoneNumber)) 0 template
      (normalizePhone lib phoneNumber) hash code passwords s.codes o.state.codes o.trace o.result := by
  have haround : Around (otherWriters usersAt) (normalizePhone lib phoneNumber)
      (fun k x => x = phoneOwner (usersAt k) (normalizePhone lib phoneNumber)) fun _ => True :=
    ⟨fun _ _ => rfl, fun _ _ _ => trivial, fun _ _ _ => trivial, fun _ _ _ => rfl⟩
  exact signIn_run (attempts_exec P) template phoneNumber hash code passwords haround 0 s trivial

/-- **A login goes to the issued owner exactly if nobody takes the phone over before the last read.** -/
theorem signIn_bindsIssued_iff :
    BindsIssued s.codes hash (driftRun P lib usersAt template phoneNumber hash code passwords s).trace ↔
      OwnerStaysToTheEnd s.codes usersAt (normalizePhone lib phoneNumber) hash code := by
  have hrun := driftRun_run P lib usersAt template phoneNumber hash code passwords s
  generalize driftRun P lib usersAt template phoneNumber hash code passwords s = o at hrun ⊢
  obtain ⟨result, s', trace⟩ := o
  generalize normalizePhone lib phoneNumber = phone at hrun ⊢
  -- The owner is read three times; the login is bound to the last answer, which the issued one has to match.
  constructor
  · intro hbinds rec hrec hphone hfresh hcode hissued h1 h3 u hu
    have hright : ∀ {codes' trace result},
        VerifyRun False (fun k x => x = phoneOwner (usersAt k) phone) 0 phone hash code s.codes codes' trace result →
          result = .ok (some u) := fun hverify => by
      obtain ⟨z, hz, hres⟩ := hverify.result_of_right hrec hphone hfresh hcode hissued
        (fun x hx => hx ▸ h1) (fun y hy => hy ▸ h3) id
      rw [hres, hz, hu]
    simp only at hrun hbinds
    cases hrun with
    | refused hverify => cases hright hverify
    | needSignUp hverify => cases hright hverify
    | @bound tr reads u' needed a answer hverify hreads ha =>
      cases hright hverify
      obtain ⟨rec', hrec', huser⟩ := hbinds a (by simp [binds, bindCall])
      rw [hrec] at hrec'
      cases hrec'
      rw [← huser, ha]
    | unreadPassword hfails => exact hfails.elim
  · intro hstays a ha
    rcases hrun.binds_eq with hnone | ⟨u, tr, b, hverify, -, hb, hone⟩
    · rw [hnone] at ha
      cases ha
    · rw [hone, List.mem_singleton] at ha
      obtain ⟨rec, x, y, hrec, hphone, hfresh, hcode, hx, howner, hy, hsame, hsome, hz, -⟩ := hverify.of_some
      refine ⟨rec, hrec, ?_⟩
      rw [ha, hb]
      refine hstays rec hrec hphone hfresh hcode (howner ▸ hsome) ?_ ?_ u hz.symm
      · rw [howner, hx]
      · rw [howner, hsame, hy]

end

/-! ## A takeover between the last two reads -/

/-- Constant hashes and the identity as cipher, where a run has to be computed. -/
def constPrimitives : Primitives :=
  { sha1 := fun _ => ⟨List.replicate 20 1, List.length_replicate⟩
    sha256 := fun _ => ⟨List.replicate 32 1, List.length_replicate⟩
    aes := fun _ => Equiv.refl _ }

def sampleLibrary : PhoneLibrary := { formatE164 := fun _ => none }

def samplePhone : Bytes := ascii "8881234567"

def sampleCode : Bytes := ascii "12345"

def sampleDraw : SendCodeDraw :=
  { hash := Arr.zero 8, digits := fun _ => 0, deliveryId := Arr.zero 16, now := 1000 }

def sampleHash : Bytes := randomHex sampleDraw.hash.toList

/-- The sample phone belongs to the account `id`. -/
def ownedBy (id : Int64) : Table Int64 User :=
  Table.empty.upsert id { phone := samplePhone, firstName := ascii "Ann" }

/-- One permanent key and the account 7, which owns the sample phone. -/
def sampleStores : Stores :=
  { Stores.empty { now := 1000, newUserId := 8 } with
    users := ownedBy 7
    authKeys := Table.empty.upsert (Arr.zero 8) {} }

/-- The stores after a code was sent to the owner. -/
def sampleSent : Stores :=
  ((sendCode sampleLibrary samplePhone sampleCode none 300 sampleDraw).exec (StoreCall.exec constPrimitives)
    sampleStores).state

/-- The phone goes from the account 7 to the account 9 before the third read. -/
def takenOver (k : Nat) : Table Int64 User := if k < 4 then ownedBy 7 else ownedBy 9

def takeoverRun : Prog.Outcome StoreCall.Res Exn Stores SignInResult :=
  driftRun constPrimitives sampleLibrary takenOver { authKeyId := Arr.zero 8 } samplePhone sampleHash
    sampleCode false sampleSent

theorem takeoverRun_binds : (binds takeoverRun.trace).map Authorization.userId = [9] := by decide +kernel

theorem sampleSent_issued : (sampleSent.codes.find sampleHash).map PhoneCode.issuedUserId = some 7 := by
  decide +kernel

/-- **A client that proved the phone of account 7 is logged in to account 9.** -/
theorem takeoverRun_not_issued : ¬ BindsIssued sampleSent.codes sampleHash takeoverRun.trace := by
  intro h
  obtain ⟨a, ha, huser⟩ : ∃ a ∈ binds takeoverRun.trace, a.userId = 9 := by
    have : (9 : Int64) ∈ (binds takeoverRun.trace).map Authorization.userId := by
      rw [takeoverRun_binds]
      exact List.mem_singleton_self _
    simpa using this
  obtain ⟨rec, hrec, hissued⟩ := h a ha
  have h7 := sampleSent_issued
  rw [hrec, Option.map_some, ← hissued, huser] at h7
  exact absurd h7 (by decide)

end ShuzaGram.Auth

import ShuzaGram.Infra.Bytes

/-!
# Signed deliveries

`otpdelivery/signature.hpp`, and the ids of deliveries. The HMAC is outside of it and is a parameter.
-/

namespace ShuzaGram.OtpDelivery

open Infra

def hexDigit (n : UInt8) : UInt8 := if n < 10 then 48 + n else 87 + n

/-- `HexEncode`. -/
def hexEncode (data : Bytes) : Bytes := data.flatMap fun (b : UInt8) => [hexDigit (b >>> 4), hexDigit (b &&& 0xF)]

/-- `Signature`; `hmac` is HMAC-SHA256 of a key and a message. -/
def signature (hmac : Bytes → Bytes → Bytes) (secret timestamp body : Bytes) : Bytes :=
  ascii "sha256=" ++ hexEncode (hmac secret (timestamp ++ ascii "." ++ body))

/-- `NewDeliveryID` on the bytes it drew. -/
def newDeliveryId (raw : Arr 16) : Bytes := ascii "otp_" ++ hexEncode raw.toList

theorem hexDigit_nibble {n : UInt8} (h : n ≤ 0xF) : 48 ≤ hexDigit n ∧ hexDigit n ≤ 102 := by
  unfold hexDigit
  grind

/-- Hexadecimal text is made of digits and of letters up to `f`. -/
theorem mem_hexEncode {data : Bytes} {b : UInt8} (h : b ∈ hexEncode data) : 48 ≤ b ∧ b ≤ 102 := by
  obtain ⟨c, -, hb⟩ := List.mem_flatMap.mp h
  have hhigh : c >>> 4 ≤ 0xF := by
    have := c.toNat_lt
    rw [UInt8.le_iff_toNat_le, UInt8.toNat_shiftRight, Nat.shiftRight_eq_div_pow]
    simp
    omega
  have hlow : c &&& 0xF ≤ 0xF := by
    rw [UInt8.le_iff_toNat_le, UInt8.toNat_and]
    exact Nat.and_le_right
  rcases List.mem_pair.mp hb with rfl | rfl
  · exact hexDigit_nibble hhigh
  · exact hexDigit_nibble hlow

/-- A new id is a field of a request: it holds no end of a line and does not begin with a blank. -/
theorem newDeliveryId_field (raw : Arr 16) : 13 ∉ newDeliveryId raw ∧ (newDeliveryId raw).head? ≠ some 32 := by
  constructor
  · intro hmem
    rcases List.mem_append.mp hmem with hmem | hmem
    · exact absurd hmem (by decide)
    · exact absurd (mem_hexEncode hmem).1 (by decide)
  · intro hhead
    cases hhead

end ShuzaGram.OtpDelivery

import ShuzaGram.Infra.Bytes
import Mathlib.Tactic.Common

/-!
# Phone numbers

`domain/phone.cpp`: the one form under which a phone number is stored and compared. Ordinary numbers
go through libphonenumber, which is outside the repository and a parameter here.
-/

namespace ShuzaGram.Domain

open Infra

/-- libphonenumber on `"+" + digits` in the unknown region: the E.164 text of a number that parses
and is possible. -/
structure PhoneLibrary where
  formatE164 : Bytes → Option Bytes

def isDigit (c : UInt8) : Bool := 48 ≤ c && c ≤ 57

/-- `std::isspace` in the C locale. -/
def isSpace (c : UInt8) : Bool := c = 32 || (9 ≤ c && c ≤ 13)

/-- A separator: a space, or one of `- ( ) . /`. -/
def isPhoneSeparator (c : UInt8) : Bool :=
  isSpace c || c = 45 || c = 40 || c = 41 || c = 46 || c = 47

/-- The loop of `PhoneDigits`; a `+` (43) may only stand before the first digit, once. -/
def phoneDigitsLoop (seenDigit seenPlus : Bool) (out : Bytes) : Bytes → Bytes
  | [] => out
  | c :: cs =>
    if isDigit c then phoneDigitsLoop true seenPlus (out ++ [c]) cs
    else if c = 43 then
      if seenPlus || seenDigit then [] else phoneDigitsLoop seenDigit true out cs
    else if isPhoneSeparator c then phoneDigitsLoop seenDigit seenPlus out cs
    else []

/-- `PhoneDigits`. -/
def phoneDigits (phone : Bytes) : Bytes := phoneDigitsLoop false false [] phone

def minCollectiblePhoneLength : Nat := 7
def maxCollectiblePhoneLength : Nat := 15
def officialSystemPhone : Bytes := ascii "42777"

/-- `NormalizePhone`. -/
def normalizePhone (lib : PhoneLibrary) (phone : Bytes) : Bytes :=
  let digits := phoneDigits phone
  if digits = [] then []
  else if minCollectiblePhoneLength ≤ digits.length ∧ digits.length ≤ maxCollectiblePhoneLength ∧
      digits.take 3 = ascii "888" then digits
  else if digits = officialSystemPhone then digits
  else
    match lib.formatE164 digits with
    | none => []
    | some formatted =>
      let formatted := if formatted.head? = some 43 then formatted.drop 1 else formatted
      if formatted = [] ∨ formatted.length > 15 then [] else formatted

/-- `ValidPhone`. -/
def validPhone (lib : PhoneLibrary) (phone : Bytes) : Bool :=
  normalizePhone lib phone ≠ [] && normalizePhone lib phone = phone

end ShuzaGram.Domain

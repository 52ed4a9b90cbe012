import ShuzaGram.Infra.Steps
import ShuzaGram.Mtproto.Crypto.Rsa

/-!
# The DER reader

`DerReader` of `mtproto/crypto/rsa.cpp` and the part of `FromPkcs1Pem` behind the PEM framing. Positions and lengths
are `size_t`, so their sums wrap. An index is read through a check that the source does not make: a read beyond the
string is an outcome of its own, which no exception is.
-/

namespace ShuzaGram.Mtproto.Crypto

open Infra

/-- How a read ends without a result: with an exception, or at an index that the string does not have. -/
inductive DerStop where
  | thrown (e : Exn)
  | outOfBounds (index : UInt64)
deriving DecidableEq

/-- A program on `pos_`. -/
abbrev DerReader := EStateM DerStop UInt64

namespace DerReader

/-- `len_`. -/
def len (p : Bytes) : UInt64 := UInt64.ofNat p.length

/-- `p_[i]`. -/
def byteAt (p : Bytes) (i : UInt64) : DerReader UInt8 :=
  match p[i.toNat]? with
  | some b => pure b
  | none => throw (.outOfBounds i)

/-- `std::vector<std::uint8_t>(p_ + start, p_ + start + n)`. A size that is negative as a `ptrdiff_t` is refused
before anything is read. -/
def bytesFrom (p : Bytes) (start n : UInt64) : DerReader Bytes :=
  if 0x8000000000000000 ≤ n then throw (.thrown .lengthError)
  else if p.length < start.toNat + n.toNat then throw (.outOfBounds (max start (len p)))
  else pure ((p.drop start.toNat).take n.toNat)

def readTag (p : Bytes) : DerReader UInt8 := do
  let pos ← get
  if pos ≥ len p then throw (.thrown (.runtimeError "DER: unexpected end reading tag"))
  let b ← byteAt p pos
  set (pos + 1)
  return b

/-- The loop of `ReadLength`. -/
def readOctets (p : Bytes) : Nat → UInt64 → DerReader UInt64
  | 0, out => return out
  | n + 1, out => do
    let b ← readTag p
    readOctets p n ((out <<< 8) ||| b.toUInt64)

def readLength (p : Bytes) : DerReader UInt64 := do
  let first ← readTag p
  if first < 0x80 then return first.toUInt64
  readOctets p (first &&& 0x7F).toNat 0

/-- Whether a zero byte keeps a high bit from being taken for a sign. -/
def leadsWithZero (p : Bytes) (start n : UInt64) : DerReader Bool :=
  if n > 1 then do
    let b ← byteAt p start
    return b = 0x00
  else return false

def readInteger (p : Bytes) : DerReader Bytes := do
  let tag ← readTag p
  if tag ≠ 0x02 then throw (.thrown (.runtimeError "DER: expected INTEGER tag"))
  let len' ← readLength p
  let pos ← get
  if pos + len' > len p then throw (.thrown (.runtimeError "DER: INTEGER length exceeds buffer"))
  let out ← if ← leadsWithZero p pos len' then bytesFrom p (pos + 1) (len' - 1) else bytesFrom p pos len'
  set (pos + len')
  return out

/-- The outer length is read and ignored. -/
def enterSequence (p : Bytes) : DerReader Unit := do
  let tag ← readTag p
  if tag ≠ 0x30 then throw (.thrown (.runtimeError "DER: expected SEQUENCE tag"))
  let _ ← readLength p

/-- `FromPkcs1Pem`, from what the PEM framing holds. -/
def readPublicKey (p : Bytes) : DerReader RsaPublicKey := do
  enterSequence p
  let n ← readInteger p
  let e ← readInteger p
  return { n, e }

end DerReader

end ShuzaGram.Mtproto.Crypto

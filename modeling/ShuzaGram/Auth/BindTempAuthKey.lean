import ShuzaGram.Mtproto.Crypto.MessageCipher
import ShuzaGram.Store.AuthorizationStore
import ShuzaGram.Store.DbCalls

/-!
# Binding a temporary key

`auth/bind_temp_auth_key.cpp`. Opening the envelope that proves the possession of the permanent key
(`mtproto/crypto/bind.cpp`) is a parameter.
-/

namespace ShuzaGram.Auth

open Infra Store Mtproto Mtproto.Crypto

/-- `messages::BindAuthKeyInner`. -/
structure BindAuthKeyInner where
  nonce : Int64
  tempAuthKeyId : Int64
  permAuthKeyId : Int64
  tempSessionId : Int64
  expiresAt : Int32
deriving DecidableEq

structure BindTempAuthKeyRequest where
  tempAuthKeyId : Arr 8
  tempSessionId : Int64
  permAuthKeyId : Int64
  nonce : Int64
  expiresAt : Int32
  encryptedMessage : Bytes

/-- `DecryptBindAuthKeyInner`; nothing for an envelope that it refuses. -/
abbrev OpenBindAuthKeyInner := AuthKeyBytes → Bytes → Option BindAuthKeyInner

/-- `AuthKeyIdFromInt64`. -/
def authKeyIdFromInt64 (v : Int64) : Arr 8 := Arr.ofList 8 (putLong v)

/-- The envelope speaks of the request. -/
def BindAuthKeyInner.proves (inner : BindAuthKeyInner) (req : BindTempAuthKeyRequest) : Bool :=
  inner.nonce = req.nonce && inner.tempAuthKeyId = authKeyIdToInt64 req.tempAuthKeyId &&
    inner.permAuthKeyId = req.permAuthKeyId && inner.tempSessionId = req.tempSessionId &&
    inner.expiresAt = req.expiresAt

/-- The temporary key of a pair, if it has not expired. -/
def liveTemporary (pair : AuthKeyBindingKeys) (now : Int) : DbProg AuthKeyData :=
  match pair.temporary with
  | none => throw .tempAuthKeyEmpty
  | some temporary => if temporary.expiresAt ≤ now then throw .tempAuthKeyEmpty else pure temporary

/-- The proof of a pair: its permanent key opens the envelope, which speaks of the request. -/
def checkProof (openInner : OpenBindAuthKeyInner) (pair : AuthKeyBindingKeys) (req : BindTempAuthKeyRequest) :
    DbProg Unit :=
  match pair.permanent with
  | none => throw .encryptedMessageInvalid
  | some permanent =>
    if permanent.expiresAt ≠ 0 then throw .encryptedMessageInvalid
    else
      match openInner permanent.value req.encryptedMessage with
      | none => throw .encryptedMessageInvalid
      | some inner => if inner.proves req then pure () else throw .encryptedMessageInvalid

/-- `BindTempAuthKey`; the clock is read before the proof is checked and after it. -/
def bindTempAuthKey (openInner : OpenBindAuthKeyInner) (req : BindTempAuthKeyRequest) (now₁ now₂ : Int) :
    DbProg TempAuthKeyBindingResult := do
  if req.expiresAt ≤ 0 then throw .expiresAtInvalid
  let pair ← Prog.perform (DbCall.authKeysLoadBindingKeys req.tempAuthKeyId (authKeyIdFromInt64 req.permAuthKeyId))
  let temporary ← liveTemporary pair now₁
  checkProof openInner pair req
  if temporary.expiresAt ≤ now₂ then throw .tempAuthKeyEmpty
  Prog.perform (DbCall.tempKeysSaveWithState
    { tempAuthKeyId := req.tempAuthKeyId
      permAuthKeyId := req.permAuthKeyId
      nonce := req.nonce
      tempSessionId := req.tempSessionId
      expiresAt := temporary.expiresAt
      encryptedMessage := req.encryptedMessage })

end ShuzaGram.Auth

import ShuzaGram.Infra.Bytes

/-!
# Exceptions

The exception classes of the source, one constructor each. `what` is the text that the class
hands to `std::runtime_error`; the server writes it into an answer only for a call whose wrapper
does not decode, and otherwise tells exceptions apart by class.
-/

namespace ShuzaGram

open Infra

inductive Exn where
  -- mtproto/tl_buffer.hpp
  | bufferUnderrun
  | unexpectedId (id : UInt32)
  -- the standard library, OpenSSL glue, libpqxx and nlohmann::json
  | lengthError
  | invalidArgument (what : String)
  | runtimeError (what : String)
  | sqlError (sqlstate : String)
  | jsonTypeError (what : String)
  -- mtproto/server_exchange.hpp, mtproto/unexpected_encrypted_frame.hpp
  | serverExchange (code : Int) (what : Bytes)
  | unexpectedEncryptedFrame (authKeyId : Arr 8) (frame : Bytes)
  -- mtproto/transport/codec.hpp, mtproto/transport/detect_transport.hpp, net/tcp_socket.hpp
  | invalidMessageLength (n : Nat)
  | alignedPayloadExpected (expected : Nat)
  | protocolError (code : Int32)
  | invalidTransportPrefix (what : String)
  | connectionClosed
  -- mtproto/crypto/bind.hpp
  | bindEncryptedMessageInvalid
  -- domain/user_errors.hpp
  | domainError (what : String)
  | usernameOccupied
  | usernameInvalid
  | userNotFound
  | usernameNotOccupied
  | phoneNumberOccupied
  | starGiftCollectibleInvalid
  | notImplemented (what : String)
  | accountDeleted
  | birthdayInvalid
  | peerModerationFlagsInvalid
  | firstNameInvalid
  | aboutTooLong
  -- store/errors.hpp
  | storeError (what : String)
  | authKeyNotFound
  | authKeyNotPermanent
  | authorizationStateChanged
  | tempAuthKeyAlreadyBound
  | authKeySessionLayerInvalid
  | authKeySessionLayerConflict
  -- store/postgres/auth_identity_lock.hpp
  | authIdentityChanged
  -- auth/bind_temp_auth_key.hpp
  | expiresAtInvalid
  | tempAuthKeyEmpty
  | encryptedMessageInvalid
  -- auth/sign_in.hpp, auth/check_password.hpp, otpdelivery/webhook_sender.hpp
  | phoneNumberInvalid
  | codeExpired
  | codeInvalid
  | sessionPasswordNeeded
  | passwordHashInvalid
  | srpIdInvalid
  | srpPasswordChanged
  | deliveryFailed (reason : String)
  -- not an exception: the part of the random stream given to a retry loop ran out
  | randomExhausted
  -- not an exception: the stack of the thread is used up, and the process dies
  | stackExhausted
deriving DecidableEq

/-- `ProtocolError::MessageFor`. -/
def protocolErrorMessage (code : Int32) : String :=
  if code = 404 then "auth key not found"
  else if code = 429 then "transport flood"
  else if code = 444 then "wrong DC"
  else "protocol error " ++ toString code.toInt

/-- `e.what()`. -/
def Exn.what : Exn → Bytes
  | bufferUnderrun => ascii "unexpected end of TL buffer"
  | unexpectedId _ => ascii "unexpected TL id"
  | lengthError => ascii "vector::_M_default_append"
  | invalidArgument w | runtimeError w | domainError w | storeError w | jsonTypeError w => ascii w
  | sqlError state => ascii state
  | serverExchange _ w => w
  | unexpectedEncryptedFrame .. => ascii "unexpected encrypted message during key exchange"
  | invalidMessageLength n => ascii ("invalid message length " ++ toString n)
  | alignedPayloadExpected n => ascii ("payload is not aligned, expected align by " ++ toString n)
  | protocolError code => ascii (protocolErrorMessage code)
  | invalidTransportPrefix w => ascii w
  | connectionClosed => ascii "connection closed by peer"
  | bindEncryptedMessageInvalid => ascii "encrypted message invalid"
  | usernameOccupied => ascii "username occupied"
  | usernameInvalid => ascii "username invalid"
  | userNotFound => ascii "user not found"
  | usernameNotOccupied => ascii "username not occupied"
  | phoneNumberOccupied => ascii "phone number occupied"
  | starGiftCollectibleInvalid => ascii "stargift: invalid collectible definition"
  | notImplemented w => ascii "not implemented: " ++ ascii w
  | accountDeleted => ascii "account deleted"
  | birthdayInvalid => ascii "birthday invalid"
  | peerModerationFlagsInvalid => ascii "peer moderation flags invalid"
  | firstNameInvalid => ascii "first name invalid"
  | aboutTooLong => ascii "about too long"
  | authKeyNotFound => ascii "auth key not found"
  | authKeyNotPermanent => ascii "auth key is not permanent"
  | authorizationStateChanged => ascii "authorization state changed"
  | tempAuthKeyAlreadyBound => ascii "temporary auth key already bound to a different permanent key"
  | authKeySessionLayerInvalid => ascii "invalid auth key session layer evidence"
  | authKeySessionLayerConflict => ascii "conflicting auth key session layer evidence"
  | authIdentityChanged => ascii "auth key permanent identity changed while acquiring locks"
  | expiresAtInvalid => ascii "temporary auth key request expiry invalid"
  | tempAuthKeyEmpty => ascii "temporary auth key missing or expired"
  | encryptedMessageInvalid => ascii "encrypted message invalid"
  | phoneNumberInvalid => ascii "phone number invalid"
  | codeExpired => ascii "phone code expired or not found"
  | codeInvalid => ascii "phone code invalid"
  | sessionPasswordNeeded => ascii "session password needed"
  | passwordHashInvalid => ascii "password hash invalid"
  | srpIdInvalid => ascii "srp id invalid"
  | srpPasswordChanged => ascii "srp password changed"
  | deliveryFailed r => ascii r
  | randomExhausted => []
  | stackExhausted => []

@[simp] theorem error_bind {α β : Type} (e : Exn) (f : α → Except Exn β) :
    (Except.error e >>= f) = .error e := rfl

@[simp] theorem ok_bind {α β : Type} (a : α) (f : α → Except Exn β) : (Except.ok a >>= f) = f a := rfl

theorem exists_of_bind_eq_ok {α β : Type} {x : Except Exn α} {f : α → Except Exn β} {b : β}
    (h : (x >>= f) = .ok b) : ∃ a, x = .ok a ∧ f a = .ok b := by
  cases x with
  | error e => cases h
  | ok a => exact ⟨a, rfl, h⟩

end ShuzaGram

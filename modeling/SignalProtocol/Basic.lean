import Mathlib.Algebra.Group.Int.Defs
import Mathlib.Algebra.Group.Nat.Defs

/-! # Bytes and errors -/

namespace SignalProtocol

abbrev Bytes := List UInt8

inductive BraidErrorCode where
  | invalidEkSeedSize
  | invalidEkVectorSize
  | invalidDkSize
  | invalidCt1Size
  | invalidCt2Size
  | invalidHekSize
  | invalidRandomnessSize
  | macVerificationFailed
  | ekHashBindingFailed
  | invalidStateTransition
  | epochMismatch
  | invalidSharedSecretSize
  deriving DecidableEq

inductive EncryptionErrorCode where
  | sessionNotFound
  | decryptionFailed
  | messageDuplicate
  | prekeyNotFound
  | invalidState
  | spqrEpochOutOfRange
  | spqrInvalidCiphertext
  | spqrCounterOverflow
  | spqrMessageJumpTooLarge
  | invalidCiphertext
  | encryptionFailed
  | senderKeyExpired
  deriving DecidableEq

/-- What a modelled function can throw: a plain `Error`, an `MLKEMBraidError` or an
`EncryptionError`. -/
inductive ProtocolError where
  | error (message : String)
  | braid (code : BraidErrorCode) (message : String)
  | encryption (code : EncryptionErrorCode) (message : String)
  deriving DecidableEq

end SignalProtocol

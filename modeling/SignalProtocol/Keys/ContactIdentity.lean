import SignalProtocol.Platform.Text

/-! # Composite identities and the trust record of a contact

The tuple of two public keys is the identity. A contact's record holds the current tuple and the
tuples that it replaced. -/

namespace SignalProtocol.Keys

def maxSafeInteger : ℤ := 2 ^ 53 - 1

def isSafeInteger (value : ℤ) : Bool := -maxSafeInteger ≤ value ∧ value ≤ maxSafeInteger

def constantTimeEqual (a b : Bytes) : Bool :=
  if a.length ≠ b.length then false
  else (List.zipWith (· ^^^ ·) a b).foldl (· ||| ·) 0 = 0

structure CompositeIdentityV1 where
  version : ℤ
  x25519PublicKey : JsString
  ed25519PublicKey : JsString
  deriving DecidableEq

def compositeIdentityV1Version : UInt8 := 0x01

def compositeIdentityV1X25519Tag : UInt8 := 0x01

def compositeIdentityV1Ed25519Tag : UInt8 := 0x02

def compositeIdentityV1Length : ℕ := 67

def publicKeyLength : ℕ := 32

def domainBytes : Bytes := stringToBytes "signal-protocol-js composite identity v1"

def decodeCanonicalPublicKey (publicKey : JsString) (label : String) :
    Except ProtocolError Bytes :=
  match base64ToBytes publicKey with
  | .error _ => throw (.error s!"{label} must be canonical base64")
  | .ok decoded =>
    if decoded.length ≠ publicKeyLength then
      throw (.error s!"{label} must contain exactly {publicKeyLength} bytes")
    else if JsString.ofString (bytesToBase64 decoded) ≠ publicKey then
      throw (.error s!"{label} must use canonical padded base64")
    else pure decoded

def encodeCompositeIdentityV1 (identity : CompositeIdentityV1) : Except ProtocolError Bytes :=
  if identity.version ≠ compositeIdentityV1Version.toNat then
    throw (.error s!"Unsupported composite identity version: {identity.version}")
  else do
    let x25519 ← decodeCanonicalPublicKey identity.x25519PublicKey "X25519 public key"
    let ed25519 ← decodeCanonicalPublicKey identity.ed25519PublicKey "Ed25519 public key"
    pure ([compositeIdentityV1Version, compositeIdentityV1X25519Tag] ++ x25519 ++
      [compositeIdentityV1Ed25519Tag] ++ ed25519)

def decodeCompositeIdentityV1 (encoded : Bytes) : Except ProtocolError CompositeIdentityV1 :=
  if encoded.length ≠ compositeIdentityV1Length then
    throw (.error s!"CompositeIdentityV1 must contain exactly {compositeIdentityV1Length} bytes")
  else if encoded.getD 0 0 ≠ compositeIdentityV1Version then
    throw (.error s!"Unsupported composite identity version: {encoded.getD 0 0}")
  else if encoded.getD 1 0 ≠ compositeIdentityV1X25519Tag then
    throw (.error s!"Unsupported X25519 algorithm tag: {encoded.getD 1 0}")
  else if encoded.getD 34 0 ≠ compositeIdentityV1Ed25519Tag then
    throw (.error s!"Unsupported Ed25519 algorithm tag: {encoded.getD 34 0}")
  else
    pure {
      version := 1
      x25519PublicKey := JsString.ofString (bytesToBase64 ((encoded.drop 2).take 32))
      ed25519PublicKey := JsString.ofString (bytesToBase64 ((encoded.drop 35).take 32)) }

def compositeIdentitiesEqual (left right : CompositeIdentityV1) : Except ProtocolError Bool := do
  let left ← encodeCompositeIdentityV1 left
  let right ← encodeCompositeIdentityV1 right
  pure (constantTimeEqual left right)

def cloneIdentity (identity : CompositeIdentityV1) : Except ProtocolError CompositeIdentityV1 := do
  let encoded ← encodeCompositeIdentityV1 identity
  decodeCompositeIdentityV1 encoded

/-! ## Records -/

inductive IdentityTrustState where
  | unverifiedTofu
  | verified

structure ContactIdentityRecord where
  identity : CompositeIdentityV1
  trustState : IdentityTrustState
  firstSeenAt : ℤ
  lastSeenAt : ℤ
  verifiedAt : Option ℤ
  revision : ℕ
  retiredIdentities : List CompositeIdentityV1

inductive IdentityCandidateStatus where
  | new
  | matched
  | changed
  | rollback
  deriving DecidableEq

def IdentityCandidateStatus.text : IdentityCandidateStatus → String
  | new => "NEW"
  | matched => "MATCH"
  | changed => "CHANGED"
  | rollback => "ROLLBACK"

def assertTimestamp (value : ℤ) (label : String) : Except ProtocolError Unit :=
  if ¬ isSafeInteger value ∨ value < 0 then
    throw (.error s!"{label} must be a non-negative safe integer")
  else pure ()

def assertNotDuplicate (retired : CompositeIdentityV1) :
    List CompositeIdentityV1 → Except ProtocolError Unit
  | [] => pure ()
  | previous :: rest => do
      let equal ← compositeIdentitiesEqual retired previous
      if equal then throw (.error "Duplicate retired identity")
      else assertNotDuplicate retired rest

def validateRetiredIdentities (identity : CompositeIdentityV1) :
    List CompositeIdentityV1 → List CompositeIdentityV1 → Except ProtocolError Unit
  | _, [] => pure ()
  | earlier, retired :: rest => do
      let _ ← encodeCompositeIdentityV1 retired
      let equal ← compositeIdentitiesEqual identity retired
      if equal then throw (.error "Current identity cannot also be retired")
      else
        assertNotDuplicate retired earlier
        validateRetiredIdentities identity (earlier ++ [retired]) rest

def assertVerifiedAt (record : ContactIdentityRecord) : Except ProtocolError Unit :=
  match record.trustState, record.verifiedAt with
  | .verified, none => throw (.error "A verified identity must include verifiedAt")
  | .verified, some verifiedAt => assertTimestamp verifiedAt "verifiedAt"
  | .unverifiedTofu, some _ => throw (.error "An unverified identity cannot include verifiedAt")
  | .unverifiedTofu, none => pure ()

def assertRevision (revision : ℕ) : Except ProtocolError Unit :=
  if ¬ isSafeInteger revision ∨ revision < 1 then
    throw (.error "Identity revision must be a positive safe integer")
  else pure ()

def validateContactIdentityRecord (record : ContactIdentityRecord) :
    Except ProtocolError Unit := do
  let _ ← encodeCompositeIdentityV1 record.identity
  assertTimestamp record.firstSeenAt "firstSeenAt"
  assertTimestamp record.lastSeenAt "lastSeenAt"
  if record.lastSeenAt < record.firstSeenAt then
    throw (.error "lastSeenAt cannot precede firstSeenAt")
  else
    assertRevision record.revision
    assertVerifiedAt record
    validateRetiredIdentities record.identity [] record.retiredIdentities

def someIdentityEqual (candidate : CompositeIdentityV1) :
    List CompositeIdentityV1 → Except ProtocolError Bool
  | [] => pure false
  | retired :: rest => do
      let equal ← compositeIdentitiesEqual retired candidate
      if equal then pure true else someIdentityEqual candidate rest

def createUnverifiedContactIdentityRecord (identity : CompositeIdentityV1) (now : ℤ) :
    Except ProtocolError ContactIdentityRecord := do
  assertTimestamp now "now"
  let identity ← cloneIdentity identity
  pure {
    identity := identity
    trustState := .unverifiedTofu
    firstSeenAt := now
    lastSeenAt := now
    verifiedAt := none
    revision := 1
    retiredIdentities := [] }

section Commitments

variable (sha256 : Bytes → Bytes)

def deriveIdentityCommitment (identity : CompositeIdentityV1) : Except ProtocolError Bytes := do
  let encoded ← encodeCompositeIdentityV1 identity
  pure (sha256 (domainBytes ++ encoded))

def assertIdentityCommitment (identity : CompositeIdentityV1) (suppliedCommitment : Bytes) :
    Except ProtocolError Unit := do
  let derived ← deriveIdentityCommitment sha256 identity
  if ¬ constantTimeEqual derived suppliedCommitment then
    throw (.error "Supplied identity commitment does not match canonical composite identity")
  else pure ()

def assertSuppliedCommitment (candidate : CompositeIdentityV1) :
    Option Bytes → Except ProtocolError Unit
  | some suppliedCommitment => assertIdentityCommitment sha256 candidate suppliedCommitment
  | none => pure ()

def evaluateContactIdentityCandidate (record : Option ContactIdentityRecord)
    (candidate : CompositeIdentityV1) (suppliedCommitment : Option Bytes) :
    Except ProtocolError IdentityCandidateStatus := do
  let _ ← encodeCompositeIdentityV1 candidate
  assertSuppliedCommitment sha256 candidate suppliedCommitment
  match record with
  | none => pure .new
  | some record =>
    validateContactIdentityRecord record
    let current ← compositeIdentitiesEqual record.identity candidate
    if current then pure .matched
    else
      let retired ← someIdentityEqual candidate record.retiredIdentities
      if retired then pure .rollback else pure .changed

def rotatedRecord (record : ContactIdentityRecord) (candidate : CompositeIdentityV1) (now : ℤ) :
    Except ProtocolError ContactIdentityRecord := do
  let identity ← cloneIdentity candidate
  let retiredIdentities ← record.retiredIdentities.mapM cloneIdentity
  let retired ← cloneIdentity record.identity
  pure {
    identity := identity
    trustState := .unverifiedTofu
    firstSeenAt := now
    lastSeenAt := now
    verifiedAt := none
    revision := record.revision + 1
    retiredIdentities := retiredIdentities ++ [retired] }

def acceptContactIdentityRotation (record : ContactIdentityRecord)
    (candidate : CompositeIdentityV1) (now : ℤ) (suppliedCommitment : Option Bytes) :
    Except ProtocolError ContactIdentityRecord := do
  assertTimestamp now "now"
  let status ← evaluateContactIdentityCandidate sha256 (some record) candidate suppliedCommitment
  if status = .rollback then
    throw (.error "Refusing previously retired identity as a rollback")
  else if status = .matched then pure { record with lastSeenAt := max record.lastSeenAt now }
  else if status ≠ .changed then
    throw (.error
      s!"Identity rotation requires an existing different identity, got {status.text}")
  else rotatedRecord record candidate now

def verifyContactIdentityRecord (record : ContactIdentityRecord) (candidate : CompositeIdentityV1)
    (now : ℤ) (suppliedCommitment : Option Bytes) : Except ProtocolError ContactIdentityRecord := do
  assertTimestamp now "now"
  let status ← evaluateContactIdentityCandidate sha256 (some record) candidate suppliedCommitment
  if status ≠ .matched then
    throw (.error
      s!"Authenticated identity comparison requires the current tuple, got {status.text}")
  else
    pure { record with
      trustState := .verified
      lastSeenAt := max record.lastSeenAt now
      verifiedAt := some now }

inductive ContactCall where
  | evaluate (candidate : CompositeIdentityV1) (suppliedCommitment : Option Bytes)
  | accept (candidate : CompositeIdentityV1) (now : ℤ) (suppliedCommitment : Option Bytes)
  | verify (candidate : CompositeIdentityV1) (now : ℤ) (suppliedCommitment : Option Bytes)

def callRecord (record : ContactIdentityRecord) :
    ContactCall → Except ProtocolError ContactIdentityRecord
  | .evaluate candidate suppliedCommitment => do
      let _ ← evaluateContactIdentityCandidate sha256 (some record) candidate suppliedCommitment
      pure record
  | .accept candidate now suppliedCommitment =>
    acceptContactIdentityRotation sha256 record candidate now suppliedCommitment
  | .verify candidate now suppliedCommitment =>
    verifyContactIdentityRecord sha256 record candidate now suppliedCommitment

/-- A record with what an observer of the calls has seen: the identities that accepted rotations
replaced, and whether a verification succeeded after the last of them. -/
structure Observed where
  record : ContactIdentityRecord
  replaced : List CompositeIdentityV1
  verified : Bool

def Observed.next (observed : Observed) (record : ContactIdentityRecord) : ContactCall → Observed
  | .evaluate _ _ => { observed with record := record }
  | .accept candidate _ _ =>
    if candidate = observed.record.identity then { observed with record := record }
    else ⟨record, observed.replaced ++ [observed.record.identity], false⟩
  | .verify _ _ _ => { observed with record := record, verified := true }

/-- The caller keeps its record when a call throws. -/
def observeCall (observed : Observed) (call : ContactCall) : Observed :=
  match callRecord sha256 observed.record call with
  | .ok record => observed.next record call
  | .error _ => observed

def observeCalls (observed : Observed) (calls : List ContactCall) : Observed :=
  calls.foldl (observeCall sha256) observed

end Commitments

end SignalProtocol.Keys

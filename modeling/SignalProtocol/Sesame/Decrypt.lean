import SignalProtocol.Sesame.Records

/-! # The candidate loop of a decrypt

`SessionCipher.decrypt` tries the sessions of a record until one opens the message. -/

namespace SignalProtocol.Sesame

/-- The codes of an `EncryptionError` that a decrypt looks at or throws by itself. -/
inductive DecryptErrorCode where
  | sessionNotFound
  | invalidCiphertext
  | decryptionFailed
  | messageDuplicate
  | prekeyNotFound
  | identityMismatch
  | untrustedIdentity
  | other (code : String)
  deriving DecidableEq

inductive DecryptError where
  /-- An `EncryptionError`, with the counter and the epoch of its context. -/
  | encryption (code : DecryptErrorCode) (message : String) (counter epoch : Option ℕ)
  /-- `Failed to decrypt message`, with the error that it comes from. -/
  | failed (originalError : DecryptError) (baseKeySessionExists : Option Bool)
  | duplicatedMessage (counter epoch : Option ℕ)
  | error (name message : String)

namespace DecryptError

def code? : DecryptError → Option DecryptErrorCode
  | encryption code _ _ _ => some code
  | failed _ _ => some .decryptionFailed
  | duplicatedMessage _ _ => some .messageDuplicate
  | error _ _ => none

def isReusedBaseKey : DecryptError → Bool
  | error name _ => name == "ReusedBaseKeyError"
  | _ => false

def counter : DecryptError → Option ℕ
  | encryption _ _ counter _ => counter
  | duplicatedMessage counter _ => counter
  | _ => none

def epoch : DecryptError → Option ℕ
  | encryption _ _ _ epoch => epoch
  | duplicatedMessage _ epoch => epoch
  | _ => none

end DecryptError

def encryptionError (code : DecryptErrorCode) (message : String) : DecryptError :=
  .encryption code message none none

structure RemoteAddress where
  userId : String
  deviceId : DeviceId
  deriving DecidableEq

def RemoteAddress.toString (address : RemoteAddress) : String :=
  address.userId ++ ":" ++ Nat.repr address.deviceId

structure PreKeyMessage where
  senderId : String
  senderDeviceId : Option DeviceId
  senderIdentity : IdentityKey
  senderEphemeralKey : BaseKey
  body : String

inductive CipherMessage where
  | ratchet (body : String)
  | preKey (message : PreKeyMessage)

def CipherMessage.isPreKey : CipherMessage → Bool
  | ratchet _ => false
  | preKey _ => true

structure DecryptionCandidate where
  session : SessionState
  baseKey : Option BaseKey
  isActive : Bool

def DecryptionCandidate.archivedBaseKey (candidate : DecryptionCandidate) : Option BaseKey :=
  if candidate.isActive then none else candidate.baseKey.filter (· ≠ "")

def findDecryptingSessions (record : SessionRecord) : List DecryptionCandidate :=
  (record.currentSession.toList.map fun session => ⟨session, none, true⟩) ++
    record.archivedSessions.entries.map fun entry => ⟨entry.2, some entry.1, false⟩

structure MatchingPreKeySession where
  session : SessionState
  archivedBaseKey : Option BaseKey

def findMatchingPreKeySession (record : Option SessionRecord) (message : PreKeyMessage) :
    Option MatchingPreKeySession := do
  let record ← record
  let session ← record.findSession message.senderEphemeralKey
  if session.remoteIdentity = message.senderIdentity then
    some {
      session
      archivedBaseKey :=
        if record.currentSession.map (·.baseKey) = some message.senderEphemeralKey then none
        else some message.senderEphemeralKey }
  else none

def SessionRecord.MAX_ARCHIVED_SESSIONS : ℕ := 40

def SessionRecord.promoteSession (record : SessionRecord) (baseKey : BaseKey) (now : ℤ) :
    Option SessionRecord :=
  (record.archivedSessions.get? baseKey).map fun promoted =>
    let archived :=
      match record.currentSession with
      | some session => insertArchived record.archivedSessions (withoutPendingPreKey session)
      | none => record.archivedSessions
    { currentSession := some promoted
      archivedSessions := archived.erase baseKey
      metadata := { record.metadata with lastUsedAt := some now } }

def withCurrentSession (record : Option SessionRecord) (session : SessionState) : SessionRecord :=
  match record with
  | some record => { record with currentSession := some session }
  | none => { currentSession := some session, archivedSessions := ∅ }

def convergedRecord (record : Option SessionRecord) (used : Option BaseKey) (session : SessionState)
    (now : ℤ) : SessionRecord :=
  match used, record with
  | some baseKey, some existing =>
    match existing.promoteSession baseKey now with
    | some promoted => { promoted with currentSession := some session }
    | none => withCurrentSession record session
  | _, _ => withCurrentSession record session

abbrev DecryptM (ω : Type) := EStateM DecryptError ω

structure StoredSessionRecord where
  version : ℕ
  record : SessionRecord

def CURRENT_SESSION_RECORD_VERSION : ℕ := 4

structure Opened where
  plaintext : String
  session : SessionState
  skipped : Bool

/-- The calls of a decrypt over the states `ω` of everything around it. -/
structure DecryptCalls (ω : Type) where
  getSessionRecord : DecryptM ω (Option StoredSessionRecord)
  deleteSessionRecord : DecryptM ω Unit
  /-- The identity type comes from the session, and is `aci` without one. -/
  isTrustedIdentity (identity : IdentityKey) (session : Option SessionState) : DecryptM ω Bool
  establishSession (message : PreKeyMessage) : DecryptM ω SessionState
  openMessage (message : CipherMessage) (session : SessionState) : DecryptM ω Opened
  commitSessionTrust (message : CipherMessage) (record : SessionRecord) (session : SessionState)
    (plaintext : String) : DecryptM ω Unit
  now : ω → ℤ

structure DecryptCall where
  address : RemoteAddress
  message : CipherMessage
  sessionCandidates : List DecryptionCandidate
  preKeyMatchedExistingSession : Bool
  hadExistingSession : Bool

structure DecryptLoop where
  session : Option SessionState
  existingRecord : Option SessionRecord
  currentCandidateIndex : ℕ
  usedArchivedCandidate : Option BaseKey
  retriedAfterArchive : Bool := false

inductive Candidate where
  | stored (session : SessionState)
  | fresh
  | absent

def DecryptLoop.candidate (call : DecryptCall) (loop : DecryptLoop) : Candidate :=
  match loop.session with
  | some session => .stored session
  | none => if call.message.isPreKey then .fresh else .absent

def DecryptLoop.archiveOnRetry (loop : DecryptLoop) : DecryptLoop :=
  if loop.retriedAfterArchive then
    { loop with
      existingRecord := loop.existingRecord.map fun record =>
        record.archiveCurrent none SessionRecord.MAX_ARCHIVED_SESSIONS
      session := none
      retriedAfterArchive := false }
  else loop

namespace DecryptCalls

variable {ω : Type} (calls : DecryptCalls ω)

def checkTrusted (address : RemoteAddress) (identity : IdentityKey)
    (session : Option SessionState) : DecryptM ω Unit := do
  if !(← calls.isTrustedIdentity identity session) then
    throw (encryptionError .untrustedIdentity
      s!"Untrusted identity for {address.userId}.{address.deviceId}")

def sessionFor (call : DecryptCall) (loop : DecryptLoop) : DecryptM ω SessionState :=
  match loop.session, call.message with
  | some session, _ => pure session
  | none, .preKey message => calls.establishSession message
  | none, .ratchet _ =>
    throw (encryptionError .sessionNotFound s!"No session found for {call.address.toString}")

def attempt (call : DecryptCall) (loop : DecryptLoop) : DecryptM ω String := do
  let session ← calls.sessionFor call loop
  let opened ← calls.openMessage call.message session
  calls.checkTrusted call.address opened.session.remoteIdentity (some opened.session)
  let now ← calls.now <$> get
  let session := withoutPendingPreKey opened.session
  let record :=
    if opened.skipped then withCurrentSession loop.existingRecord session
    else convergedRecord loop.existingRecord loop.usedArchivedCandidate session now
  calls.commitSessionTrust call.message record session opened.plaintext
  return opened.plaintext

/-- The `catch` of an attempt: the next state of the loop, or the error that ends it. -/
def recover (call : DecryptCall) (loop : DecryptLoop) (innerError : DecryptError) :
    Except DecryptError DecryptLoop :=
  if call.message.isPreKey ∧ innerError.isReusedBaseKey then
    throw (.failed innerError (some call.preKeyMatchedExistingSession))
  else if innerError.code? = some .messageDuplicate ∨ innerError.code? = some .prekeyNotFound then
    throw innerError
  else if call.message.isPreKey ∧ call.hadExistingSession ∧ ¬call.preKeyMatchedExistingSession ∧
      ¬loop.retriedAfterArchive then
    return { loop with retriedAfterArchive := true }
  else if call.message.isPreKey then throw innerError
  else
    match call.sessionCandidates[loop.currentCandidateIndex]? with
    | some next =>
      return { loop with
        session := some next.session
        currentCandidateIndex := loop.currentCandidateIndex + 1
        usedArchivedCandidate := next.archivedBaseKey }
    | none => throw innerError

structure Attempt where
  candidate : Candidate
  error : Option DecryptError

inductive LoopEnd where
  | returned (plaintext : String)
  | threw (error : DecryptError)
  | exhausted

structure LoopRun (ω : Type) where
  attempts : List Attempt
  ending : LoopEnd
  world : ω

def decryptLoop (call : DecryptCall) : ℕ → DecryptLoop → ω → LoopRun ω
  | 0, _, world => ⟨[], .exhausted, world⟩
  | left + 1, loop, world =>
    let loop := loop.archiveOnRetry
    match calls.attempt call loop world with
    | .ok plaintext world => ⟨[⟨loop.candidate call, none⟩], .returned plaintext, world⟩
    | .error innerError world =>
      match recover call loop innerError with
      | .error error => ⟨[⟨loop.candidate call, some innerError⟩], .threw error, world⟩
      | .ok next =>
        let rest := decryptLoop call left next world
        { rest with attempts := ⟨loop.candidate call, some innerError⟩ :: rest.attempts }

def maxAttempts (call : DecryptCall) : ℕ :=
  if call.message.isPreKey then 2 else max 1 call.sessionCandidates.length

def loadRecord : DecryptM ω (Option SessionRecord) := do
  match ← calls.getSessionRecord with
  | none => return none
  | some stored =>
    if stored.version = CURRENT_SESSION_RECORD_VERSION then return some stored.record
    else
      calls.deleteSessionRecord
      return none

def senderDeviceId (message : PreKeyMessage) : DecryptM ω DeviceId :=
  match message.senderDeviceId with
  | some deviceId => pure deviceId
  | none =>
    throw (encryptionError .invalidCiphertext
      ("PreKeyMessage missing senderDeviceId - multi-device protocol requires " ++
        "explicit device ID"))

def checkSender (sender address : RemoteAddress) : DecryptM ω Unit :=
  if sender = address then pure ()
  else
    throw (encryptionError .identityMismatch
      (s!"Sender identity mismatch: message from {sender.toString} but expected " ++
        s!"{address.toString}. This may indicate a session hijacking attempt."))

def selectPreKey (address : RemoteAddress) (message : PreKeyMessage)
    (existingRecord : Option SessionRecord) : DecryptM ω (DecryptCall × DecryptLoop) := do
  let deviceId ← senderDeviceId message
  checkSender ⟨message.senderId, deviceId⟩ address
  -- A session of another identity is useless: the sender installed its app again.
  let session := (existingRecord.bind (·.currentSession)).filter fun session =>
    session.remoteIdentity = message.senderIdentity
  calls.checkTrusted address message.senderIdentity none
  let found := findMatchingPreKeySession existingRecord message
  let session := (found.map (·.session)).or session
  return (
    { address
      message := .preKey message
      sessionCandidates := []
      preKeyMatchedExistingSession := found.isSome
      hadExistingSession := session.isSome },
    { session
      existingRecord
      currentCandidateIndex := if (existingRecord.bind (·.currentSession)).isSome then 1 else 0
      usedArchivedCandidate := found.bind (·.archivedBaseKey) })

/-- A message of a ratchet starts with the first candidate, which is the current session where
there is one. -/
def selectRatchet (address : RemoteAddress) (body : String)
    (existingRecord : Option SessionRecord) : DecryptCall × DecryptLoop :=
  let sessionCandidates := existingRecord.elim [] findDecryptingSessions
  let first := sessionCandidates.head?
  ({  address
      message := .ratchet body
      sessionCandidates
      preKeyMatchedExistingSession := false
      hadExistingSession := first.isSome },
    { session := first.map (·.session)
      existingRecord
      currentCandidateIndex := if first.isSome then 1 else 0
      usedArchivedCandidate := first.bind (·.archivedBaseKey) })

def selectSession (address : RemoteAddress) (existingRecord : Option SessionRecord) :
    CipherMessage → DecryptM ω (DecryptCall × DecryptLoop)
  | .ratchet body => return selectRatchet address body existingRecord
  | .preKey message => calls.selectPreKey address message existingRecord

def reported (error : DecryptError) : DecryptError :=
  if error.code? = some .messageDuplicate then .duplicatedMessage error.counter error.epoch
  else if error.code?.isSome then error
  else .failed error none

def LoopEnd.result : LoopEnd → Except DecryptError String
  | returned plaintext => .ok plaintext
  | threw error => .error (reported error)
  | exhausted =>
    .error (reported (encryptionError .decryptionFailed "Unexpected end of decrypt retry loop"))

structure DecryptRun (ω : Type) where
  record : Option SessionRecord := none
  attempts : List Attempt := []
  ending : Option LoopEnd := none
  result : Except DecryptError String
  world : ω

def decrypt (address : RemoteAddress) (message : CipherMessage) (world : ω) : DecryptRun ω :=
  match calls.loadRecord world with
  | .error error world => { result := .error (reported error), world }
  | .ok record world =>
    match calls.selectSession address record message world with
    | .error error world => { record, result := .error (reported error), world }
    | .ok (call, loop) world =>
      let run := calls.decryptLoop call (maxAttempts call) loop world
      { record
        attempts := run.attempts
        ending := some run.ending
        result := run.ending.result
        world := run.world }

end DecryptCalls

end SignalProtocol.Sesame

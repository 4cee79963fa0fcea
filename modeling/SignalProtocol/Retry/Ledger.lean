import SignalProtocol.Basic
import SignalProtocol.Library.Triple

/-! # Processed envelopes and retry requests

The records that the receive paths read and write for a failed envelope: its processed record with
the index that prunes it, its retry request, and the family index from a retry ID to it. -/

namespace SignalProtocol.Retry

abbrev EnvelopeId := String
abbrev RetryId := String
abbrev Fingerprint := String

def DAY_MS : ℤ := 24 * 60 * 60 * 1000

def RELIABILITY_RECORD_TTL_MS : ℤ := 30 * DAY_MS

def RETRY_REQUESTER_RECORD_TTL_MS : ℤ := 2 * RELIABILITY_RECORD_TTL_MS

def dayFor (timestamp : ℤ) : ℤ := timestamp / DAY_MS

inductive MemberKind where
  | retryRequest
  | resend
  | null
  deriving DecidableEq

structure RetryFamilyMember where
  retryId : RetryId
  kind : MemberKind
  attempt : ℕ
  deriving DecidableEq

def isLowerHex (char : Char) : Bool :=
  ('0' ≤ char && char ≤ '9') || ('a' ≤ char && char ≤ 'f')

def isRetryId (value : List Char) : Bool :=
  (value.splitOn '-').map List.length == [8, 4, 4, 4, 12] &&
    (value.splitOn '-').all fun part => part.all isLowerHex

def memberKind (name : List Char) : Option MemberKind :=
  if name = "retry-request".toList then some .retryRequest
  else if name = "resend".toList then some .resend
  else if name = "null".toList then some .null
  else none

def memberAttempt (number : List Char) : Option ℕ :=
  if number.head? = some '0' || number.any fun char => !char.isDigit then none
  else
    some (number.foldl (fun attempt digit => 10 * attempt + (digit.toNat - '0'.toNat)) 0)
      |>.filter fun attempt => 2 ≤ attempt

def retryFamilyMember (envelopeId : EnvelopeId) : Option RetryFamilyMember :=
  match envelopeId.toList.splitOn ':' with
  | [retryId, kind] =>
    if isRetryId retryId then
      (memberKind kind).map fun kind => { retryId := .ofList retryId, kind, attempt := 1 }
    else none
  | [retryId, kind, number] =>
    if isRetryId retryId then do
      let kind ← memberKind kind
      let attempt ← memberAttempt number
      return { retryId := .ofList retryId, kind, attempt }
    else none
  | _ => none

structure RequestedSender where
  userId : String
  deviceId : ℕ
  deriving DecidableEq

inductive ProcessedEnvelopeOutcome where
  | denied
  | expired
  deriving DecidableEq

structure ProcessedEnvelope where
  processedAt : ℤ
  fingerprint : Option Fingerprint := none
  fulfilled : Bool := false
  completed : Bool := false
  outcome : Option ProcessedEnvelopeOutcome := none
  deriving DecidableEq

structure ProcessedEnvelopeWrite where
  envelopeId : EnvelopeId
  fingerprint : Option Fingerprint := none
  fulfilled : Bool := false
  completed : Bool := false
  outcome : Option ProcessedEnvelopeOutcome := none

inductive RetryFailureClass where
  | transportOutage
  | rateRefusal
  deriving DecidableEq

structure StoredRetryRequest where
  failedEnvelopeId : EnvelopeId
  retryId : RetryId
  attempt : ℕ
  requestedAt : ℤ
  fingerprint : Option Fingerprint := none
  answered : Bool := false
  groupMessage : Bool := false
  groupId : Option String := none
  receivedAt : Option ℤ := none
  failedSender : Option RequestedSender := none
  errorShown : Bool := false
  recoveredEmitted : Bool := false
  nextAttemptAt : Option ℤ := none
  lastFailureClass : Option RetryFailureClass := none
  target : Option RequestedSender := none
  deriving DecidableEq

structure RetryFamilyEntry where
  failedEnvelopeId : EnvelopeId
  indexedAt : ℤ

structure RetryStore where
  processed : EnvelopeId → Option ProcessedEnvelope
  incoming : List (ℤ × EnvelopeId)
  requests : EnvelopeId → Option StoredRetryRequest
  families : RetryId → Option RetryFamilyEntry

namespace RetryStore

def empty : RetryStore where
  processed := fun _ => none
  incoming := []
  requests := fun _ => none
  families := fun _ => none

end RetryStore

def processedEnvelopeTtl (record : ProcessedEnvelope) : ℤ :=
  if record.fulfilled || record.completed then RETRY_REQUESTER_RECORD_TTL_MS
  else RELIABILITY_RECORD_TTL_MS

def processedEnvelopeIndexTime (record : ProcessedEnvelope) : ℤ :=
  record.processedAt + processedEnvelopeTtl record - RELIABILITY_RECORD_TTL_MS

namespace RetryStore

variable (store : RetryStore)

def getProcessedEnvelope (envelopeId : EnvelopeId) (now : ℤ) : Option ProcessedEnvelope :=
  (store.processed envelopeId).filter fun record =>
    decide (now - processedEnvelopeTtl record ≤ record.processedAt)

def pruneExpiredBuckets (now : ℤ) : RetryStore :=
  let firstRetainedDay := dayFor (now - RELIABILITY_RECORD_TTL_MS)
  { store with
    processed := fun envelopeId =>
      if store.incoming.any fun entry => entry.2 == envelopeId && decide (entry.1 < firstRetainedDay)
      then none
      else store.processed envelopeId
    incoming := store.incoming.filter fun entry => decide (firstRetainedDay ≤ entry.1) }

def indexRecord (envelopeId : EnvelopeId) (timestamp : ℤ) : RetryStore :=
  if (dayFor timestamp, envelopeId) ∈ store.incoming then store
  else { store with incoming := store.incoming ++ [(dayFor timestamp, envelopeId)] }

def unindexRecord (envelopeId : EnvelopeId) (timestamp : ℤ) : RetryStore :=
  { store with
    incoming := store.incoming.filter fun entry => entry != (dayFor timestamp, envelopeId) }

def processedRecord (processedAt : ℤ) (write : ProcessedEnvelopeWrite) : ProcessedEnvelope :=
  let current := store.getProcessedEnvelope write.envelopeId processedAt
  { processedAt
    fingerprint := write.fingerprint.or (current.bind (·.fingerprint))
    fulfilled := write.fulfilled || current.any (·.fulfilled)
    completed := write.completed || current.any (·.completed)
    outcome := write.outcome.or (current.bind (·.outcome)) }

def writeProcessedEnvelope (processedAt : ℤ) (write : ProcessedEnvelopeWrite) : RetryStore :=
  let record := store.processedRecord processedAt write
  let indexTime := processedEnvelopeIndexTime record
  let pruned := store.pruneExpiredBuckets processedAt
  let stored := { pruned with processed := Function.update pruned.processed write.envelopeId record }
  let indexed := stored.indexRecord write.envelopeId indexTime
  match store.processed write.envelopeId with
  | none => indexed
  | some existing =>
    -- The bucket of the earlier record would prune the new record early.
    if dayFor (processedEnvelopeIndexTime existing) ≠ dayFor indexTime then
      indexed.unindexRecord write.envelopeId (processedEnvelopeIndexTime existing)
    else indexed

def getRetryFamily (retryId : RetryId) (now : ℤ) : Option EnvelopeId :=
  ((store.families retryId).filter fun entry =>
    decide (now - RETRY_REQUESTER_RECORD_TTL_MS ≤ entry.indexedAt)).map (·.failedEnvelopeId)

def getRetryRequest (failedEnvelopeId : EnvelopeId) (now : ℤ) : Option StoredRetryRequest :=
  (store.requests failedEnvelopeId).filter fun record =>
    decide (now - RETRY_REQUESTER_RECORD_TTL_MS ≤ record.requestedAt)

def setRetryRequest (failedEnvelopeId : EnvelopeId) (record : StoredRetryRequest) : RetryStore :=
  { store with requests := Function.update store.requests failedEnvelopeId record }

def markRetryRequestAnswered (failedEnvelopeId : EnvelopeId) (retryId : RetryId) (attempt : ℕ)
    (now : ℤ) : RetryStore :=
  match store.getRetryRequest failedEnvelopeId now with
  | none => store
  | some record =>
    if record.retryId ≠ retryId ∨ record.answered ∨ record.attempt ≠ attempt then store
    else
      store.setRetryRequest failedEnvelopeId
        { record with answered := true, nextAttemptAt := none, lastFailureClass := none }

def updateRetryRequest (failedEnvelopeId : EnvelopeId) (retryId : RetryId) (attempt : ℕ)
    (changes : StoredRetryRequest → StoredRetryRequest) (now : ℤ) :
    Option StoredRetryRequest × RetryStore :=
  match store.getRetryRequest failedEnvelopeId now with
  | none => (none, store)
  | some record =>
    if record.retryId ≠ retryId ∨ record.attempt ≠ attempt then (none, store)
    else (some (changes record), store.setRetryRequest failedEnvelopeId (changes record))

def storeRetryRequest (request : StoredRetryRequest) : RetryStore :=
  let entry := { failedEnvelopeId := request.failedEnvelopeId, indexedAt := request.requestedAt }
  let indexed :=
    if request.target.isSome then
      { store with families := Function.update store.families request.retryId (some entry) }
    else store
  indexed.setRetryRequest request.failedEnvelopeId request

end RetryStore

structure ResolvedRetryFamilyMember where
  retryId : RetryId
  failedEnvelopeId : EnvelopeId
  kind : MemberKind
  attempt : ℕ

def RetryStore.resolveRetryFamilyMember (store : RetryStore) (envelopeId : EnvelopeId) (now : ℤ) :
    Option ResolvedRetryFamilyMember := do
  let member ← retryFamilyMember envelopeId
  if member.kind = .retryRequest then none
  else
    let failedEnvelopeId ← store.getRetryFamily member.retryId now
    return {
      retryId := member.retryId
      failedEnvelopeId
      kind := member.kind
      attempt := member.attempt }

/-! ## The IDs of a retry family

The client message IDs that one retry ID derives: the retry request, the content resend and the
null message, each with its attempts. `retryFamilyMember` reads them back. -/

def MAX_SAFE_INTEGER : ℕ := 2 ^ 53 - 1

def retryRequestClientMessageId (retryId : RetryId) : EnvelopeId := retryId ++ ":retry-request"

def retryResendClientMessageId (retryId : RetryId) : EnvelopeId := retryId ++ ":resend"

def retryNullMessageClientMessageId (retryId : RetryId) : EnvelopeId := retryId ++ ":null"

/-- Attempt 1 posts under the given ID, and attempt `n` under `<id>:<n>`. -/
def retryAttemptClientMessageId (id : EnvelopeId) (attempt : ℕ) : Except String EnvelopeId :=
  if MAX_SAFE_INTEGER < attempt ∨ attempt < 1 then .error "A retry attempt is a positive integer"
  else .ok (if attempt = 1 then id else id ++ ":" ++ toString attempt)

def MemberKind.clientMessageId : MemberKind → RetryId → EnvelopeId
  | .retryRequest => retryRequestClientMessageId
  | .resend => retryResendClientMessageId
  | .null => retryNullMessageClientMessageId

def RetryFamilyMember.clientMessageId (member : RetryFamilyMember) : Except String EnvelopeId :=
  retryAttemptClientMessageId (member.kind.clientMessageId member.retryId) member.attempt

end SignalProtocol.Retry

/-! ## Receiving in a retry family

The receive of one envelope under the lock of its failed envelope. -/

namespace SignalProtocol.Retry

open Results

structure FamilyRun where
  store : RetryStore
  clock : List ℤ

inductive ReceiveStopped where
  | stopped

abbrev RetryM := EStateM ReceiveStopped FamilyRun

def atStore {α : Type} (operation : ℤ → RetryStore → α × RetryStore) : RetryM α := fun run =>
  match run.clock with
  | [] => .error .stopped run
  | now :: clock =>
    .ok (operation now run.store).1 { store := (operation now run.store).2, clock }

def readStore {α : Type} (read : ℤ → RetryStore → α) : RetryM α :=
  atStore fun now store => (read now store, store)

def writeStore (write : ℤ → RetryStore → RetryStore) : RetryM PUnit :=
  atStore fun now store => (⟨⟩, write now store)

def readProcessedEnvelope (envelopeId : EnvelopeId) : RetryM (Option ProcessedEnvelope) :=
  readStore fun now store => store.getProcessedEnvelope envelopeId now

def readRetryRequest (failedEnvelopeId : EnvelopeId) : RetryM (Option StoredRetryRequest) :=
  readStore fun now store => store.getRetryRequest failedEnvelopeId now

def storeProcessedEnvelope (envelopeId : EnvelopeId) (fingerprint : Option Fingerprint := none)
    (fulfilled : Bool := false) : RetryM PUnit :=
  writeStore fun now store => store.writeProcessedEnvelope now { envelopeId, fingerprint, fulfilled }

structure EnvelopeSender where
  userId : Option String
  deviceId : Option ℕ

def EnvelopeSender.is (sender : EnvelopeSender) (requested : RequestedSender) : Bool :=
  sender.userId == some requested.userId && sender.deviceId == some requested.deviceId

structure DeliveredEnvelope where
  id : Option EnvelopeId
  clientMessageId : Option EnvelopeId := none
  sender : EnvelopeSender
  /-- Whether the message type is `unidentified_sender`. -/
  sealedSender : Bool := false

structure DecryptedContent where
  senderKeyDistribution : Bool
  content : Bool
  groupId : Option String := none

inductive RetryRequestOutcome where
  | posted
  | waiting
  | terminal
  | pending
  | owned
  | deferred
  | skipped
  deriving DecidableEq

structure RetryPost where
  outcome : RetryRequestOutcome
  request : Option StoredRetryRequest := none

def RetryPost.run (post : RetryPost) (failedEnvelopeId : EnvelopeId) :
    RetryM RetryRequestOutcome := do
  match post.request with
  | none => pure post.outcome
  | some request => do
      writeStore fun _ store => store.storeRetryRequest { request with failedEnvelopeId }
      pure post.outcome

/-! ## The receive of one envelope -/

structure RetryFamilyReceive where
  delivered : DeliveredEnvelope
  requested : Option RequestedSender
  member : Option ResolvedRetryFamilyMember
  failedEnvelopeId : Option EnvelopeId
  /-- The record of the failed envelope, which `admitEnvelope` reads before the decrypt. -/
  request : Option StoredRetryRequest := none
  ownRequest : Option StoredRetryRequest := none
  senderBound : Bool := false
  boundSender : Option EnvelopeSender := none
  receivedFingerprint : Option Fingerprint := none
  /-- Whether the answered mark of a sealed member waits for its sender. -/
  answerDue : Bool := false

def requestedSenderOf (request : Option StoredRetryRequest) : Option RequestedSender :=
  request.bind (·.target)

def reportDeliveryRecovered (failedEnvelopeId : EnvelopeId) : RetryM PUnit := do
  match ← readRetryRequest failedEnvelopeId with
  | none => pure ⟨⟩
  | some record =>
    if !record.errorShown || record.recoveredEmitted || record.receivedAt.isNone ||
        record.failedSender.isNone then
      pure ⟨⟩
    else do
      let processed ← readProcessedEnvelope failedEnvelopeId
      if !processed.any (·.completed) then pure ⟨⟩
      else
        writeStore fun now store =>
          (store.updateRetryRequest failedEnvelopeId record.retryId record.attempt
            (fun record => { record with recoveredEmitted := true }) now).2

def readRequestedSender : Option ResolvedRetryFamilyMember → RetryM (Option RequestedSender)
  | none => pure none
  | some member => do
      let request ← readRetryRequest member.failedEnvelopeId
      pure (requestedSenderOf request)

def openRetryFamily (delivered : DeliveredEnvelope) : RetryM RetryFamilyReceive := do
  match delivered.id with
  | none => pure { delivered, requested := none, member := none, failedEnvelopeId := none }
  | some envelopeId => do
      let member ← readStore fun now store =>
        store.resolveRetryFamilyMember (delivered.clientMessageId.getD envelopeId) now
      let failedEnvelopeId := member.elim envelopeId (·.failedEnvelopeId)
      reportDeliveryRecovered failedEnvelopeId
      let requested ← readRequestedSender member
      pure { delivered, requested, member, failedEnvelopeId := some failedEnvelopeId }

namespace RetryFamilyReceive

variable (family : RetryFamilyReceive)

def bindSender (sender : EnvelopeSender) : RetryFamilyReceive :=
  let bound := { family with boundSender := some sender }
  if family.member.isNone then bound
  else if family.requested.any sender.is then { bound with senderBound := true }
  else
    { bound with
      member := none
      failedEnvelopeId := family.delivered.id
      request := family.ownRequest
      senderBound := false
      answerDue := false }

/-- Whether the envelope is the failed envelope of `request`, the record of its own ID. -/
def isFailedEnvelope : Bool :=
  match family.request, family.boundSender with
  | some request, some sender =>
    request.fingerprint.isSome && request.fingerprint == family.receivedFingerprint &&
      (request.failedSender.or (requestedSenderOf family.request)).any sender.is
  | _, _ => false

def markAnswered : RetryM RetryFamilyReceive := do
  match family.member, family.failedEnvelopeId with
  | some member, some failedEnvelopeId =>
    if !family.answerDue then pure family
    else do
      writeStore fun now store =>
        store.markRetryRequestAnswered failedEnvelopeId member.retryId member.attempt now
      pure { family with answerDue := false }
  | _, _ => pure family

def named (fingerprint : Option Fingerprint) : RetryFamilyReceive :=
  let named := { family with receivedFingerprint := fingerprint }
  if !family.delivered.sealedSender && family.delivered.sender.userId.any (· ≠ "") then
    named.bindSender family.delivered.sender
  else named

def processedBefore : RetryM Bool := do
  match family.delivered.id with
  | none => pure false
  | some envelopeId => do
      let processed ← readProcessedEnvelope envelopeId
      pure processed.isSome

def fulfilledBefore : RetryM Bool := do
  match family.member, family.failedEnvelopeId with
  | some _, some failedEnvelopeId => do
      let processed ← readProcessedEnvelope failedEnvelopeId
      pure (processed.any (·.fulfilled))
  | _, _ => pure false

def markArrival : RetryM RetryFamilyReceive := do
  match family.member, family.failedEnvelopeId with
  | some member, some failedEnvelopeId =>
    if family.senderBound then do
      writeStore fun now store =>
        store.markRetryRequestAnswered failedEnvelopeId member.retryId member.attempt now
      pure family
    else
      match family.delivered.id with
      | none => pure family
      | some envelopeId => do
          let ownRequest ← readRetryRequest envelopeId
          pure { family with answerDue := true, ownRequest }
  | _, _ => pure family

def readRequest : RetryM RetryFamilyReceive := do
  match family.failedEnvelopeId with
  | none => pure family
  | some failedEnvelopeId => do
      let request ← readRetryRequest failedEnvelopeId
      pure { family with request }

def admitNamed : RetryM (Bool × RetryFamilyReceive) := do
  if ← family.processedBefore then pure (false, family)
  else if ← family.fulfilledBefore then pure (false, family)
  else do
    let arrived ← family.markArrival
    let read ← arrived.readRequest
    pure (true, read)

def admitEnvelope (fingerprint : Option Fingerprint) : RetryM (Bool × RetryFamilyReceive) := do
  if family.failedEnvelopeId.isNone then pure (true, family)
  else (family.named fingerprint).admitNamed

def givesSenderKeyOnly (decrypted : DecryptedContent) : Bool :=
  family.member.isSome && family.request.any (·.groupMessage) &&
    decrypted.senderKeyDistribution && !decrypted.content

def fulfills (decrypted : DecryptedContent) : Option EnvelopeId :=
  if family.member.isSome && !family.senderBound then none
  else if family.givesSenderKeyOnly decrypted then none
  else if family.member.isSome || family.isFailedEnvelope then family.failedEnvelopeId
  else none

def recordGroup (failedEnvelopeId : EnvelopeId) (decrypted : DecryptedContent) : RetryM PUnit := do
  match family.request, decrypted.groupId with
  | some request, some groupId =>
    if request.groupId.isSome then pure ⟨⟩
    else
      writeStore fun now store =>
        (store.updateRetryRequest failedEnvelopeId request.retryId request.attempt
          (fun record => { record with groupId := some groupId }) now).2
  | _, _ => pure ⟨⟩

def fulfill (decrypted : DecryptedContent) : RetryM PUnit := do
  if family.member.isSome && !family.senderBound then pure ⟨⟩
  else do
    let marked ← family.markAnswered
    match marked.fulfills decrypted with
    | none => pure ⟨⟩
    | some failedEnvelopeId => do
        marked.recordGroup failedEnvelopeId decrypted
        storeProcessedEnvelope failedEnvelopeId none true

def consumeFailed : RetryM PUnit := do
  match family.member with
  | none => pure ⟨⟩
  | some member =>
    if family.senderBound then do
      let _ ← family.markAnswered
      storeProcessedEnvelope member.failedEnvelopeId
    else pure ⟨⟩

def consumeNull (fingerprint : Option Fingerprint) : RetryM PUnit := do
  family.consumeFailed
  match family.delivered.id with
  | none => pure ⟨⟩
  | some envelopeId => storeProcessedEnvelope envelopeId fingerprint

def recordPosted (outcome : RetryRequestOutcome) (fingerprint : Option Fingerprint) :
    RetryM PUnit := do
  match family.delivered.id with
  | none => pure ⟨⟩
  | some envelopeId =>
    if outcome = .posted ∨ outcome = .waiting ∨ outcome = .terminal then
      storeProcessedEnvelope envelopeId fingerprint
    else pure ⟨⟩

def requestRetry (fingerprint : Option Fingerprint) (post : RetryPost) :
    RetryM RetryRequestOutcome := do
  match family.failedEnvelopeId with
  | none => pure post.outcome
  | some failedEnvelopeId =>
    if family.member.isNone then do
      let stored ← readRetryRequest failedEnvelopeId
      -- The Relay changed an envelope after its retry request.
      if stored.any fun record => fingerprint.isSome && fingerprint != record.fingerprint then
        pure .skipped
      else post.run failedEnvelopeId
    else do
      let _ ← family.markAnswered
      let _ ← readRetryRequest failedEnvelopeId
      let outcome ← post.run failedEnvelopeId
      family.recordPosted outcome fingerprint
      pure outcome

end RetryFamilyReceive

inductive Opened where
  | notCommitted
  | failed (post : RetryPost)
  | nullMessage
  | content (decrypted : DecryptedContent)

structure Delivery where
  envelope : DeliveredEnvelope
  fingerprint : Option Fingerprint
  /-- The sender inside the seal. A seal that does not open names none. -/
  unsealedSender : Option EnvelopeSender := none
  opened : Opened

namespace Delivery

variable (delivery : Delivery)

def sender : Option EnvelopeSender :=
  if delivery.envelope.sealedSender then delivery.unsealedSender
  else some delivery.envelope.sender

def admitInFamily : RetryM (Bool × RetryFamilyReceive) := do
  let family ← openRetryFamily delivery.envelope
  family.admitEnvelope delivery.fingerprint

def bind (family : RetryFamilyReceive) : RetryFamilyReceive :=
  delivery.sender.elim family family.bindSender

def afterDecrypt (family : RetryFamilyReceive) : RetryM PUnit := do
  match delivery.opened with
  | .notCommitted => pure ⟨⟩
  | .failed post => do
      let _ ← family.requestRetry delivery.fingerprint post
  | .nullMessage => family.consumeNull delivery.fingerprint
  | .content decrypted => family.fulfill decrypted

def receiveInRetryFamily : RetryM PUnit := do
  let admitted ← delivery.admitInFamily
  if admitted.1 then delivery.afterDecrypt (delivery.bind admitted.2)
  else pure ⟨⟩

end Delivery

inductive FamilyEvent where
  | deliver (delivery : Delivery) (clock : List ℤ)
  | processed (write : ProcessedEnvelopeWrite) (now : ℤ)
  | request (request : StoredRetryRequest)
  | updated (failedEnvelopeId : EnvelopeId) (request : StoredRetryRequest)

namespace FamilyEvent

def readings : FamilyEvent → List ℤ
  | deliver _ clock => clock
  | processed _ now => [now]
  | request _ => []
  | updated _ _ => []

end FamilyEvent

def RetryStore.step (store : RetryStore) : FamilyEvent → RetryStore
  | .deliver delivery clock => (finalState (delivery.receiveInRetryFamily { store, clock })).store
  | .processed write now => store.writeProcessedEnvelope now write
  | .request request => store.storeRetryRequest request
  | .updated failedEnvelopeId request => store.setRetryRequest failedEnvelopeId request

def RetryStore.run (store : RetryStore) (events : List FamilyEvent) : RetryStore :=
  events.foldl RetryStore.step store

end SignalProtocol.Retry

import Mathlib.Data.List.Sort
import SignalProtocol.Outbox.Intent
import SignalProtocol.Outbox.SendTimestamps

/-! # The buckets of a ledger

Each kind of ledger record has one index: a bucket of record IDs for each day, and a manifest of the
days. -/

namespace SignalProtocol.Ledger

open Retry (dayFor RELIABILITY_RECORD_TTL_MS)

structure KindLedger (Record : Type) where
  records : String → Option Record := fun _ => none
  buckets : ℤ → List String := fun _ => []
  manifest : List ℤ := []

def sortedDays (days : List ℤ) : List ℤ := days.insertionSort (· ≤ ·)

namespace KindLedger

variable {Record : Type} (ledger : KindLedger Record)

def setRecord (id : String) (record : Record) : KindLedger Record :=
  { ledger with records := Function.update ledger.records id (some record) }

def deleteRecord (id : String) : KindLedger Record :=
  { ledger with records := Function.update ledger.records id none }

def addToBucket (day : ℤ) (id : String) : KindLedger Record :=
  { ledger with
    buckets := Function.update ledger.buckets day
      (if id ∈ ledger.buckets day then ledger.buckets day else ledger.buckets day ++ [id]) }

def deleteBucket (day : ℤ) : KindLedger Record :=
  { ledger with buckets := Function.update ledger.buckets day [] }

def setManifest (days : List ℤ) : KindLedger Record := { ledger with manifest := days }

def indexRecord (id : String) (timestamp : ℤ) (retainedDays : List ℤ) : KindLedger Record :=
  let day := dayFor timestamp
  (ledger.addToBucket day id).setManifest
    (if day ∈ retainedDays then retainedDays else sortedDays (retainedDays ++ [day]))

def unindexRecord (id : String) (timestamp : ℤ) : KindLedger Record :=
  let day := dayFor timestamp
  let ids := (ledger.buckets day).filter (· ≠ id)
  { ledger with
    buckets := Function.update ledger.buckets day ids
    manifest := if ids = [] then ledger.manifest.filter (· ≠ day) else ledger.manifest }

end KindLedger

structure Expiry (Record : Type) where
  ttl : ℤ
  time : Record → ℤ
  /-- Whether a prune keeps the records of an expired bucket that later writes retain. -/
  keeps : Bool := false
  sound : keeps = true → ttl = RELIABILITY_RECORD_TTL_MS := by rintro ⟨⟩

structure Pruning (Record : Type) where
  ledger : KindLedger Record
  manifest : List ℤ

namespace Pruning

variable {Record : Type} (expiry : Expiry Record) (now : ℤ) (pruning : Pruning Record)

def keepOutgoingIntent (id : String) : Option (Pruning Record) :=
  match pruning.ledger.records id with
  | none => none
  | some record =>
    if expiry.time record < now - RELIABILITY_RECORD_TTL_MS then none
    else
      let day := dayFor (expiry.time record)
      let listed := pruning.ledger.addToBucket day id
      if day ∈ pruning.manifest then some { pruning with ledger := listed }
      else
        let manifest := pruning.manifest ++ [day]
        some { ledger := listed.setManifest (sortedDays manifest), manifest }

def pruneRecord (id : String) : Pruning Record :=
  match if expiry.keeps then pruning.keepOutgoingIntent expiry now id else none with
  | some kept => kept
  | none => { pruning with ledger := pruning.ledger.deleteRecord id }

def firstRetainedDay : ℤ := dayFor (now - expiry.ttl)

def pruneDay (day : ℤ) : Pruning Record :=
  if firstRetainedDay expiry now ≤ day then pruning
  else
    let pruned := (pruning.ledger.buckets day).foldl (pruneRecord expiry now) pruning
    { pruned with ledger := pruned.ledger.deleteBucket day }

end Pruning

namespace KindLedger

variable {Record : Type} (expiry : Expiry Record) (now : ℤ) (ledger : KindLedger Record)

def prune : Pruning Record :=
  ledger.manifest.foldl (Pruning.pruneDay expiry now) ⟨ledger, ledger.manifest⟩

def pruneExpiredBuckets : KindLedger Record × List ℤ :=
  ((ledger.prune expiry now).ledger, sortedDays ((ledger.prune expiry now).manifest.filter
      (Pruning.firstRetainedDay expiry now ≤ ·)))

def writeRecord (id : String) (record : Record) : KindLedger Record :=
  let pruned := ledger.pruneExpiredBuckets expiry now
  (pruned.1.setRecord id record).indexRecord id (expiry.time record) pruned.2

/-- Write a record that replaces an earlier one. The bucket of the replaced record would prune the
new one early. -/
def replaceRecord (id : String) (record : Record) : KindLedger Record :=
  let written := ledger.writeRecord expiry now id record
  match ledger.records id with
  | none => written
  | some replaced =>
    if dayFor (expiry.time replaced) ≠ dayFor (expiry.time record) then
      written.unindexRecord id (expiry.time replaced)
    else written

def moveRecord (id : String) (record : Record) (earlier : ℤ) : KindLedger Record :=
  let pruned := (ledger.setRecord id record).pruneExpiredBuckets expiry now
  let indexed := pruned.1.indexRecord id (expiry.time record) pruned.2
  if dayFor (expiry.time record) ≠ dayFor earlier then indexed.unindexRecord id earlier
  else indexed

end KindLedger

/-! ## The reliability ledger

The records of the ledger by kind, with the writes of each kind. The writes of the ledger run one
after another. What a write reads of other keys, such as the pending markers of send timestamps, is
given. -/

open Retry Outbox

inductive LedgerKind where
  | outbox
  | incoming
  | retryRequested
  | retryFamily
  | retryResend
  | sentTimestamp
  | deliveryStatus
  | receivedTimestamp
  deriving DecidableEq

structure OutboxRecord where
  intent : TimestampedIntent
  /-- The fields that the deliveries of the intent rewrite, as JSON text. -/
  progress : JsonText := ""

inductive RetryResendState where
  | stored (operationEpochMilliseconds : ℤ)
  | terminal (at_ : ℤ)

structure RetryResendRecord where
  retryId : RetryId
  requestEnvelopeId : EnvelopeId
  attempt : ℕ
  state : RetryResendState

def retryResendTime (record : RetryResendRecord) : ℤ :=
  match record.state with
  | .stored operationEpochMilliseconds => operationEpochMilliseconds
  | .terminal at_ => at_

def retryRequestAttempt (record : RetryResendRecord) : Option ℕ :=
  (retryFamilyMember record.requestEnvelopeId).bind fun member =>
    if member.kind = .retryRequest ∧ member.retryId = record.retryId then some member.attempt
    else none

structure SentTimestampEntry where
  clientMessageIds : List ClientMessageId
  indexedAt : ℤ

structure DeliveryStatus where
  createdAt : ℤ
  devices : JsonText

structure ReceivedTimestamp where
  receivedAt : ℤ

abbrev LedgerRecord : LedgerKind → Type
  | .outbox => OutboxRecord
  | .incoming => ProcessedEnvelope
  | .retryRequested => StoredRetryRequest
  | .retryFamily => RetryFamilyEntry
  | .retryResend => RetryResendRecord
  | .sentTimestamp => SentTimestampEntry
  | .deliveryStatus => DeliveryStatus
  | .receivedTimestamp => ReceivedTimestamp

def expiryOf : (kind : LedgerKind) → Expiry (LedgerRecord kind)
  | .outbox =>
    { ttl := RELIABILITY_RECORD_TTL_MS
      time := fun record => outgoingIntentRetainedFrom record.intent
      keeps := true
      sound := fun _ => rfl }
  | .incoming => { ttl := RELIABILITY_RECORD_TTL_MS, time := processedEnvelopeIndexTime }
  | .retryRequested =>
    { ttl := RETRY_REQUESTER_RECORD_TTL_MS, time := StoredRetryRequest.requestedAt }
  | .retryFamily => { ttl := RETRY_REQUESTER_RECORD_TTL_MS, time := RetryFamilyEntry.indexedAt }
  | .retryResend => { ttl := RELIABILITY_RECORD_TTL_MS, time := retryResendTime }
  | .sentTimestamp => { ttl := RELIABILITY_RECORD_TTL_MS, time := SentTimestampEntry.indexedAt }
  | .deliveryStatus => { ttl := RELIABILITY_RECORD_TTL_MS, time := DeliveryStatus.createdAt }
  | .receivedTimestamp =>
    { ttl := RETRY_REQUESTER_RECORD_TTL_MS, time := ReceivedTimestamp.receivedAt }

abbrev LedgerStore := (kind : LedgerKind) → KindLedger (LedgerRecord kind)

def emptyLedger : LedgerStore := fun _ => {}

namespace LedgerStore

variable (store : LedgerStore)

def with_ (kind : LedgerKind) (ledger : KindLedger (LedgerRecord kind)) : LedgerStore :=
  Function.update store kind ledger

def indexRetryFamily (request : StoredRetryRequest) : LedgerStore :=
  store.with_ .retryFamily
    ((store .retryFamily).replaceRecord (expiryOf .retryFamily) request.requestedAt request.retryId
      { failedEnvelopeId := request.failedEnvelopeId, indexedAt := request.requestedAt })

def storeRetryRequest (request : StoredRetryRequest) : LedgerStore :=
  let indexed := if request.target.isSome then store.indexRetryFamily request else store
  indexed.with_ .retryRequested
    ((indexed .retryRequested).replaceRecord (expiryOf .retryRequested) request.requestedAt
      request.failedEnvelopeId request)

def storeRetryResend (id : String) (record : RetryResendRecord) : LedgerStore :=
  if retryRequestAttempt record ≠ some record.attempt then store
  else
    store.with_ .retryResend
      ((store .retryResend).replaceRecord (expiryOf .retryResend) (retryResendTime record) id
        record)

def processedRecord (existing : Option ProcessedEnvelope) (processedAt : ℤ)
    (write : ProcessedEnvelopeWrite) : ProcessedEnvelope :=
  let current := existing.filter fun record =>
    decide (processedAt - processedEnvelopeTtl record ≤ record.processedAt)
  { processedAt
    fingerprint := write.fingerprint.or (current.bind (·.fingerprint))
    fulfilled := write.fulfilled || current.any (·.fulfilled)
    completed := write.completed || current.any (·.completed)
    outcome := write.outcome.or (current.bind (·.outcome)) }

def writeProcessedEnvelope (processedAt : ℤ) (write : ProcessedEnvelopeWrite) : LedgerStore :=
  store.with_ .incoming
    ((store .incoming).replaceRecord (expiryOf .incoming) processedAt write.envelopeId
      (processedRecord ((store .incoming).records write.envelopeId) processedAt write))

def writeReceivedTimestamp (id : String) (now : ℤ) : LedgerStore :=
  store.with_ .receivedTimestamp
    ((store .receivedTimestamp).writeRecord (expiryOf .receivedTimestamp) now id ⟨now⟩)

def getOutgoingMessageIntent (clientMessageId : ClientMessageId) (now : ℤ) :
    Option TimestampedIntent :=
  (((store .outbox).records clientMessageId).map (·.intent)).filter fun intent =>
    intent.retainedAt now

/-- A status that `update` does not change is not written. -/
def updateDeliveryStatus (clientMessageId : ClientMessageId) (update : JsonText → JsonText)
    (now : ℤ) : LedgerStore :=
  match store.getOutgoingMessageIntent clientMessageId now with
  | none => store
  | some intent =>
    let stored := ((store .deliveryStatus).records clientMessageId).filter fun status =>
      status.createdAt = intent.createdAt
    let devices := (stored.map (·.devices)).getD ""
    if update devices = devices then store
    else
      store.with_ .deliveryStatus
        ((store .deliveryStatus).writeRecord (expiryOf .deliveryStatus) now clientMessageId
          ⟨intent.createdAt, update devices⟩)

def heldEntry (ledger : KindLedger SentTimestampEntry) (intent : TimestampedIntent) :
    SentTimestampEntry :=
  let held := ((ledger.records (toString intent.clientTimestamp)).map (·.clientMessageIds)).getD []
  { clientMessageIds := if intent.clientMessageId ∈ held then held
      else held ++ [intent.clientMessageId]
    indexedAt := intent.createdAt }

def alreadyUsed (ledger : KindLedger SentTimestampEntry) (intent : TimestampedIntent)
    (ownsPending : Bool) : Bool :=
  let held := ((ledger.records (toString intent.clientTimestamp)).map (·.clientMessageIds)).getD []
  !ownsPending && decide (intent.clientMessageId ∉ held) && !held.isEmpty

def indexSentTimestamp (intent : TimestampedIntent) (now : ℤ) : LedgerStore :=
  store.with_ .sentTimestamp
    ((store .sentTimestamp).writeRecord (expiryOf .sentTimestamp) now
      (toString intent.clientTimestamp)
      (heldEntry ((store .sentTimestamp).pruneExpiredBuckets (expiryOf .sentTimestamp) now).1
        intent))

def pruneKind (kind : LedgerKind) (now : ℤ) : LedgerStore :=
  store.with_ kind ((store kind).pruneExpiredBuckets (expiryOf kind) now).1

/-- Store an intent, or repair the index entries of the retained one. An intent that differs from
the retained one, or whose timestamp a later send took, is not stored. -/
def storeOutgoingMessageIntent (intent : TimestampedIntent) (ownsPending : Bool) (now : ℤ) :
    LedgerStore :=
  let retainedDays := ((store .outbox).pruneExpiredBuckets (expiryOf .outbox) now).2
  let pruned := store.pruneKind .outbox now
  match pruned.getOutgoingMessageIntent intent.clientMessageId now with
  | some existing =>
    if ¬ sameIntent existing intent then pruned
    else
      let indexed := pruned.indexSentTimestamp existing now
      indexed.with_ .outbox
        ((indexed .outbox).indexRecord intent.clientMessageId
          (outgoingIntentRetainedFrom existing) retainedDays)
  | none =>
    let entries := (pruned .sentTimestamp).pruneExpiredBuckets (expiryOf .sentTimestamp) now
    if alreadyUsed entries.1 intent ownsPending then pruned.pruneKind .sentTimestamp now
    else
      let indexed := pruned.indexSentTimestamp intent now
      indexed.with_ .outbox
        (((indexed .outbox).setRecord intent.clientMessageId { intent }).indexRecord
          intent.clientMessageId (outgoingIntentRetainedFrom intent) retainedDays)

def resentRecord (existing : OutboxRecord) (createdAt : ℤ) : OutboxRecord :=
  { existing with
    intent := { existing.intent with
      manualResends := existing.intent.manualResends ++ [createdAt] } }

def addOutgoingManualResend (clientMessageId : ClientMessageId) (createdAt now : ℤ) : LedgerStore :=
  match (store .outbox).records clientMessageId with
  | none => store
  | some existing =>
    store.with_ .outbox
      ((store .outbox).moveRecord (expiryOf .outbox) now clientMessageId
        (resentRecord existing createdAt) (outgoingIntentRetainedFrom existing.intent))

structure SentReservation where
  clientMessageId : ClientMessageId
  timestamp : ℤ
  reservedAt : ℤ

/-- Remove an ID from its entry, and the entry when no ID remains. The answer tells whether the
index entry went as well. -/
def removeSentTimestampId (ledger : KindLedger SentTimestampEntry) (reservation : SentReservation) :
    KindLedger SentTimestampEntry × Bool :=
  let id := toString reservation.timestamp
  match ledger.records id with
  | none => (ledger, false)
  | some entry =>
    let remaining := entry.clientMessageIds.filter (· ≠ reservation.clientMessageId)
    if remaining.length = entry.clientMessageIds.length then (ledger, false)
    else if remaining ≠ [] then
      (ledger.setRecord id { entry with clientMessageIds := remaining }, false)
    else ((ledger.deleteRecord id).unindexRecord id reservation.reservedAt, true)

def removeEarlierReservation (ledger : KindLedger SentTimestampEntry) :
    Option SentReservation → KindLedger SentTimestampEntry × Bool
  | none => (ledger, false)
  | some reservation => removeSentTimestampId ledger reservation

def reserveSendTimestamp (clientMessageId : ClientMessageId) (timestamp : ℤ)
    (earlier : Option SentReservation) (orphans : List ℤ) (now : ℤ) : LedgerStore :=
  let id := toString timestamp
  let pruned := (store .sentTimestamp).pruneExpiredBuckets (expiryOf .sentTimestamp) now
  let removed := removeEarlierReservation pruned.1 earlier
  let taken := removed.1.setRecord id ⟨[clientMessageId], now⟩
  let unindexed := orphans.foldl (fun ledger reservedAt => ledger.unindexRecord id reservedAt) taken
  -- The removal can delete a bucket and its day in the manifest.
  let retainedDays :=
    if removed.2 ∨ orphans ≠ [] then pruned.2.filter (· ∈ unindexed.manifest) else pruned.2
  store.with_ .sentTimestamp (unindexed.indexRecord id now retainedDays)

def releaseSendTimestamp (reservation : SentReservation) (now : ℤ) : LedgerStore :=
  if (store.getOutgoingMessageIntent reservation.clientMessageId now).any
      (·.clientTimestamp = reservation.timestamp) then store
  else
    store.with_ .sentTimestamp (removeSentTimestampId (store .sentTimestamp) reservation).1

structure Rewrite (kind : LedgerKind) where
  change : LedgerRecord kind → LedgerRecord kind
  keepsTime : ∀ record, (expiryOf kind).time (change record) = (expiryOf kind).time record

def rewriteRecord {kind : LedgerKind} (id : String) (rewrite : Rewrite kind) : LedgerStore :=
  match (store kind).records id with
  | none => store
  | some record => store.with_ kind ((store kind).setRecord id (rewrite.change record))

def answered : Rewrite .retryRequested where
  change record := { record with answered := true, nextAttemptAt := none, lastFailureClass := none }
  keepsTime _ := rfl

end LedgerStore

inductive LedgerOperation where
  | storeRetryRequest (request : StoredRetryRequest)
  | storeRetryResend (id : String) (record : RetryResendRecord)
  | writeProcessedEnvelope (write : ProcessedEnvelopeWrite)
  | recordReceivedTimestamp (id : String)
  | updateDeliveryStatus (clientMessageId : ClientMessageId) (update : JsonText → JsonText)
  | storeOutgoingMessageIntent (intent : TimestampedIntent) (ownsPending : Bool)
  | addOutgoingManualResend (clientMessageId : ClientMessageId) (createdAt : ℤ)
  | reserveSendTimestamp (clientMessageId : ClientMessageId) (timestamp : ℤ)
      (earlier : Option LedgerStore.SentReservation) (orphans : List ℤ)
  | releaseSendTimestamp (reservation : LedgerStore.SentReservation)
  | rewrite (kind : LedgerKind) (id : String) (rewrite : LedgerStore.Rewrite kind)
  | prune (kind : LedgerKind)

namespace LedgerStore

variable (store : LedgerStore)

def after (now : ℤ) : LedgerOperation → LedgerStore
  | .storeRetryRequest request => store.storeRetryRequest request
  | .storeRetryResend id record => store.storeRetryResend id record
  | .writeProcessedEnvelope write => store.writeProcessedEnvelope now write
  | .recordReceivedTimestamp id => store.writeReceivedTimestamp id now
  | .updateDeliveryStatus clientMessageId update =>
    store.updateDeliveryStatus clientMessageId update now
  | .storeOutgoingMessageIntent intent ownsPending =>
    store.storeOutgoingMessageIntent intent ownsPending now
  | .addOutgoingManualResend clientMessageId createdAt =>
    store.addOutgoingManualResend clientMessageId createdAt now
  | .reserveSendTimestamp clientMessageId timestamp earlier orphans =>
    store.reserveSendTimestamp clientMessageId timestamp earlier orphans now
  | .releaseSendTimestamp reservation => store.releaseSendTimestamp reservation now
  | .rewrite _ id rewrite => store.rewriteRecord id rewrite
  | .prune kind => store.pruneKind kind now

def run (operations : List (ℤ × LedgerOperation)) : LedgerStore :=
  operations.foldl (fun store operation => store.after operation.1 operation.2) store

end LedgerStore

end SignalProtocol.Ledger

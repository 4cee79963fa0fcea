import SignalProtocol.Retry.Ledger

/-! # Send timestamps

The reservations of the client timestamps of new sends. -/

namespace SignalProtocol.Outbox

open Retry (RELIABILITY_RECORD_TTL_MS dayFor)

abbrev ClientMessageId := String

structure TimestampedIntent where
  clientMessageId : ClientMessageId
  clientTimestamp : ℤ
  createdAt : ℤ
  /-- The fields that two stores of one send must agree on besides the timestamp, as JSON text. -/
  send : String
  manualResends : List ℤ := []
  deriving DecidableEq

def outgoingIntentRetainedFrom (intent : TimestampedIntent) : ℤ :=
  intent.manualResends.foldl max intent.createdAt

def TimestampedIntent.retainedAt (intent : TimestampedIntent) (now : ℤ) : Bool :=
  decide (now - RELIABILITY_RECORD_TTL_MS ≤ outgoingIntentRetainedFrom intent)

def sameIntent (first second : TimestampedIntent) : Bool :=
  first.clientMessageId == second.clientMessageId &&
    first.clientTimestamp == second.clientTimestamp && first.send == second.send

structure PendingSendTimestamp where
  reservedAt : ℤ
  timestamp : ℤ

structure SendStore where
  intents : ClientMessageId → Option TimestampedIntent
  entries : ℤ → List ClientMessageId
  pending : ClientMessageId → Option PendingSendTimestamp
  outboxDays : List (ℤ × ClientMessageId)
  sentDays : List (ℤ × ℤ)
  /-- Whether an earlier reading of the clock found the stored intent expired. No code reads it. -/
  lapsed : ClientMessageId → Bool

def SendStore.empty : SendStore where
  intents := fun _ => none
  entries := fun _ => []
  pending := fun _ => none
  outboxDays := []
  sentDays := []
  lapsed := fun _ => false

inductive MetadataWrite where
  | setIntent (intent : TimestampedIntent)
  | deleteIntent (clientMessageId : ClientMessageId)
  | setEntry (timestamp : ℤ) (clientMessageIds : List ClientMessageId)
  | setPending (clientMessageId : ClientMessageId) (pending : PendingSendTimestamp)
  | deletePending (clientMessageId : ClientMessageId)
  | indexOutbox (day : ℤ) (clientMessageId : ClientMessageId)
  | unindexOutbox (day : ℤ) (clientMessageId : ClientMessageId)
  | indexSent (day timestamp : ℤ)
  | unindexSent (day timestamp : ℤ)

namespace SendStore

variable (store : SendStore)

def write : MetadataWrite → SendStore
  | .setIntent intent =>
    { store with
      intents := Function.update store.intents intent.clientMessageId (some intent)
      lapsed := Function.update store.lapsed intent.clientMessageId false }
  | .deleteIntent clientMessageId =>
    { store with intents := Function.update store.intents clientMessageId none }
  | .setEntry timestamp clientMessageIds =>
    { store with entries := Function.update store.entries timestamp clientMessageIds }
  | .setPending clientMessageId pending =>
    { store with pending := Function.update store.pending clientMessageId (some pending) }
  | .deletePending clientMessageId =>
    { store with pending := Function.update store.pending clientMessageId none }
  | .indexOutbox day clientMessageId =>
    { store with outboxDays := store.outboxDays.insert (day, clientMessageId) }
  | .unindexOutbox day clientMessageId =>
    { store with outboxDays := store.outboxDays.filter (· != (day, clientMessageId)) }
  | .indexSent day timestamp =>
    { store with sentDays := store.sentDays.insert (day, timestamp) }
  | .unindexSent day timestamp =>
    { store with sentDays := store.sentDays.filter (· != (day, timestamp)) }

def writes (list : List MetadataWrite) : SendStore :=
  list.foldl SendStore.write store

def getOutgoingMessageIntent (clientMessageId : ClientMessageId) (now : ℤ) :
    Option TimestampedIntent :=
  (store.intents clientMessageId).filter fun intent => intent.retainedAt now

def ownsTimestamp (clientMessageId : ClientMessageId) (timestamp now : ℤ) : Bool :=
  (store.getOutgoingMessageIntent clientMessageId now).any (·.clientTimestamp = timestamp)

def expiredSentDays (now : ℤ) : List (ℤ × ℤ) :=
  store.sentDays.filter fun entry => decide (entry.1 < dayFor (now - RELIABILITY_RECORD_TTL_MS))

def pruneSentWrites (now : ℤ) : List MetadataWrite :=
  (store.expiredSentDays now).map (fun entry => .setEntry entry.2 []) ++
    (store.expiredSentDays now).map fun entry => .unindexSent entry.1 entry.2

def expiredOutboxDays (now : ℤ) : List (ℤ × ClientMessageId) :=
  store.outboxDays.filter fun entry => decide (entry.1 < dayFor (now - RELIABILITY_RECORD_TTL_MS))

def pruneIntent (now : ℤ) (clientMessageId : ClientMessageId) : MetadataWrite :=
  match store.getOutgoingMessageIntent clientMessageId now with
  | some intent => .indexOutbox (dayFor (outgoingIntentRetainedFrom intent)) clientMessageId
  | none => .deleteIntent clientMessageId

def pruneOutboxWrites (now : ℤ) : List MetadataWrite :=
  (store.expiredOutboxDays now).map (fun entry => store.pruneIntent now entry.2) ++
    (store.expiredOutboxDays now).map fun entry => .unindexOutbox entry.1 entry.2

end SendStore

inductive TimestampOrigin where
  | sdkClock
  | caller
  deriving DecidableEq

structure SendTimestampRequest where
  clientMessageId : ClientMessageId
  timestamp : ℤ
  origin : TimestampOrigin
  latest : ℤ
  grace : ℤ

inductive HolderState where
  | committed
  | inFlight
  | orphan
  deriving DecidableEq

inductive TimestampChoice where
  | reused (timestamp : ℤ)
  | free (timestamp : ℤ)
  | used (timestamp : ℤ)
  | pastLatest (timestamp : ℤ)

structure SendTimestampRelease where
  clientMessageId : ClientMessageId
  timestamp : ℤ
  reservedAt : ℤ

namespace SendStore

variable (store : SendStore)

def sendTimestampHolderState (clientMessageId : ClientMessageId) (timestamp grace now : ℤ) :
    HolderState :=
  match store.pending clientMessageId with
  | none => .committed
  | some pending =>
    if pending.timestamp ≠ timestamp then .committed
    else if store.ownsTimestamp clientMessageId timestamp now then .committed
    else if now - pending.reservedAt < grace then .inFlight
    else .orphan

def chooseTimestamp (request : SendTimestampRequest) (now : ℤ) : ℕ → ℤ → TimestampChoice
  | 0, timestamp => .pastLatest timestamp
  | fuel + 1, timestamp =>
    if request.clientMessageId ∈ store.entries timestamp then .reused timestamp
    else if (store.entries timestamp).all fun holder =>
        store.sendTimestampHolderState holder timestamp request.grace now = .orphan then
      .free timestamp
    else if request.origin = .caller then .used timestamp
    else if request.latest < timestamp + 1 then .pastLatest (timestamp + 1)
    else chooseTimestamp request now fuel (timestamp + 1)

def choice (request : SendTimestampRequest) (now : ℤ) : TimestampChoice :=
  store.chooseTimestamp request now ((request.latest - request.timestamp).toNat + 1)
    request.timestamp

def removeSentTimestampId (clientMessageId : ClientMessageId) (timestamp reservedAt : ℤ) :
    List MetadataWrite :=
  let remaining := (store.entries timestamp).filter (· != clientMessageId)
  if remaining.length = (store.entries timestamp).length then []
  else if remaining ≠ [] then [.setEntry timestamp remaining]
  else [.setEntry timestamp [], .unindexSent (dayFor reservedAt) timestamp]

def removeEarlierReservation (clientMessageId : ClientMessageId) (timestamp now : ℤ) :
    List MetadataWrite :=
  match store.pending clientMessageId with
  | none => []
  | some earlier =>
    if earlier.timestamp = timestamp then []
    else if store.ownsTimestamp clientMessageId earlier.timestamp now then []
    else store.removeSentTimestampId clientMessageId earlier.timestamp earlier.reservedAt

def removeOrphan (timestamp : ℤ) (holder : ClientMessageId) : List MetadataWrite :=
  match store.pending holder with
  | none => [.deletePending holder]
  | some pending => [.deletePending holder, .unindexSent (dayFor pending.reservedAt) timestamp]

def reserveWrites (request : SendTimestampRequest) (now : ℤ) : List MetadataWrite :=
  match store.choice request now with
  | .reused timestamp =>
    if (store.pending request.clientMessageId).any fun pending =>
        pending.timestamp = timestamp ∧ pending.reservedAt < now then
      [.setPending request.clientMessageId { reservedAt := now, timestamp }]
    else []
  | .free timestamp =>
    -- The marker goes before the entry, and the entry before the markers of its orphans.
    store.removeEarlierReservation request.clientMessageId timestamp now ++
      [.setPending request.clientMessageId { reservedAt := now, timestamp },
        .setEntry timestamp [request.clientMessageId]] ++
      (store.entries timestamp).flatMap (store.removeOrphan timestamp) ++
      [.indexSent (dayFor now) timestamp]
  | .used _ => []
  | .pastLatest _ => []

def reserveSendTimestamp (request : SendTimestampRequest) (now : ℤ) : List MetadataWrite :=
  store.pruneSentWrites now ++ (store.writes (store.pruneSentWrites now)).reserveWrites request now

def releaseSendTimestamp (release : SendTimestampRelease) (now : ℤ) : List MetadataWrite :=
  if store.ownsTimestamp release.clientMessageId release.timestamp now then []
  else
    store.removeSentTimestampId release.clientMessageId release.timestamp release.reservedAt ++
      if (store.pending release.clientMessageId).any (·.timestamp = release.timestamp) then
        [.deletePending release.clientMessageId]
      else []

def ownsPending (intent : TimestampedIntent) : Bool :=
  (store.pending intent.clientMessageId).any (·.timestamp = intent.clientTimestamp)

def holds (intent : TimestampedIntent) : Bool :=
  decide (intent.clientMessageId ∈ store.entries intent.clientTimestamp)

def alreadyUsed (intent : TimestampedIntent) : Bool :=
  !store.ownsPending intent && !store.holds intent &&
    !(store.entries intent.clientTimestamp).isEmpty

def holdWrites (intent : TimestampedIntent) : List MetadataWrite :=
  if store.holds intent then []
  else
    [.setEntry intent.clientTimestamp
      (store.entries intent.clientTimestamp ++ [intent.clientMessageId])]

def indexWrites (intent : TimestampedIntent) : List MetadataWrite :=
  (if store.ownsPending intent then [.deletePending intent.clientMessageId] else []) ++
    [.indexSent (dayFor intent.createdAt) intent.clientTimestamp,
      .indexOutbox (dayFor (outgoingIntentRetainedFrom intent)) intent.clientMessageId]

/-- The writes of an intent after the prunings: of a new one, or of a retained one whose index
entry may be missing. -/
def intentWrites (intent : TimestampedIntent) (now : ℤ) : List MetadataWrite :=
  match store.getOutgoingMessageIntent intent.clientMessageId now with
  | some existing =>
    if sameIntent existing intent then store.holdWrites existing ++ store.indexWrites existing
    else []
  | none =>
    if store.alreadyUsed intent then []
    else .setIntent intent :: (store.holdWrites intent ++ store.indexWrites intent)

def pruneWrites (now : ℤ) : List MetadataWrite :=
  store.pruneOutboxWrites now ++ (store.writes (store.pruneOutboxWrites now)).pruneSentWrites now

def storeOutgoingMessageIntent (intent : TimestampedIntent) (now : ℤ) : List MetadataWrite :=
  store.pruneWrites now ++ (store.writes (store.pruneWrites now)).intentWrites intent now

end SendStore

inductive TimestampOperation where
  | reserve (request : SendTimestampRequest)
  | store (intent : TimestampedIntent)
  | release (release : SendTimestampRelease)
  | prune

structure SendEvent where
  operation : TimestampOperation
  now : ℤ
  completed : ℕ

namespace SendStore

variable (store : SendStore)

def operationWrites (now : ℤ) : TimestampOperation → List MetadataWrite
  | .reserve request => store.reserveSendTimestamp request now
  | .store intent => store.storeOutgoingMessageIntent intent now
  | .release release => store.releaseSendTimestamp release now
  | .prune => store.pruneWrites now

def read (now : ℤ) : SendStore :=
  { store with
    lapsed := fun clientMessageId =>
      store.lapsed clientMessageId ||
        (store.intents clientMessageId).any fun intent => !intent.retainedAt now }

def step (event : SendEvent) : SendStore :=
  (store.read event.now).writes
    (((store.read event.now).operationWrites event.now event.operation).take event.completed)

def run (events : List SendEvent) : SendStore :=
  events.foldl SendStore.step store

end SendStore

end SignalProtocol.Outbox

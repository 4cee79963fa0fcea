import Mathlib.Data.Prod.Lex
import Mathlib.Data.String.Basic
import SignalProtocol.Groups.ReceiveAuthorization
import SignalProtocol.Library.Listing

/-! # Receive records

The stored record of received content, its place in the store order, its age, and the conversation
that it belongs to. -/

namespace SignalProtocol.Receive

open Groups

inductive ReceiveWorkStage where
  | decrypted
  | awaitingCompletion
  | receiptDue
  deriving DecidableEq

inductive ReceiveOrigin where
  | relay
  | caller
  deriving DecidableEq

structure AckIntent where
  at_ : ℤ
  hasReceiptJoin : Bool
  deriving DecidableEq

structure ReceiveWorkRecord where
  workId : String
  revision : ℕ := 0
  stage : ReceiveWorkStage := .decrypted
  origin : ReceiveOrigin := .relay
  arrivalSeq : ℕ
  receivedAt : ℤ
  dueAt : ℤ
  senderUserId : String
  senderTimestamp : Option ℤ := none
  groupId : Option String := none
  /-- Whether the record waits for an update of its group. -/
  blockedOnGroupUpdate : Bool := false
  ackIntent : Option AckIntent := none
  relayOwnsReceipt : Option Bool := none
  hookAttempts : Option ℕ := none
  deriving DecidableEq

abbrev ReceiveOrderKey := ℕ ×ₗ String

def ReceiveWorkRecord.orderKey (record : ReceiveWorkRecord) : ReceiveOrderKey :=
  toLex (record.arrivalSeq, record.workId)

def sortsBefore (first second : ReceiveOrderKey) : Bool := first < second

def receiveWorkDefaultLimit : ℕ := 100

/-- One page of `listReceiveWork`: the records after a place, in the store order. -/
def listReceiveWork (stored : List ReceiveWorkRecord) (after : Option ReceiveOrderKey) (limit : ℕ) :
    List ReceiveWorkRecord :=
  (Listing.sortBy ReceiveWorkRecord.orderKey
    (stored.filter fun record => after.all (· < record.orderKey))).take limit

def maxReceiveWorkAgeMs : ℤ := 30 * 24 * 60 * 60 * 1000

def isReceiveExpired (record : ReceiveWorkRecord) (now : ℤ) : Bool :=
  maxReceiveWorkAgeMs ≤ max 0 (now - record.receivedAt)

def receiveExpiresAt (record : ReceiveWorkRecord) : ℤ := record.receivedAt + maxReceiveWorkAgeMs

def receiptLifespanMs : ℤ := 24 * 60 * 60 * 1000

def receiptEndsAt (record : ReceiveWorkRecord) : ℤ := record.dueAt + receiptLifespanMs

def receiveRetryBackoffMs : ℤ := 30000

def relayReceiptReplyMs : ℤ := 30000

def receiveHookAttemptCap : ℕ := 10

def ReceiveWorkRecord.attempts (record : ReceiveWorkRecord) : ℕ := record.hookAttempts.getD 0

def groupConversation (groupId : String) : String := "group:" ++ extractGroupId groupId

def accountConversation (userId : String) : String := "account:" ++ userId

def storedConversationOf (record : ReceiveWorkRecord) : String :=
  match record.groupId with
  | some groupId => groupConversation groupId
  | none => accountConversation record.senderUserId

structure RestoredContent (ownUserId : String) where
  content : CommittedContent ownUserId
  recipientUserId : Option String := none
  nullMessage : Bool := false
  profileKeyUpdate : Bool := false
  receipt : Bool := false
  typing : Bool := false
  shouldSendDeliveryReceipt : Bool := false

section

variable (params : GroupParams) {ownUserId : String}

def managedGroupOf (content : CommittedContent ownUserId) : Option String :=
  match classifyGroupContent
      (if content.messageType = senderKeyType then content.transportGroupId else none)
      content.inspected with
  | none => none
  | some claim =>
    match groupOfContext params claim with
    | .ok group => some group.groupId
    | .error _ => claim.groupId

def groupOfContent (content : CommittedContent ownUserId) : Option String :=
  (managedGroupOf params content).or (content.transportGroupId.or
    (if content.inspected.senderKeyDistributionOnly then none else content.distributionGroupId))

def transcriptConversationOf (restored : RestoredContent ownUserId) : String :=
  match restored.content.inspected.sync with
  | some (.sent conversationId) =>
    if restored.content.senderUserId ≠ ownUserId then
      accountConversation restored.content.senderUserId
    else
      match restored.recipientUserId with
      | some recipientUserId => accountConversation recipientUserId
      | none => groupConversation conversationId
  | _ => accountConversation restored.content.senderUserId

def conversationOf (record : ReceiveWorkRecord) (restored : RestoredContent ownUserId) : String :=
  match record.groupId.or (groupOfContent params restored.content) with
  | some groupId => groupConversation groupId
  | none => transcriptConversationOf restored

end

/-! ## The memory of the receive queue

What the queue keeps between its passes, and how the client changes it outside a pass. -/

inductive CappedRetry where
  | none
  | unoffered
  | all
  deriving DecidableEq

structure QueueMemory where
  stopped : Bool := true
  startedAt : Option ℤ := none
  held : String → ℕ := fun _ => 0
  backoff : String → Option ℤ := fun _ => none
  conversations : String → Option String := fun _ => none
  receiptsInFlight : String → Bool := fun _ => false
  decisions : String → Option Bool := fun _ => none
  joinWaits : String → Bool := fun _ => false
  wokenGroups : List String := []
  cappedRetryDue : Bool := false
  offeredAtCap : String → Bool := fun _ => false
  batched : List String := []

def retriesCap (record : ReceiveWorkRecord) (cappedRetry : CappedRetry)
    (offered : String → Bool) : Bool :=
  receiveHookAttemptCap ≤ record.attempts ∧
    (cappedRetry = .all ∨ (cappedRetry = .unoffered ∧ offered record.workId = false))

namespace QueueMemory

variable (memory : QueueMemory)

def conversationOf (record : ReceiveWorkRecord) : String :=
  (memory.conversations record.workId).getD (storedConversationOf record)

def keyed (workId conversation : String) : QueueMemory :=
  { memory with conversations := Function.update memory.conversations workId (some conversation) }

def forget (workId : String) : QueueMemory :=
  { memory with
    decisions := Function.update memory.decisions workId none
    backoff := Function.update memory.backoff workId none
    conversations := Function.update memory.conversations workId none
    offeredAtCap := Function.update memory.offeredAtCap workId false }

def backedOff (workId : String) (retryAt : Option ℤ) : QueueMemory :=
  { memory with backoff := Function.update memory.backoff workId retryAt }

def offered (workId : String) : QueueMemory :=
  { memory with offeredAtCap := Function.update memory.offeredAtCap workId true }

def decided (workId : String) (owned : Option Bool) : QueueMemory :=
  { memory with decisions := Function.update memory.decisions workId owned }

def joins (workId : String) (waits : Bool) : QueueMemory :=
  { memory with joinWaits := Function.update memory.joinWaits workId waits }

def inFlight (workId : String) (flies : Bool) : QueueMemory :=
  { memory with receiptsInFlight := Function.update memory.receiptsInFlight workId flies }

def batchReceipt (workId : String) : QueueMemory :=
  { memory with batched := memory.batched ++ [workId] }

def wakeGroups (groups : List String) : QueueMemory :=
  { memory with wokenGroups := memory.wokenGroups ++ groups }

def start (now : ℤ) : QueueMemory :=
  if memory.stopped then
    { memory with
      stopped := false
      startedAt := some now
      joinWaits := fun _ => false
      receiptsInFlight := fun _ => false }
  else memory

def stop : QueueMemory :=
  { memory with
    stopped := true
    decisions := fun _ => none
    backoff := fun _ => none
    conversations := fun _ => none
    wokenGroups := []
    cappedRetryDue := false
    offeredAtCap := fun _ => false }

def hold (workId : String) : QueueMemory :=
  { memory with held := Function.update memory.held workId (memory.held workId + 1) }

def release (workId : String) : QueueMemory :=
  { memory with held := Function.update memory.held workId (memory.held workId - 1) }

def joinDecided (workId : String) (owned : Bool) : QueueMemory :=
  let waited := memory.joinWaits workId
  let settled := memory.joins workId false
  if memory.stopped then
    if ¬ owned ∧ waited then settled.batchReceipt workId else settled
  else settled.decided workId (some owned)

end QueueMemory

inductive MemoryEvent where
  | start (now : ℤ)
  | stop
  | resumed
  | hold (workId : String)
  | release (workId : String)
  | wake (groupId : Option String)
  | retryFailedHooks
  | joinDecided (workId : String) (owned : Bool)
  | decisionWritten (workId : String)
  | receiptSettled (workId : String) (retryAt : Option ℤ)
  | forget (workId : String)

def QueueMemory.after (memory : QueueMemory) : MemoryEvent → QueueMemory
  | .start now => memory.start now
  | .stop => memory.stop
  | .resumed => { memory with cappedRetryDue := true }
  | .hold workId => memory.hold workId
  | .release workId => memory.release workId
  | .wake groupId => memory.wakeGroups groupId.toList
  | .retryFailedHooks => { memory with cappedRetryDue := true }
  | .joinDecided workId owned => memory.joinDecided workId owned
  | .decisionWritten workId => memory.decided workId none
  | .receiptSettled workId retryAt =>
    let settled := memory.inFlight workId false
    match retryAt with
    | some retryAt => settled.backedOff workId (some retryAt)
    | none => settled
  | .forget workId => memory.forget workId

/-! ## Passes of the receive queue

A pass visits the records of the store in its order. What the store, the cipher and the hooks of
the application answer is given, and the state also keeps which records were listed and visited,
and whose content the application got. -/

open Results

inductive VisitError where
  | stopped
  | failed
  | hookMissing
  | hookTimeout
  deriving DecidableEq

inductive RestoreResult (ownUserId : String) where
  | denied
  | committed (restored : RestoredContent ownUserId)

structure QueueConfig where
  /-- Whether the client has a relay and sends delivery receipts. -/
  sendsReceipts : Bool

structure VisitAnswers (ownUserId : String) where
  /-- The changes of the memory since the visit before. -/
  meanwhile : List MemoryEvent := []
  now : ℤ := 0
  later : ℤ := 0
  pastDeadline : Bool := false
  proceed : Except VisitError Unit := .ok ()
  /-- Whether the store still holds the listed revision. -/
  current : Except VisitError Bool := .ok true
  expiredHook : Except VisitError Unit := .ok ()
  complete : Except VisitError Unit := .ok ()
  restore : Except VisitError (RestoreResult ownUserId) := .ok .denied
  deny : Except VisitError Unit := .ok ()
  keySync : Except VisitError Bool := .ok false
  waitWrite : Except VisitError Unit := .ok ()
  decision : Except VisitError GroupContentDecision := .ok (.authorized none)
  blockWrite : Except VisitError Unit := .ok ()
  awaitWrite : Except VisitError Unit := .ok ()
  hookRegistered : Bool := true
  attemptWrite : Except VisitError Bool := .ok true
  handleDeliveryReceipt : Except VisitError Unit := .ok ()
  handleTypingIndicator : Except VisitError Unit := .ok ()
  alreadyReceived : Except VisitError Bool := .ok false
  onMessageDecrypted : Except VisitError Unit := .ok ()
  afterHook : Except VisitError Unit := .ok ()
  dueWrite : Except VisitError Bool := .ok true
  receivedWrite : Except VisitError Unit := .ok ()
  reportRecovered : Except VisitError Unit := .ok ()

inductive Settlement where
  | taken
  | expired
  | completed
  | denied
  | delivered
  | attemptsUsedUp
  deriving DecidableEq

def earlier : Option ℤ → Option ℤ → Option ℤ
  | some first, some second => some (min first second)
  | none, time => time
  | time, none => time

structure RecordStep where
  next : Option ℤ
  processed : Bool
  settled : Option Settlement

namespace RecordStep

def wait (next : Option ℤ) : RecordStep := ⟨next, false, none⟩

def done (settlement : Settlement) : RecordStep := ⟨none, true, some settlement⟩

def rest (next : Option ℤ) (settlement : Settlement) : RecordStep := ⟨next, false, some settlement⟩

end RecordStep

structure RecordVisit where
  record : ReceiveWorkRecord
  conversation : String
  settled : Option Settlement
  deriving DecidableEq

/-- Content that `onMessageDecrypted` got, with what the pass had done by then. -/
structure Handing where
  record : ReceiveWorkRecord
  conversation : String
  reads : List (List ReceiveWorkRecord)
  listed : List ReceiveWorkRecord
  visits : List RecordVisit
  deriving DecidableEq

abbrev BlockedConversations := String → Option ReceiveOrderKey

def block (blocked : BlockedConversations) (record : ReceiveWorkRecord) (conversation : String) :
    BlockedConversations :=
  if (blocked conversation).all fun earliest => sortsBefore record.orderKey earliest then
    Function.update blocked conversation (some record.orderKey)
  else blocked

def isBlocked (blocked : BlockedConversations) (record : ReceiveWorkRecord)
    (conversation : String) : Bool :=
  (blocked conversation).any fun earliest => sortsBefore earliest record.orderKey

structure PassState where
  memory : QueueMemory
  woken : List String := []
  blocked : BlockedConversations := fun _ => none
  capped : List ReceiveWorkRecord := []
  timedOut : Bool := false
  processed : ℕ := 0
  remaining : ℕ := 0
  next : Option ℤ := none
  reads : List (List ReceiveWorkRecord) := []
  listed : List ReceiveWorkRecord := []
  visits : List RecordVisit := []
  handings : List Handing := []

abbrev PassM := EStateM VisitError PassState

def updateMemory (update : QueueMemory → QueueMemory) : PassM Unit :=
  modify fun state => { state with memory := update state.memory }

def holdBack (record : ReceiveWorkRecord) (conversation : String) : PassM Unit :=
  modify fun state => { state with blocked := block state.blocked record conversation }

section

variable (config : QueueConfig) (params : GroupParams) {ownUserId : String}
variable (answers : VisitAnswers ownUserId)

def receiptStep (record : ReceiveWorkRecord) (now : ℤ) : PassM RecordStep := do
  let state ← get
  let memory := state.memory
  let owned := record.relayOwnsReceipt.or (memory.decisions record.workId)
  if owned = some true then
    fromResult answers.complete
    updateMemory (·.forget record.workId)
    pure (.done .taken)
  else
    match record.ackIntent with
    | some intent =>
      if owned = none ∧ intent.hasReceiptJoin ∧ memory.startedAt.any (· ≤ intent.at_) ∧
          now < intent.at_ + relayReceiptReplyMs then
        updateMemory fun memory =>
          if config.sendsReceipts then memory.joins record.workId true else memory
        pure (.rest (intent.at_ + relayReceiptReplyMs : ℤ) .taken)
      else sendReceipt record now
    | none => sendReceipt record now
where
  sendReceipt (record : ReceiveWorkRecord) (now : ℤ) : PassM RecordStep := do
    updateMemory (·.joins record.workId false)
    let state ← get
    let retryAt := state.memory.backoff record.workId
    if state.memory.receiptsInFlight record.workId then pure (.rest none .taken)
    else if retryAt.any (now < ·) then pure (.rest (retryAt.getD now : ℤ) .taken)
    else if ¬ config.sendsReceipts then
      fromResult answers.complete
      updateMemory (·.forget record.workId)
      pure (.done .taken)
    else
      updateMemory fun memory =>
        (memory.inFlight record.workId true).batchReceipt record.workId
      pure (.rest none .taken)

/-! ## Delivery -/

def handOver (record : ReceiveWorkRecord) (restored : RestoredContent ownUserId) : PassM Unit :=
  modify fun state =>
    { state with
      handings := state.handings ++ [⟨record, conversationOf params record restored, state.reads,
        state.listed, state.visits⟩] }

def deliver (record : ReceiveWorkRecord) (restored : RestoredContent ownUserId)
    (groupId : Option String) : PassM Bool := do
  let inspected := restored.content.inspected
  if inspected.senderKeyDistribution.isSome ∧ inspected.senderKeyDistributionOnly then pure false
  else if restored.profileKeyUpdate then pure false
  else if restored.receipt then
    fromResult answers.handleDeliveryReceipt
    pure false
  else if restored.typing then
    fromResult answers.handleTypingIndicator
    pure false
  else
    let received ←
      fromResult (if inspected.timestamp.isSome then answers.alreadyReceived else .ok false)
    if received then pure false
    else if ¬ answers.hookRegistered then throw .hookMissing
    else
      handOver params record restored
      fromResult answers.onMessageDecrypted
      pure (restored.shouldSendDeliveryReceipt ∧ config.sendsReceipts ∧
        (decryptedEnvelopeOf restored.content groupId).timestamp ≠ 0)

def receiptDueOf (memory : QueueMemory) (record : ReceiveWorkRecord)
    (restored : RestoredContent ownUserId) : ReceiveWorkRecord :=
  { record with
    blockedOnGroupUpdate := false
    hookAttempts := none
    revision := record.revision + 1
    stage := .receiptDue
    senderTimestamp := restored.content.inspected.timestamp.filter fun timestamp =>
      (timestamp.natAbs : ℤ) ≤ maxSafeInteger
    dueAt :=
      match record.ackIntent with
      | some intent => if intent.hasReceiptJoin then intent.at_ + relayReceiptReplyMs
          else answers.later
      | none => answers.later
    relayOwnsReceipt := (memory.decisions record.workId).or record.relayOwnsReceipt }

def completeAs (record : ReceiveWorkRecord) (settlement : Settlement) : PassM RecordStep := do
  fromResult answers.complete
  updateMemory (·.forget record.workId)
  pure (.done settlement)

def denyRecord (record : ReceiveWorkRecord) : PassM RecordStep := do
  fromResult answers.deny
  updateMemory (·.forget record.workId)
  pure (.done .denied)

def moveToReceiptDue (record : ReceiveWorkRecord) (restored : RestoredContent ownUserId) :
    PassM RecordStep := do
  let state ← get
  let due := receiptDueOf answers state.memory record restored
  let written ← fromResult answers.dueWrite
  if ¬ written then pure (.done .delivered)
  else
    fromResult answers.receivedWrite
    updateMemory fun memory =>
      if (state.memory.decisions record.workId).isSome then memory.decided record.workId none
      else memory
    fromResult answers.reportRecovered
    let _ ← receiptStep config answers due answers.later
    pure (.done .delivered)

/-- One attempt to deliver the content; `record` holds the count of the attempt. -/
def deliverRecord (record : ReceiveWorkRecord) (restored : RestoredContent ownUserId)
    (groupId : Option String) (conversation : String) : PassM RecordStep := do
  let expiresAt := receiveExpiresAt record
  let delivery ← caught (deliver config params answers record restored groupId)
  match delivery with
  | .error .stopped => throw .stopped
  | .error .hookMissing =>
    holdBack record conversation
    pure (.wait expiresAt)
  | .error _ =>
    if receiveHookAttemptCap ≤ record.attempts then
      updateMemory (·.backedOff record.workId none)
      pure (.rest expiresAt .attemptsUsedUp)
    else
      let retryAt := answers.later + receiveRetryBackoffMs
      updateMemory (·.backedOff record.workId (some retryAt))
      holdBack record conversation
      pure (.wait (min retryAt expiresAt : ℤ))
  | .ok owesReceipt =>
    fromResult answers.afterHook
    updateMemory (·.backedOff record.workId none)
    if ¬ owesReceipt then completeAs answers record .delivered
    else moveToReceiptDue config answers record restored

def attempted (record : ReceiveWorkRecord) : ReceiveWorkRecord :=
  { record with revision := record.revision + 1, hookAttempts := some (record.attempts + 1) }

def attemptRecord (record : ReceiveWorkRecord) (restored : RestoredContent ownUserId)
    (groupId : Option String) (conversation : String) : PassM RecordStep := do
  if ¬ answers.hookRegistered then
    deliverRecord config params answers record restored groupId conversation
  else
    let written ← fromResult answers.attemptWrite
    if ¬ written then
      holdBack record conversation
      pure (.wait (min (answers.later + receiveRetryBackoffMs) (receiveExpiresAt record) : ℤ))
    else
      updateMemory fun memory =>
        if receiveHookAttemptCap ≤ (attempted record).attempts then memory.offered record.workId
        else memory
      deliverRecord config params answers (attempted record) restored groupId conversation

def decideRecord (record : ReceiveWorkRecord) (restored : RestoredContent ownUserId)
    (conversation : String) : PassM RecordStep := do
  let decision ← fromResult answers.decision
  match decision with
  | .denied _ => denyRecord answers record
  | .unavailable _ retryAfterMs _ _ =>
    fromResult answers.blockWrite
    holdBack record conversation
    pure (.wait (min (answers.now + retryAfterMs) (receiveExpiresAt record) : ℤ))
  | .authorized groupId =>
    if record.origin = .caller then
      fromResult answers.awaitWrite
      updateMemory (·.forget record.workId)
      pure (.done .completed)
    else attemptRecord config params answers record restored groupId conversation

def processRecord (record : ReceiveWorkRecord) : PassM RecordStep := do
  let restored ← fromResult answers.restore
  match restored with
  | .denied => denyRecord answers record
  | .committed restored =>
    if restored.nullMessage then completeAs answers record .completed
    else
      let keySync ← fromResult answers.keySync
      if keySync then completeAs answers record .completed
      else
        let conversation := conversationOf params record restored
        updateMemory (·.keyed record.workId conversation)
        let state ← get
        if isBlocked state.blocked record conversation then
          let groupId := record.groupId.or (managedGroupOf params restored.content)
          fromResult (if groupId.any (conversation = groupConversation ·) ∧
            ¬ record.blockedOnGroupUpdate then answers.waitWrite else .ok ())
          pure (.wait (receiveExpiresAt record))
        else decideRecord config params answers record restored conversation

/-- `onReceiveExpired` gets only a record that no other path has written since its listing. -/
def expireReceiveWork : PassM Unit := do
  let current ← fromResult answers.current
  if current then
    fromResult answers.expiredHook
    fromResult answers.complete
  else pure ()

def expireRecord (record : ReceiveWorkRecord) : PassM RecordStep := do
  (if record.stage = .receiptDue then fromResult answers.complete else expireReceiveWork answers)
  updateMemory (·.forget record.workId)
  pure (.done (if record.stage = .receiptDue then .taken else .expired))

def waitBehind (record : ReceiveWorkRecord) (conversation : String) (woken : List String) :
    PassM RecordStep := do
  updateMemory (·.wakeGroups (record.groupId.toList.filter fun groupId => woken.contains groupId))
  fromResult (if record.groupId.any (conversation = groupConversation ·) ∧
    ¬ record.blockedOnGroupUpdate then answers.waitWrite else .ok ())
  pure (.wait (receiveExpiresAt record))

def step (cappedRetry : CappedRetry) (record : ReceiveWorkRecord) : PassM RecordStep := do
  let state ← get
  let memory := state.memory
  let now := answers.now
  let conversation := memory.conversationOf record
  let expiresAt := receiveExpiresAt record
  let retryAt := memory.backoff record.workId
  if 0 < memory.held record.workId then
    holdBack record conversation
    pure (.wait none)
  else if isReceiveExpired record now then expireRecord answers record
  else if record.stage = .receiptDue ∧ receiptEndsAt record ≤ now then
    completeAs answers record .taken
  else if record.stage = .awaitingCompletion then pure (.rest expiresAt .taken)
  else if record.stage = .receiptDue then receiptStep config answers record now
  else if isBlocked state.blocked record conversation then
    waitBehind answers record conversation state.woken
  else if receiveHookAttemptCap ≤ record.attempts ∧
      ¬ retriesCap record cappedRetry memory.offeredAtCap then
    pure (.rest expiresAt .attemptsUsedUp)
  else if retryAt.any (now < ·) then
    holdBack record conversation
    pure (.wait (min (retryAt.getD now) expiresAt : ℤ))
  else if record.blockedOnGroupUpdate ∧ now < record.dueAt ∧
      ¬ record.groupId.any state.woken.contains then
    holdBack record conversation
    pure (.wait (min record.dueAt expiresAt : ℤ))
  else processRecord config params answers record

def visited (record : ReceiveWorkRecord) (step : RecordStep) : PassM Unit :=
  modify fun state =>
    { state with
      processed := if step.processed then state.processed + 1 else state.processed
      remaining := if ¬ step.processed ∧ record.stage ≠ .awaitingCompletion then
        state.remaining + 1 else state.remaining
      next := earlier state.next step.next
      visits := state.visits ++ [⟨record, state.memory.conversationOf record, step.settled⟩] }

def skip (record : ReceiveWorkRecord) : PassM Unit :=
  modify fun state =>
    { state with
      timedOut := true
      memory := if state.timedOut then state.memory else state.memory.wakeGroups state.woken
      remaining := if record.stage ≠ .awaitingCompletion then state.remaining + 1
        else state.remaining }

def failVisit (record : ReceiveWorkRecord) : PassM Unit := do
  let state ← get
  let retryAt := answers.later + receiveRetryBackoffMs
  holdBack record (state.memory.conversationOf record)
  updateMemory (·.backedOff record.workId (some retryAt))
  visited record (.wait (retryAt : ℤ))

def visit (cappedRetry : CappedRetry) (record : ReceiveWorkRecord) : PassM Unit := do
  updateMemory fun memory => answers.meanwhile.foldl QueueMemory.after memory
  let state ← get
  if state.timedOut ∨ answers.pastDeadline then skip record
  else
    fromResult answers.proceed
    let stepped ← caught (step config params answers cappedRetry record)
    match stepped with
    | .error .stopped => throw .stopped
    | .error _ => failVisit answers record
    | .ok step => visited record step

end

section

variable (config : QueueConfig) (params : GroupParams) {ownUserId : String}

def cursorAfter (page : List ReceiveWorkRecord) (after : Option ReceiveOrderKey) :
    Option ReceiveOrderKey :=
  (page.getLast?.map (·.orderKey)).or after

structure PageRead (ownUserId : String) where
  stored : List ReceiveWorkRecord
  answers : String → VisitAnswers ownUserId

structure PassAnswers (ownUserId : String) where
  reads : List (PageRead ownUserId)
  capped : String → VisitAnswers ownUserId

def visitListed (cappedRetry : CappedRetry) (answers : String → VisitAnswers ownUserId)
    (record : ReceiveWorkRecord) : PassM Unit := do
  let state ← get
  if retriesCap record cappedRetry state.memory.offeredAtCap then
    modify fun state => { state with capped := state.capped ++ [record] }
  else visit config params (answers record.workId) cappedRetry record

def listPage (stored page : List ReceiveWorkRecord) : PassM Unit :=
  modify fun state =>
    { state with reads := state.reads ++ [stored], listed := state.listed ++ page }

def readPages (cappedRetry : CappedRetry) :
    List (PageRead ownUserId) → Option ReceiveOrderKey → PassM Unit
  | [], _ => throw .failed
  | read :: reads, after => do
      let page := listReceiveWork read.stored after receiveWorkDefaultLimit
      listPage read.stored page
      page.forM (visitListed config params cappedRetry read.answers)
      if page.length < receiveWorkDefaultLimit then pure ()
      else readPages cappedRetry reads (cursorAfter page after)

def visitPages (cappedRetry : CappedRetry) (answers : PassAnswers ownUserId) : PassM Unit := do
  readPages config params cappedRetry answers.reads none
  let state ← get
  state.capped.forM fun record =>
    visit config params (answers.capped record.workId) cappedRetry record

def passStart (memory : QueueMemory) : PassState where
  memory := { memory with wokenGroups := [], cappedRetryDue := false }
  woken := memory.wokenGroups

def endPass (cappedRetry : CappedRetry) (finished : Bool) (state : PassState) : PassState :=
  if (¬ finished ∧ cappedRetry ≠ .none) ∨ (finished ∧ state.timedOut ∧ state.capped ≠ []) then
    { state with memory := { state.memory with cappedRetryDue := true } }
  else state

def runPass (cappedRetry : CappedRetry) (answers : PassAnswers ownUserId) (memory : QueueMemory) :
    PassState :=
  match visitPages config params cappedRetry answers (passStart memory) with
  | .ok _ state => endPass cappedRetry true state
  | .error _ state => endPass cappedRetry false state

inductive QueueEvent (ownUserId : String) where
  | memory (event : MemoryEvent)
  | run (answers : PassAnswers ownUserId)
  | processPending (answers : PassAnswers ownUserId)

structure QueueState where
  memory : QueueMemory := {}
  handings : List Handing := []

def QueueState.afterPass (state : QueueState) (pass : PassState) : QueueState where
  memory := pass.memory
  handings := state.handings ++ pass.handings

def QueueState.next (state : QueueState) : QueueEvent ownUserId → QueueState
  | .memory event => { state with memory := state.memory.after event }
  | .run answers =>
    if state.memory.stopped then state
    else
      let cappedRetry := if state.memory.cappedRetryDue then .unoffered else .none
      state.afterPass (runPass config params cappedRetry answers state.memory)
  | .processPending answers =>
    state.afterPass (runPass config params .all answers state.memory)

def runQueue (events : List (QueueEvent ownUserId)) : QueueState :=
  events.foldl (QueueState.next config params) {}

end

end SignalProtocol.Receive

/-! ## The receipt of one record

A record that owes its delivery receipt, the receipt batches and tasks about it, and what happens to
them in a run of the queue: visits of passes, the ends of sends, decisions of the Relay, stops and
starts. -/

namespace SignalProtocol.Receive

open Groups Results

inductive ReceiptTask where
  /-- The completion of a record whose receipt went out or was refused for good. -/
  | complete
  | readAgain
  deriving DecidableEq

inductive SendOutcome where
  | sent
  | refused
  | failed
  | stopped

structure ReceiptRun where
  stored : Option ReceiveWorkRecord
  memory : QueueMemory
  clock : ℤ
  tasks : List ReceiptTask := []
  /-- The batches with the receipt that have not settled. -/
  pending : ℕ := 0
  sent : ℕ := 0
  /-- Whether the Relay refused the receipt for good. -/
  refused : Bool := false
  /-- Whether the Relay has decided about the receipt. -/
  decided : Bool := false
  /-- Whether the release of the join at a stop batched the receipt. -/
  released : Bool := false
  /-- Whether a completion after a send was not written. -/
  unwritten : Bool := false
  /-- Whether the record was removed because no receipt is to go out. -/
  excused : Bool := false

def ownedOf (memory : QueueMemory) (record : ReceiveWorkRecord) : Option Bool :=
  record.relayOwnsReceipt.or (memory.decisions record.workId)

def isExcused (config : QueueConfig) (memory : QueueMemory) (record : ReceiveWorkRecord)
    (now : ℤ) : Bool :=
  isReceiveExpired record now ∨ receiptEndsAt record ≤ now ∨ ownedOf memory record = some true ∨
    ¬ config.sendsReceipts

inductive ReceiptEvent (ownUserId : String) where
  | visit (answers : VisitAnswers ownUserId) (written : Bool)
  | settled (outcome : SendOutcome)
  | task (answer : Except VisitError Bool) (later : ℤ)
  | joinDecided (owned : Bool)
  | decisionWritten
  | hold
  | release
  | stop
  | dropped
  | start (now : ℤ)

section

variable (config : QueueConfig) (params : GroupParams) (workId : String) {ownUserId : String}

def ReceiptRun.afterVisit (run : ReceiptRun) (record : ReceiveWorkRecord)
    (answers : VisitAnswers ownUserId) (written : Bool) : ReceiptRun :=
  match step config params answers .none record { memory := run.memory } with
  | .ok result state =>
    let removes : Bool := result.processed ∧ written
    { run with
      memory := state.memory
      clock := answers.now
      pending := run.pending + (state.memory.batched.length - run.memory.batched.length)
      stored := if removes then none else some record
      excused := run.excused ∨ (removes ∧ isExcused config run.memory record answers.now) }
  | .error error state =>
    { run with
      memory :=
        if error = .stopped then state.memory
        else state.memory.backedOff record.workId (some (answers.later + receiveRetryBackoffMs))
      clock := answers.now }

def ReceiptRun.afterSend (run : ReceiptRun) : SendOutcome → ReceiptRun
  | .sent =>
    { run with
      pending := run.pending - 1, sent := run.sent + 1, tasks := run.tasks ++ [.complete] }
  | .refused =>
    { run with pending := run.pending - 1, refused := true, tasks := run.tasks ++ [.complete] }
  | .failed =>
    if run.memory.stopped then
      { run with pending := run.pending - 1, memory := run.memory.inFlight workId false }
    else { run with pending := run.pending - 1, tasks := run.tasks ++ [.readAgain] }
  | .stopped => { run with pending := run.pending - 1, memory := run.memory.inFlight workId false }

def ReceiptRun.complete (run : ReceiptRun) (answer : Except VisitError Bool) : ReceiptRun :=
  let memory := run.memory.inFlight workId false
  match run.stored, answer with
  | none, _ => { run with memory := memory }
  | some _, .ok true => { run with memory := memory.forget workId, stored := none }
  | some _, _ => { run with memory := memory, unwritten := true }

def ReceiptRun.readAgain (run : ReceiptRun) (answer : Except VisitError Bool) (later : ℤ) :
    ReceiptRun :=
  let memory := run.memory.inFlight workId false
  let owes : Bool :=
    match answer with
    | .ok _ => run.stored.isSome
    | .error _ => true
  if memory.stopped then { run with memory := memory }
  else if owes then
    { run with memory := memory.backedOff workId (some (later + receiveRetryBackoffMs)) }
  else { run with memory := memory.forget workId }

def ReceiptRun.decide (run : ReceiptRun) (owned : Bool) : ReceiptRun :=
  let released : Bool := run.memory.stopped ∧ ¬ owned ∧ run.memory.joinWaits workId
  { run with
    memory := run.memory.joinDecided workId owned
    decided := true
    pending := if released then run.pending + 1 else run.pending
    released := run.released ∨ released }

def ReceiptRun.keepDecision (run : ReceiptRun) (owned : Bool) : ReceiptRun :=
  { run with
    memory := run.memory.decided workId none
    stored := run.stored.map fun record =>
      if record.relayOwnsReceipt.isSome then record
      else { record with revision := record.revision + 1, relayOwnsReceipt := some owned } }

/-- The events of a run: the clock does not step back, the Relay decides once, no pass visits the
record after a stop has batched its released receipt, and a start comes after the sends and tasks of
the run before. -/
def ReceiptRun.next (run : ReceiptRun) : ReceiptEvent ownUserId → Option ReceiptRun
  | .visit answers written =>
    match run.stored with
    | some record =>
      if run.clock ≤ answers.now ∧ run.released = false then
        some (run.afterVisit config params record answers written)
      else none
    | none => none
  | .settled outcome => if 0 < run.pending then some (run.afterSend workId outcome) else none
  | .task answer later =>
    match run.tasks with
    | [] => none
    | .complete :: tasks => some ({ run with tasks := tasks }.complete workId answer)
    | .readAgain :: tasks => some ({ run with tasks := tasks }.readAgain workId answer later)
  | .joinDecided owned => if run.decided then none else some (run.decide workId owned)
  | .decisionWritten => (run.memory.decisions workId).map (run.keepDecision workId)
  | .hold => some { run with memory := run.memory.hold workId }
  | .release => some { run with memory := run.memory.release workId }
  | .stop => some { run with memory := run.memory.stop }
  | .dropped =>
    if run.memory.stopped ∧ 0 < run.pending then some { run with pending := run.pending - 1 }
    else none
  | .start now =>
    if run.memory.stopped ∧ run.pending = 0 ∧ run.tasks = [] ∧ run.clock ≤ now then
      some { run with memory := run.memory.start now, clock := now, released := false }
    else none

structure ReceiptRun.Starts (run : ReceiptRun) : Prop where
  due : ∃ record, run.stored = some record ∧ record.stage = .receiptDue ∧ record.workId = workId
  memory : run.memory.receiptsInFlight workId = false ∧ run.memory.joinWaits workId = false
  known : (run.memory.decisions workId).isSome → run.decided = true
  fresh : run.tasks = [] ∧ run.pending = 0 ∧ run.sent = 0 ∧ run.unwritten = false

def receiptSystem (ownUserId : String) : TransitionSystem ReceiptRun where
  init := ReceiptRun.Starts workId
  step before after :=
    ∃ event : ReceiptEvent ownUserId, before.next config params workId event = some after

end

end SignalProtocol.Receive

import SignalProtocol.Retry.Ledger

/-! # The lifecycle of a retry request

The request record of one failed envelope, from its first post to its answer or its end. -/

namespace SignalProtocol.Retry.Lifecycle

open Results

def RETRY_REQUEST_DEADLINE_MS : ℤ := 14 * DAY_MS

def RETRY_REQUEST_POSTING_WINDOW_MS : ℤ := DAY_MS

def RETRY_PLACEHOLDER_DEADLINE_MS : ℤ := 60 * 60 * 1000

def MIN_RETRY_REQUEST_BACKOFF_MS : ℤ := 60000

def MAX_RETRY_REQUEST_BACKOFF_MS : ℤ := 60 * 60000

def MAX_RETRY_RESPONSES_PER_MESSAGE : ℕ := 5

def MAX_MESSAGE_ID_LENGTH : ℕ := 128

/-! ## Records -/

inductive ContentHint where
  | default
  | resendable
  | implicit
  deriving DecidableEq

inductive RetryReason where
  | noSession
  | decryptionFailed
  | sessionExpired
  | staleDeviceList
  | identityKeyMismatch
  deriving DecidableEq

structure RetryRequest where
  originalSender : RequestedSender
  failedTimestamp : ℤ
  timestamp : ℤ
  reason : RetryReason
  ratchetKey : Option String := none
  failedClientMessageId : Option String := none

structure RetryRequestPayload where
  failedTimestamp : ℤ
  deviceId : ℕ
  reason : RetryReason
  timestamp : ℤ
  ratchetKey : Option String
  failedEnvelopeId : EnvelopeId
  retryId : RetryId
  failedClientMessageId : Option String
  deriving DecidableEq

structure Envelope where
  target : RequestedSender
  sender : RequestedSender
  ciphertext : RetryRequestPayload
  timestamp : ℤ
  clientMessageId : String
  deriving DecidableEq

inductive RetryTerminalClass where
  | missingSender
  | missingPrekey
  | revokedAuthority
  | requestExpired
  | postingDeadline
  | attemptsExhausted
  | deletion
  | abuseAllowanceExhausted
  | membershipRefused
  deriving DecidableEq

structure RetryTerminal where
  terminalClass : RetryTerminalClass
  endedAt : ℤ
  emitted : Bool

inductive NullMessageOutcome where
  | sent
  | limited
  | failed

structure RetryTerminalNullMessage where
  outcome : NullMessageOutcome
  endedAt : ℤ

structure RetryTerminalRecovery where
  device : RequestedSender
  /-- Whether the requester has a sender key for the group of the failed envelope. -/
  senderKey : Bool
  nullMessage : Option RetryTerminalNullMessage := none

structure StoredRetryRequest where
  failedEnvelopeId : EnvelopeId
  retryId : RetryId
  attempt : ℕ
  requestedAt : ℤ
  fingerprint : Option Fingerprint := none
  answered : Bool := false
  groupMessage : Bool := false
  failedClientMessageId : Option String := none
  groupId : Option String := none
  receivedAt : Option ℤ := none
  contentHint : Option ContentHint := none
  failedSender : Option RequestedSender := none
  errorShown : Bool := false
  recoveredEmitted : Bool := false
  deadlineAt : ℤ
  postingDeadlineAt : Option ℤ := none
  nextAttemptAt : Option ℤ := none
  lastFailureClass : Option RetryFailureClass := none
  terminal : Option RetryTerminal := none
  envelope : Option Envelope := none
  recovery : Option RetryTerminalRecovery := none

namespace StoredRetryRequest

variable (record : StoredRetryRequest)

def retryRequestPostingDeadlineAt : ℤ :=
  record.postingDeadlineAt.getD
    (min record.deadlineAt
      (record.receivedAt.getD record.requestedAt + RETRY_REQUEST_POSTING_WINDOW_MS))

def deadlineTerminalClass : RetryTerminalClass :=
  if record.answered || record.nextAttemptAt.isNone then .requestExpired else .postingDeadline

def answeredLastRetryAttempt : Bool :=
  record.answered && decide (MAX_RETRY_RESPONSES_PER_MESSAGE ≤ record.attempt)

def nextPassAt : ℤ :=
  match record.nextAttemptAt with
  | none => record.deadlineAt
  | some nextAttemptAt =>
    min nextAttemptAt (min record.retryRequestPostingDeadlineAt record.deadlineAt)

def retained (now : ℤ) : Bool := decide (now - RETRY_REQUESTER_RECORD_TTL_MS ≤ record.requestedAt)

def ended (terminalClass : RetryTerminalClass) (now : ℤ) : StoredRetryRequest :=
  { record with
    terminal := some { terminalClass, endedAt := now, emitted := false }
    nextAttemptAt := none
    lastFailureClass := none }

end StoredRetryRequest

inductive Pace where
  | takes (elapsed : ℕ)
  | fails (elapsed : ℕ)

inductive Poster where
  | receive
  | scheduler

inductive Event where
  | stored (record : StoredRetryRequest) (now : ℤ)
  | posted (poster : Poster) (retryId : RetryId) (attempt : ℕ) (envelope : Option Envelope)
      (now : ℤ)
  | relayHolds (retryId : RetryId) (attempt : ℕ)
  | terminalHook (retryId : RetryId) (terminalClass : RetryTerminalClass) (returned : Bool)
  | fulfilled (now : ℤ)
  | armed (passAt : ℤ)

structure Run where
  request : Option StoredRetryRequest
  processed : Option ProcessedEnvelope
  now : ℤ
  pace : List Pace
  log : List Event

def Run.started (now : ℤ) : Run where
  request := none
  processed := none
  now := now
  pace := []
  log := []

inductive Stop where
  | failed
  | stopped

abbrev LifecycleM := EStateM Stop Run

def step : LifecycleM PUnit := fun run =>
  match run.pace with
  | [] => .error .stopped run
  | .takes elapsed :: pace => .ok ⟨⟩ { run with now := run.now + elapsed, pace }
  | .fails elapsed :: pace => .error .failed { run with now := run.now + elapsed, pace }

def stepWhen (needed : Bool) : LifecycleM PUnit :=
  if needed then step else pure ⟨⟩

def clock : LifecycleM ℤ := fun run => .ok run.now run

def note (event : Event) : LifecycleM PUnit :=
  modify fun run => { run with log := event :: run.log }

def schedule (passAt : ℤ) : LifecycleM PUnit := note (.armed passAt)

def getRetryRequest : LifecycleM (Option StoredRetryRequest) := do
  let now ← clock
  step
  let run ← get
  pure (run.request.filter fun record => record.retained now)

def getProcessedEnvelope (now : ℤ) : LifecycleM (Option ProcessedEnvelope) := do
  step
  let run ← get
  pure (run.processed.filter fun record =>
    decide (now - processedEnvelopeTtl record ≤ record.processedAt))

def setRetryRequest (record : StoredRetryRequest) : LifecycleM PUnit := do
  step
  modify fun run => { run with request := some record, log := .stored record run.now :: run.log }

def markRetryRequestAnswered (retryId : RetryId) (attempt : ℕ) : LifecycleM PUnit := do
  match ← getRetryRequest with
  | none => pure ⟨⟩
  | some record =>
    if record.retryId ≠ retryId ∨ record.answered ∨ record.attempt ≠ attempt then pure ⟨⟩
    else
      setRetryRequest
        { record with answered := true, nextAttemptAt := none, lastFailureClass := none }

def updateRetryRequest (retryId : RetryId) (attempt : ℕ)
    (changes : StoredRetryRequest → StoredRetryRequest) :
    LifecycleM (Option StoredRetryRequest) := do
  match ← getRetryRequest with
  | none => pure none
  | some record =>
    if record.retryId ≠ retryId ∨ record.attempt ≠ attempt then pure none
    else do
      setRetryRequest (changes record)
      pure (some (changes record))

def storeRetryRequest (request : StoredRetryRequest) : LifecycleM PUnit := do
  stepWhen request.envelope.isSome
  setRetryRequest request
  step

def storeProcessedEnvelope (write : ProcessedEnvelopeWrite) : LifecycleM PUnit := do
  let now ← clock
  step
  modify fun run =>
    let ledger := { RetryStore.empty with processed := fun _ => run.processed }
    { run with
      processed := some (ledger.processedRecord now write)
      log := if write.fulfilled then .fulfilled now :: run.log else run.log }

structure Hooks where
  onRetryTerminal : Bool
  onDeliveryError : Bool
  onDeliveryRecovered : Bool

/-- The results of the session reset of a `posting-deadline` end. -/
structure RetryTerminalResetSteps where
  /-- Whether the requester has a sender key for the group of the failed envelope. -/
  invalidateAccountSenderKeyHandoffs : Bool
  /-- Whether another reset sent a null message to the device in the last hour. -/
  sentNullMessageSince : Bool
  /-- Whether the null message was posted. -/
  sendNullMessage : Bool

inductive DeliveryErrorCause where
  | rateLimit
  | requestEnded
  | deadline
  | contentHint

def deliveryErrorDue (record : StoredRetryRequest) : Option (ℤ × DeliveryErrorCause) :=
  match record.receivedAt, record.failedSender with
  | some receivedAt, some _ =>
    if record.errorShown ∨ record.contentHint = some .implicit then none
    else if record.terminal.any (·.terminalClass = .abuseAllowanceExhausted) ∨
        record.lastFailureClass = some .rateRefusal then
      some (0, .rateLimit)
    else if record.terminal.isSome then some (0, .requestEnded)
    else if record.contentHint = some .resendable then
      some (receivedAt + RETRY_PLACEHOLDER_DEADLINE_MS, .deadline)
    else some (0, .contentHint)
  | _, _ => none

def hookFailing {α : Type} (hook : LifecycleM α) (otherwise : α) : LifecycleM α := fun run =>
  match hook run with
  | .error .failed next => .ok otherwise next
  | result => result

def reportDeliveryError (hooks : Hooks) : LifecycleM (Option ℤ) := do
  let now ← clock
  match ← getRetryRequest with
  | none => pure none
  | some record =>
    match deliveryErrorDue record with
    | none => pure none
    | some (dueAt, _) => do
        let processed ← getProcessedEnvelope now
        if processed.any (·.fulfilled) then pure none
        else if now < dueAt then pure (some dueAt)
        else do
          stepWhen hooks.onDeliveryError
          let _ ← updateRetryRequest record.retryId record.attempt fun record =>
            { record with errorShown := true }
          pure none

def reportDeliveryRecovered (hooks : Hooks) : LifecycleM PUnit := do
  let now ← clock
  match ← getRetryRequest with
  | none => pure ⟨⟩
  | some record =>
    if !record.errorShown || record.recoveredEmitted || record.receivedAt.isNone ||
        record.failedSender.isNone then
      pure ⟨⟩
    else do
      let processed ← getProcessedEnvelope now
      if !processed.any (·.completed) then pure ⟨⟩
      else do
        stepWhen hooks.onDeliveryRecovered
        let _ ← updateRetryRequest record.retryId record.attempt fun record =>
          { record with recoveredEmitted := true }

/-- Send the null message of a reset, unless the limit for the device refuses it. -/
def sendResetNullMessage (reset : RetryTerminalResetSteps) :
    LifecycleM RetryTerminalNullMessage := do
  let now ← clock
  step
  if reset.sentNullMessageSince then pure { outcome := .limited, endedAt := now }
  else do
    step
    let sentAt ← clock
    pure { outcome := if reset.sendNullMessage then .sent else .failed, endedAt := sentAt }

def archiveTerminalSession (reset : RetryTerminalResetSteps) (record : StoredRetryRequest)
    (device : RequestedSender) :
    LifecycleM (Option (StoredRetryRequest × RetryTerminalRecovery)) := do
  match record.recovery with
  | some recovery => pure (some (record, recovery))
  | none => do
      step
      step
      let recovery := { device, senderKey := reset.invalidateAccountSenderKeyHandoffs }
      match ← updateRetryRequest record.retryId record.attempt fun record =>
          { record with recovery := some recovery } with
      | none => pure none
      | some archived => do
          hookFailing step ⟨⟩
          pure (some (archived, recovery))

def resetStoredSession (reset : RetryTerminalResetSteps) (record : StoredRetryRequest)
    (device : RequestedSender) : LifecycleM (Option StoredRetryRequest) := do
  match ← archiveTerminalSession reset record device with
  | none => pure none
  | some (archived, recovery) =>
    if recovery.nullMessage.isSome then pure (some archived)
    else do
      let nullMessage ← sendResetNullMessage reset
      updateRetryRequest archived.retryId archived.attempt fun record =>
        { record with recovery := some { recovery with nullMessage := some nullMessage } }

/-- Reset the session of a `posting-deadline` end that is not emitted. -/
def resetRetryTerminalSession (reset : Option RetryTerminalResetSteps) :
    LifecycleM (Option StoredRetryRequest) := do
  match ← getRetryRequest with
  | none => pure none
  | some record =>
    match reset, record.envelope with
    | some reset, some envelope =>
      if record.terminal.any fun terminal =>
          !terminal.emitted && terminal.terminalClass = .postingDeadline then
        resetStoredSession reset record envelope.target
      else pure (some record)
    | _, _ => pure (some record)

def emitRetryTerminal (hooks : Hooks) (reset : Option RetryTerminalResetSteps) :
    LifecycleM PUnit := do
  match ← resetRetryTerminalSession reset with
  | none => pure ⟨⟩
  | some record =>
    match record.terminal with
    | none => pure ⟨⟩
    | some terminal =>
      if terminal.emitted then pure ⟨⟩
      else do
        stepWhen hooks.onRetryTerminal
        note (.terminalHook record.retryId terminal.terminalClass hooks.onRetryTerminal)
        let _ ← updateRetryRequest record.retryId record.attempt fun record =>
          { record with terminal := some { terminal with emitted := true } }

/-! ## Posts -/

inductive RetryRequestPostFailure where
  | terminal (terminalClass : RetryTerminalClass)
  | retry (failureClass : RetryFailureClass)

inductive PostReply where
  | accepted
  /-- A refusal that says that the Relay holds an earlier post of the attempt. -/
  | held
  | operationExpired
  | failed (failure : RetryRequestPostFailure)

/-- The length of a text in UTF-16 units, as the source counts it. -/
def textLength (value : String) : ℕ :=
  value.toList.foldl (fun length char => if char.toNat < 0x10000 then length + 1 else length + 2) 0

def isMessageId (value : String) : Bool :=
  decide (1 ≤ textLength value) && decide (textLength value ≤ MAX_MESSAGE_ID_LENGTH)

def retryAttemptClientMessageId (retryId : RetryId) (attempt : ℕ) : String :=
  if attempt = 1 then retryId ++ ":retry-request"
  else retryId ++ ":retry-request:" ++ toString attempt

def retryRequestEnvelope (request : RetryRequest) (sender : RequestedSender)
    (failedEnvelopeId : EnvelopeId) (retryId : RetryId) (attempt : ℕ) (now : ℤ) : Envelope where
  target := request.originalSender
  sender := sender
  ciphertext := {
    failedTimestamp := request.failedTimestamp
    deviceId := request.originalSender.deviceId
    reason := request.reason
    timestamp := request.timestamp
    ratchetKey := request.ratchetKey
    failedEnvelopeId
    retryId
    failedClientMessageId := request.failedClientMessageId.filter isMessageId }
  timestamp := now
  clientMessageId := retryAttemptClientMessageId retryId attempt

structure RetryRequestPass where
  hooks : Hooks
  localDevice : RequestedSender
  send : Option PostReply
  reset : Option RetryTerminalResetSteps

structure FailedEnvelope where
  clientMessageId : Option String := none
  senderKey : Bool
  groupMessage : Bool := false
  groupId : Option String := none
  contentHint : Option ContentHint := none

structure RetryRequestSource extends RetryRequestPass where
  failedEnvelopeId : EnvelopeId
  sender : RequestedSender
  /-- Whether the rate limit of the sender admits one more request. -/
  allow : Bool
  windowMs : ℤ
  failedEnvelope : Option FailedEnvelope := none
  createRequest : Bool → RetryRequest
  groupId : Option String := none
  generatedRetryId : RetryId

structure NewAttempt where
  failedEnvelopeId : EnvelopeId
  retryId : RetryId
  attempt : ℕ
  fingerprint : Option Fingerprint
  groupMessage : Bool
  failedClientMessageId : Option String
  groupId : Option String
  receivedAt : Option ℤ
  contentHint : Option ContentHint
  failedSender : Option RequestedSender
  errorShown : Bool := false
  recoveredEmitted : Bool := false
  deadlineAt : Option ℤ := none
  postingDeadlineAt : Option ℤ := none

def withFailedClientMessageId (request : RetryRequest) (failedClientMessageId : Option String) :
    RetryRequest :=
  { request with
    failedClientMessageId := failedClientMessageId.or request.failedClientMessageId }

def NewAttempt.record (attempt : NewAttempt) (envelope : Envelope) : StoredRetryRequest where
  failedEnvelopeId := attempt.failedEnvelopeId
  retryId := attempt.retryId
  attempt := attempt.attempt
  requestedAt := envelope.timestamp
  fingerprint := attempt.fingerprint
  answered := false
  groupMessage := attempt.groupMessage
  failedClientMessageId := attempt.failedClientMessageId
  groupId := attempt.groupId
  receivedAt := attempt.receivedAt
  contentHint := attempt.contentHint
  failedSender := attempt.failedSender
  errorShown := attempt.errorShown
  recoveredEmitted := attempt.recoveredEmitted
  deadlineAt := attempt.deadlineAt.getD (envelope.timestamp + RETRY_REQUEST_DEADLINE_MS)
  postingDeadlineAt :=
    some (attempt.postingDeadlineAt.getD
      (attempt.receivedAt.getD envelope.timestamp + RETRY_REQUEST_POSTING_WINDOW_MS))
  nextAttemptAt := some envelope.timestamp
  envelope := some envelope

def createAttempt (sender : RequestedSender) (request : RetryRequest) (attempt : NewAttempt) :
    LifecycleM StoredRetryRequest := do
  step
  let now ← clock
  let named := withFailedClientMessageId request attempt.failedClientMessageId
  let envelope := retryRequestEnvelope named sender attempt.failedEnvelopeId attempt.retryId
    attempt.attempt now
  storeRetryRequest (attempt.record envelope)
  pure (attempt.record envelope)

def nextAttempt (stored : StoredRetryRequest) : NewAttempt where
  failedEnvelopeId := stored.failedEnvelopeId
  retryId := stored.retryId
  attempt := stored.attempt + 1
  fingerprint := stored.fingerprint
  groupMessage := stored.groupMessage
  failedClientMessageId := stored.failedClientMessageId
  groupId := stored.groupId
  receivedAt := stored.receivedAt
  contentHint := stored.contentHint
  failedSender := stored.failedSender
  errorShown := stored.errorShown
  recoveredEmitted := stored.recoveredEmitted
  deadlineAt := some stored.deadlineAt
  postingDeadlineAt := some stored.retryRequestPostingDeadlineAt

def endRequest (stored : StoredRetryRequest) (terminalClass : RetryTerminalClass) :
    LifecycleM RetryRequestOutcome := do
  let now ← clock
  let _ ← updateRetryRequest stored.retryId stored.attempt fun record =>
    record.ended terminalClass now
  pure .terminal

def backoff (age : ℤ) : ℤ :=
  min MAX_RETRY_REQUEST_BACKOFF_MS (max MIN_RETRY_REQUEST_BACKOFF_MS age)

def sendEnvelope (poster : Poster) (record : StoredRetryRequest) : LifecycleM PUnit := do
  let now ← clock
  note (.posted poster record.retryId record.attempt record.envelope now)
  step

def completeAttempt (record : StoredRetryRequest) : LifecycleM RetryRequestOutcome := do
  note (.relayHolds record.retryId record.attempt)
  if record.nextAttemptAt.isSome || record.lastFailureClass.isSome then do
    let _ ← updateRetryRequest record.retryId record.attempt fun record =>
      { record with nextAttemptAt := none, lastFailureClass := none }
    pure .posted
  else pure .posted

def postponeAttempt (record : StoredRetryRequest) (failureClass : RetryFailureClass) :
    LifecycleM RetryRequestOutcome := do
  let now ← clock
  let _ ← updateRetryRequest record.retryId record.attempt fun stored =>
    { stored with
      lastFailureClass := some failureClass
      nextAttemptAt := some (now + backoff (now - record.requestedAt)) }
  pure .pending

def postAttempt (poster : Poster) (reply : PostReply) (record : StoredRetryRequest) :
    LifecycleM RetryRequestOutcome := do
  let now ← clock
  if record.retryRequestPostingDeadlineAt ≤ now then endRequest record .postingDeadline
  else do
    sendEnvelope poster record
    match reply with
    | .operationExpired => endRequest record .postingDeadline
    | .failed (.terminal terminalClass) => endRequest record terminalClass
    | .failed (.retry failureClass) => postponeAttempt record failureClass
    | .accepted => completeAttempt record
    | .held => completeAttempt record

structure RetryRequestFailure where
  fingerprint : Option Fingerprint
  stored : Option StoredRetryRequest
  member : Bool

def RetryRequestSource.failedGroupId (source : RetryRequestSource) : Option String :=
  source.groupId.or (source.failedEnvelope.bind (·.groupId))

def RetryRequestSource.firstAttempt (source : RetryRequestSource) (failed : RetryRequestFailure)
    (receivedAt : ℤ) : NewAttempt :=
  let own := if failed.member then none else source.failedEnvelope
  { failedEnvelopeId := source.failedEnvelopeId
    retryId := source.generatedRetryId
    attempt := 1
    fingerprint := failed.fingerprint
    groupMessage := own.any (·.groupMessage)
    failedClientMessageId := own.bind (·.clientMessageId)
    groupId := if failed.member then none else source.failedGroupId
    receivedAt := some receivedAt
    contentHint := own.bind (·.contentHint)
    failedSender := some source.sender }

def postFirstAttempt (source : RetryRequestSource) (failed : RetryRequestFailure)
    (reply : PostReply) : LifecycleM RetryRequestOutcome := do
  let senderKey := !failed.member && source.failedEnvelope.any (·.senderKey)
  step
  let receivedAt ← clock
  let record ← createAttempt source.localDevice (source.createRequest senderKey)
    (source.firstAttempt failed receivedAt)
  postAttempt .receive reply record

def postNextAttempt (source : RetryRequestSource) (failed : RetryRequestFailure)
    (stored : StoredRetryRequest) (reply : PostReply) : LifecycleM RetryRequestOutcome := do
  let senderKey := if failed.member then stored.groupMessage
    else source.failedEnvelope.any (·.senderKey)
  let record ← createAttempt source.localDevice (source.createRequest senderKey)
    (nextAttempt stored)
  postAttempt .receive reply record

def postRetryRequest (source : RetryRequestSource) (failed : RetryRequestFailure)
    (reply : PostReply) : LifecycleM RetryRequestOutcome := do
  match failed.stored with
  | none => postFirstAttempt source failed reply
  | some stored =>
    if stored.terminal.isSome || stored.envelope.isNone then pure .terminal
    else do
      let now ← clock
      if stored.deadlineAt ≤ now then endRequest stored stored.deadlineTerminalClass
      else if failed.member && stored.answered then
        if stored.answeredLastRetryAttempt then endRequest stored .attemptsExhausted
        else if stored.retryRequestPostingDeadlineAt ≤ now then pure .waiting
        else postNextAttempt source failed stored reply
      else if stored.nextAttemptAt.isNone ∧ stored.retryRequestPostingDeadlineAt ≤ now then
        pure .waiting
      else postAttempt .receive reply stored

/-! ## The request of a receive -/

/-- The record of a request that the rate limit refused before its first post. -/
def RetryRequestSource.refusedRecord (source : RetryRequestSource)
    (failed : RetryRequestFailure) (now : ℤ) : StoredRetryRequest where
  failedEnvelopeId := source.failedEnvelopeId
  retryId := source.generatedRetryId
  attempt := 1
  requestedAt := now
  fingerprint := failed.fingerprint
  answered := false
  groupMessage := source.failedEnvelope.any (·.groupMessage)
  failedClientMessageId := source.failedEnvelope.bind (·.clientMessageId)
  groupId := source.failedGroupId
  receivedAt := some now
  contentHint := source.failedEnvelope.bind (·.contentHint)
  failedSender := some source.sender
  deadlineAt := now + RETRY_REQUEST_DEADLINE_MS
  postingDeadlineAt := some (now + RETRY_REQUEST_POSTING_WINDOW_MS)
  terminal := some { terminalClass := .abuseAllowanceExhausted, endedAt := now, emitted := false }

def storeRefusedRequest (source : RetryRequestSource) (failed : RetryRequestFailure) :
    LifecycleM RetryRequestOutcome := do
  let now ← clock
  step
  storeRetryRequest (source.refusedRecord failed now)
  emitRetryTerminal source.hooks source.reset
  pure .terminal

def armFor (record : StoredRetryRequest) : LifecycleM PUnit :=
  if record.terminal.isNone then schedule record.nextPassAt else pure ⟨⟩

def postAndSettle (source : RetryRequestSource) (failed : RetryRequestFailure) :
    LifecycleM RetryRequestOutcome := do
  match source.send with
  | none => pure .skipped
  | some reply => do
      let outcome ← postRetryRequest source failed reply
      if outcome = .terminal then do
        emitRetryTerminal source.hooks source.reset
        pure outcome
      else do
        match ← getRetryRequest with
        | none => pure outcome
        | some record => do
            armFor record
            pure outcome

def deferMember (source : RetryRequestSource) (stored : StoredRetryRequest) (now : ℤ) :
    LifecycleM RetryRequestOutcome := do
  let _ ← updateRetryRequest stored.retryId stored.attempt fun record =>
    { record with
      nextAttemptAt := some (now + source.windowMs)
      lastFailureClass := some .rateRefusal }
  pure .deferred

def requestForMember (source : RetryRequestSource) (failed : RetryRequestFailure) :
    LifecycleM RetryRequestOutcome := do
  match failed.stored with
  | none => if source.allow then postAndSettle source failed else pure .deferred
  | some stored =>
    if stored.terminal.isSome then do
      emitRetryTerminal source.hooks source.reset
      pure .terminal
    else do
      let now ← clock
      if stored.answeredLastRetryAttempt ∨ stored.retryRequestPostingDeadlineAt ≤ now then
        postAndSettle source failed
      else if !stored.answered then postAndSettle source failed
      else if stored.lastFailureClass = some .rateRefusal ∧ now < stored.nextAttemptAt.getD 0 then
        pure .deferred
      else if source.allow then postAndSettle source failed
      else deferMember source stored now

def requestForEnvelope (source : RetryRequestSource) (failed : RetryRequestFailure) :
    LifecycleM RetryRequestOutcome := do
  if failed.stored.isSome then do
    emitRetryTerminal source.hooks source.reset
    pure .owned
  else if source.allow then postAndSettle source failed
  else storeRefusedRequest source failed

def requestFor (source : RetryRequestSource) (failed : RetryRequestFailure) :
    LifecycleM RetryRequestOutcome :=
  if failed.member then requestForMember source failed else requestForEnvelope source failed

def requestRetryFor (source : RetryRequestSource) (failed : RetryRequestFailure) :
    LifecycleM RetryRequestOutcome := do
  let outcome ← requestFor source failed
  match ← reportDeliveryError source.hooks with
  | none => pure outcome
  | some errorAt => do
      schedule errorAt
      pure outcome

def requestRetryInFamily (source : RetryRequestSource) (fingerprint : Option Fingerprint) :
    LifecycleM RetryRequestOutcome := do
  let stored ← getRetryRequest
  -- The Relay changed an envelope after its retry request.
  if stored.any fun record => fingerprint.isSome && fingerprint != record.fingerprint then
    pure .skipped
  else requestRetryFor source { fingerprint, stored, member := false }

def answerMember : Option (RetryId × ℕ) → LifecycleM PUnit
  | none => pure ⟨⟩
  | some (retryId, attempt) => markRetryRequestAnswered retryId attempt

def requestRetryOfMember (source : RetryRequestSource) (answer : Option (RetryId × ℕ)) :
    LifecycleM RetryRequestOutcome := do
  answerMember answer
  let stored ← getRetryRequest
  requestRetryFor source {
    fingerprint := stored.bind (·.fingerprint)
    stored
    member := true }

def recordGroup : Option StoredRetryRequest → Option String → LifecycleM PUnit
  | some request, some groupId =>
    if request.groupId.isSome then pure ⟨⟩
    else do
      let _ ← updateRetryRequest request.retryId request.attempt fun record =>
        { record with groupId := some groupId }
  | _, _ => pure ⟨⟩

def fulfillRequest (groupId : Option String) (write : ProcessedEnvelopeWrite) :
    LifecycleM PUnit := do
  let request ← getRetryRequest
  recordGroup request groupId
  storeProcessedEnvelope { write with fulfilled := true }

def attemptRecord (pass : RetryRequestPass) : LifecycleM (Option ℤ) := do
  match ← getRetryRequest with
  | none => pure none
  | some record =>
    if record.terminal.isSome then do
      emitRetryTerminal pass.hooks pass.reset
      pure none
    else
      match pass.send with
      | none => pure none
      | some reply => do
          let now ← clock
          let processed ← getProcessedEnvelope now
          if processed.any (·.fulfilled) then pure none
          else if record.deadlineAt ≤ now then do
            let _ ← updateRetryRequest record.retryId record.attempt fun stored =>
              stored.ended record.deadlineTerminalClass now
            emitRetryTerminal pass.hooks pass.reset
            pure none
          else if record.answered ∨ record.nextAttemptAt.isNone then pure (some record.deadlineAt)
          else if now < record.nextAttemptAt.getD now ∧
              now < record.retryRequestPostingDeadlineAt then
            pure (some record.nextPassAt)
          else do
            let outcome ← postAttempt .scheduler reply record
            if outcome = .terminal then do
              emitRetryTerminal pass.hooks pass.reset
              pure none
            else do
              match ← getRetryRequest with
              | none => pure none
              | some after =>
                if after.terminal.isSome then pure none
                else if after.answered then pure (some after.deadlineAt)
                else pure (some after.nextPassAt)

def passRecord (pass : RetryRequestPass) : LifecycleM PUnit := do
  let next ← attemptRecord pass
  let errorAt ← hookFailing (reportDeliveryError pass.hooks) none
  hookFailing (reportDeliveryRecovered pass.hooks) ⟨⟩
  match next, errorAt with
  | none, none => pure ⟨⟩
  | some passAt, none => schedule passAt
  | none, some passAt => schedule passAt
  | some next, some errorAt => schedule (min next errorAt)

inductive Call where
  | failed (source : RetryRequestSource) (fingerprint : Option Fingerprint)
  | memberFailed (source : RetryRequestSource) (answer : Option (RetryId × ℕ))
  | answered (retryId : RetryId) (attempt : ℕ)
  | fulfilled (groupId : Option String) (write : ProcessedEnvelopeWrite)
  | processed (write : ProcessedEnvelopeWrite)
  | recovered (hooks : Hooks)
  | scheduled (pass : RetryRequestPass)

def Call.computation : Call → LifecycleM PUnit
  | .failed source fingerprint => do
      let _ ← requestRetryInFamily source fingerprint
  | .memberFailed source answer => do
      let _ ← requestRetryOfMember source answer
  | .answered retryId attempt => markRetryRequestAnswered retryId attempt
  | .fulfilled groupId write => fulfillRequest groupId write
  | .processed write => storeProcessedEnvelope write
  | .recovered hooks => reportDeliveryRecovered hooks
  | .scheduled pass => passRecord pass

structure PacedCall where
  call : Call
  wait : ℕ
  pace : List Pace

def Run.step (run : Run) (paced : PacedCall) : Run :=
  finalState (paced.call.computation { run with now := run.now + paced.wait, pace := paced.pace })

def Run.steps (run : Run) (calls : List PacedCall) : Run :=
  calls.foldl Run.step run

end SignalProtocol.Retry.Lifecycle

import SignalProtocol.Basic
import SignalProtocol.Library.OrderedMap
import SignalProtocol.Library.Results

/-! # Outgoing message intents

The record of one send in the outbox, and the writes that end, complete and report it. -/

namespace SignalProtocol.Outbox

abbrev JsonText := String

inductive SendPhase where
  | recipient
  | sync
  deriving DecidableEq

inductive SendOutcome where
  | failed
  | acceptanceUnknown
  deriving DecidableEq

structure OutgoingGroupDevice where
  userId : String
  deviceId : ℕ
  deriving DecidableEq

/-- One message of one device. `others` is the JSON text of the fields that no write reads. -/
structure StoredOutgoingDeviceMessage where
  recipientUserId : String
  recipientDeviceId : ℕ
  clientMessageId : Option String
  ciphertext : String
  others : JsonText := ""
  deriving DecidableEq

inductive DestinationState where
  | pending
  | posted
  | accepted
  | refused
  | unknown
  deriving DecidableEq

inductive RepairRecovery where
  | staleDevice
  | deviceSet
  deriving DecidableEq

structure RepairedFor where
  recovery : RepairRecovery
  postMessageId : String
  deriving DecidableEq

structure StoredDestinationProgress where
  phase : SendPhase
  userId : String
  deviceId : ℕ
  postMessageId : String
  state : DestinationState
  requests : ℕ
  uncertain : Bool := false
  repaired : Bool := false
  repairedFor : Option RepairedFor := none
  refusalCode : Option String := none
  repairSpent : Bool := false
  messageId : Option String := none
  enqueuedAt : Option ℤ := none
  expiresAt : Option ℤ := none
  duplicate : Bool := false
  deriving DecidableEq

abbrev DestinationProgress := OrderedMap String StoredDestinationProgress

inductive UnresolvedReason where
  | exhausted
  | expired

structure StoredDeviceSetUnresolved where
  phase : SendPhase
  reason : UnresolvedReason
  restarts : ℕ
  lastRefusal : Option JsonText

structure DeviceSetRestarts where
  recipient : Option ℕ
  sync : Option ℕ

structure DeviceSetBundleMissing where
  recipient : Option (List OutgoingGroupDevice)
  sync : Option (List OutgoingGroupDevice)

structure SendResult where
  clientMessageId : String
  messageId : String
  timestamp : ℤ
  recipientDeviceCount : ℕ
  duplicate : Option Bool
  expiresAt : Option ℤ
  refusedDestinationCount : Option ℕ
  groupId : Option String
  deriving DecidableEq

structure StoredOutgoingMessageIntent where
  clientMessageId : String
  clientTimestamp : ℤ
  createdAt : ℤ
  sealedSenderAuth : Option JsonText := none
  preMessages : Option (List StoredOutgoingDeviceMessage) := none
  deviceMessages : List StoredOutgoingDeviceMessage
  syncMessages : List StoredOutgoingDeviceMessage
  groupCiphertext : Option String := none
  groupSenderKeyDistributionId : Option String := none
  groupSharedMessage : Option JsonText := none
  reconcilePending : Bool := false
  deviceSetRestarts : Option DeviceSetRestarts := none
  deviceSetUnresolved : Option StoredDeviceSetUnresolved := none
  deviceSetBundleMissing : Option DeviceSetBundleMissing := none
  syncPending : Bool := false
  deadlineAt : Option ℤ := none
  outcome : Option SendOutcome := none
  outcomeReportPending : Bool := false
  outcomeReportedAt : Option ℤ := none
  internal : Bool := false
  destinationProgress : Option DestinationProgress := none
  progressFromStart : Bool := false
  result : Option SendResult := none

def outgoingPostingWindowMs : ℤ := 24 * 60 * 60 * 1000

def outgoingMessageDeadlineAt (intent : StoredOutgoingMessageIntent) : ℤ :=
  intent.deadlineAt.getD (min intent.createdAt intent.clientTimestamp + outgoingPostingWindowMs)

def stampOutgoingDeadline (existing : StoredOutgoingMessageIntent) : StoredOutgoingMessageIntent :=
  if existing.result.isSome ∨ existing.deadlineAt.isSome then existing
  else { existing with deadlineAt := some (outgoingMessageDeadlineAt existing) }

structure OutgoingIntentEndReport where
  driven : Bool
  internal : Bool
  ended : Option StoredOutgoingMessageIntent := none

structure Write where
  stored : StoredOutgoingMessageIntent
  report : Option OutgoingIntentEndReport

def writeEnd (stored : StoredOutgoingMessageIntent) (call report : Option OutgoingIntentEndReport) :
    Write where
  stored
  report := if report.isSome then call.map ({ · with ended := some stored }) else call

def markReportPending (report : Option OutgoingIntentEndReport)
    (existing : StoredOutgoingMessageIntent) : StoredOutgoingMessageIntent :=
  if (report.any OutgoingIntentEndReport.driven) ∧ ¬ existing.internal then
    { existing with outcomeReportPending := true }
  else existing

def mergeProgress (existing : Option DestinationProgress) (progress : DestinationProgress) :
    DestinationProgress :=
  progress.entries.foldl (fun merged entry => merged.set entry.1 entry.2) (existing.getD ∅)

/-- `call` is the report of the send call that holds the lock of the intent. -/
def completeOutgoingMessageIntent (existing : Option StoredOutgoingMessageIntent)
    (call : Option OutgoingIntentEndReport) (result : SendResult) (syncPending : Bool) :
    Except String Write := do
  let some existing := existing
    | throw "Cannot complete a missing outgoing message intent"
  if existing.result.any (· ≠ result) then
    throw "Cannot replace an outgoing message intent with a different Relay result"
  let report := if existing.result.isSome then none else call
  let marked := markReportPending report existing
  let completed := { marked with
    result := some result
    reconcilePending := false
    preMessages := none
    deviceMessages := [] }
  let phased :=
    if syncPending then
      { completed with
        syncPending := true
        deviceSetRestarts :=
          match completed.deviceSetRestarts.bind DeviceSetRestarts.sync with
          | none => none
          | some sync => some { recipient := none, sync := some sync }
        deviceSetUnresolved :=
          completed.deviceSetUnresolved.filter fun unresolved => unresolved.phase = .sync
        deviceSetBundleMissing :=
          match completed.deviceSetBundleMissing.bind DeviceSetBundleMissing.sync with
          | none => none
          | some syncMissing => some { recipient := none, sync := some syncMissing } }
    else
      { completed with
        syncMessages := []
        syncPending := false
        deviceSetRestarts := none
        deviceSetUnresolved := none
        deviceSetBundleMissing := none }
  let stored := { phased with
    sealedSenderAuth := none
    groupCiphertext := none
    groupSenderKeyDistributionId := none
    groupSharedMessage := none }
  pure (writeEnd stored call report)

structure SendEnd where
  outcome : SendOutcome
  destinationProgress : DestinationProgress

def endOutgoingMessageIntent (existing : Option StoredOutgoingMessageIntent)
    (call : Option OutgoingIntentEndReport) (sendEnd : SendEnd) : Except String Write := do
  let some existing := existing
    | throw "Cannot end a missing outgoing message intent"
  if existing.result.isSome then return ⟨existing, call⟩
  if existing.outcome.any (· ≠ sendEnd.outcome) then
    throw "Cannot end an outgoing message intent with a different outcome"
  let report := if existing.outcome.isNone then call else none
  let marked := markReportPending report existing
  let stored := stampOutgoingDeadline { marked with
    outcome := some sendEnd.outcome
    destinationProgress :=
      some (mergeProgress marked.destinationProgress sendEnd.destinationProgress) }
  pure (writeEnd stored call report)

def markOutgoingDeviceSetUnresolved (existing : Option StoredOutgoingMessageIntent)
    (call : Option OutgoingIntentEndReport) (unresolved : StoredDeviceSetUnresolved)
    (sendEnd : Option SendEnd) : Except String Write := do
  let some existing := existing
    | throw "Cannot end the device set of a missing or completed outbox intent"
  if existing.result.isSome ∧ ¬ (unresolved.phase = .sync ∧ existing.syncPending) then
    throw "Cannot end the device set of a missing or completed outbox intent"
  let existing := { existing with deviceSetUnresolved := some unresolved }
  match sendEnd with
  | some sendEnd =>
    if unresolved.phase = .recipient ∧ existing.result.isNone ∧ existing.outcome.isNone then
      let marked := markReportPending call existing
      let stored := stampOutgoingDeadline { marked with
        outcome := some sendEnd.outcome
        destinationProgress :=
          some (mergeProgress marked.destinationProgress sendEnd.destinationProgress) }
      pure (writeEnd stored call call)
    else pure ⟨stampOutgoingDeadline existing, call⟩
  | none => pure ⟨stampOutgoingDeadline existing, call⟩

/-- The record after a report, or `none` where there is nothing to report. -/
def markOutgoingIntentReported (existing : Option StoredOutgoingMessageIntent) (now : ℤ) :
    Option StoredOutgoingMessageIntent := do
  let existing ← existing
  if existing.outcomeReportPending then
    some { existing with outcomeReportPending := false, outcomeReportedAt := some now }
  else none

end SignalProtocol.Outbox

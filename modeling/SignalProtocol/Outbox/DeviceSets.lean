import SignalProtocol.Outbox.ManualResends

/-! # The progress of the destinations of an intent

The writes of one request, of one answer and of one repair mark into the progress entry of a
destination. -/

namespace SignalProtocol.Outbox

structure ProgressDestination where
  phase : SendPhase
  userId : String
  deviceId : ℕ
  postMessageId : String

namespace StoredOutgoingMessageIntent

def progressEntry (existing : StoredOutgoingMessageIntent) (key : String) :
    Option StoredDestinationProgress :=
  (existing.destinationProgress.getD ∅).get? key

def setProgressEntry (existing : StoredOutgoingMessageIntent) (key : String)
    (entry : StoredDestinationProgress) : StoredOutgoingMessageIntent :=
  { existing with destinationProgress := some ((existing.destinationProgress.getD ∅).set key entry) }

end StoredOutgoingMessageIntent

/-- The stored entry, or a new one. An earlier SDK can have posted a device of an intent without
`progressFromStart`, so its new entry starts uncertain. -/
def outgoingDestinationProgressEntry (existing : StoredOutgoingMessageIntent) (key : String)
    (destination : ProgressDestination) : StoredDestinationProgress :=
  let entry := (existing.progressEntry key).getD {
    phase := destination.phase
    userId := destination.userId
    deviceId := destination.deviceId
    postMessageId := destination.postMessageId
    state := .pending
    requests := 0
    uncertain := !existing.progressFromStart }
  { entry with postMessageId := destination.postMessageId }

def markOutgoingDestinationRepaired (existing : StoredOutgoingMessageIntent) (phase : SendPhase)
    (message : StoredOutgoingDeviceMessage) (recovery : RepairRecovery) (replaced : Bool) :
    StoredOutgoingMessageIntent :=
  let postMessageId := message.clientMessageId.getD existing.clientMessageId
  let key := outgoingDestinationProgressKey postMessageId message.device
  let entry := outgoingDestinationProgressEntry existing key
    ⟨phase, message.recipientUserId, message.recipientDeviceId, postMessageId⟩
  existing.setProgressEntry key { entry with
    repaired := replaced || entry.repaired
    repairedFor := some ⟨recovery, postMessageId⟩ }

structure OutgoingDestinationProgressUpdate where
  destination : ProgressDestination
  update : DestinationUpdate

def pendingSync (existing : StoredOutgoingMessageIntent)
    (update : OutgoingDestinationProgressUpdate) : Bool :=
  update.destination.phase = .sync && existing.result.isSome && existing.syncPending

/-- The record and the entry that are stored, or `none` where nothing is written. -/
def recordOutgoingDestinationProgress (existing : Option StoredOutgoingMessageIntent)
    (key : String) (update : OutgoingDestinationProgressUpdate) :
    Except String (Option (StoredOutgoingMessageIntent × StoredDestinationProgress)) := do
  let some existing := existing
    | throw "Cannot record the progress of a missing outgoing message intent"
  if (existing.result.isSome || existing.outcome.isSome) && !pendingSync existing update then
    return none
  let entry := applyDestinationUpdate
    (outgoingDestinationProgressEntry existing key update.destination) update.update
  pure (some (stampOutgoingDeadline (existing.setProgressEntry key entry), entry))

inductive ProgressStep where
  | record (key : String) (update : OutgoingDestinationProgressUpdate)
  | repaired (phase : SendPhase) (message : StoredOutgoingDeviceMessage)
      (recovery : RepairRecovery) (replaced : Bool)
  | other (written : StoredOutgoingMessageIntent)

def stepProgress (existing : StoredOutgoingMessageIntent) :
    ProgressStep → StoredOutgoingMessageIntent
  | .record key update =>
    match recordOutgoingDestinationProgress (some existing) key update with
    | .ok (some written) => written.1
    | _ => existing
  | .repaired phase message recovery replaced =>
    markOutgoingDestinationRepaired existing phase message recovery replaced
  | .other written =>
    { written with
      destinationProgress := existing.destinationProgress
      progressFromStart := existing.progressFromStart }

def runProgress (existing : StoredOutgoingMessageIntent) (steps : List ProgressStep) :
    StoredOutgoingMessageIntent :=
  steps.foldl stepProgress existing

end SignalProtocol.Outbox

/-! ## Device sets of an intent

The writes that remove devices from a stored intent and append the messages of other devices, under
the order of the outbox. -/

namespace SignalProtocol.Outbox.DeviceSets

open Results

inductive IntentKind where
  | direct
  | group
  deriving DecidableEq

structure OutboxRecord extends StoredOutgoingMessageIntent where
  kind : IntentKind

abbrev OutboxRecords := OrderedMap String OutboxRecord

abbrev OutboxM := EStateM String OutboxRecords

def outgoingMessageDeviceKey (message : StoredOutgoingDeviceMessage) : String :=
  outgoingDeviceKey message.device

/-- The messages with each new message appended once. A stored message of the same device must be
equal to the new one. -/
def appendOutgoingDeviceMessages (messages additions : List StoredOutgoingDeviceMessage)
    (refusal : String) : Except String (List StoredOutgoingDeviceMessage) :=
  additions.foldlM (fun messages message =>
    match messages.find? fun candidate =>
      outgoingMessageDeviceKey candidate = outgoingMessageDeviceKey message with
    | some prior => if prior ≠ message then throw refusal else pure messages
    | none => pure (messages ++ [message])) messages

def keptMessages (removed : List OutgoingGroupDevice)
    (messages : List StoredOutgoingDeviceMessage) : List StoredOutgoingDeviceMessage :=
  messages.filter fun message => outgoingMessageDeviceKey message ∉ removed.map outgoingDeviceKey

def groupRefusal : String := "Cannot replace a persisted group transmission"

def syncRefusal : String := "Cannot replace a persisted sync transmission"

structure DeviceListChange where
  removed : List OutgoingGroupDevice
  preMessages : List StoredOutgoingDeviceMessage
  deviceMessages : List StoredOutgoingDeviceMessage
  syncMessages : List StoredOutgoingDeviceMessage

def changeDeviceLists (existing : StoredOutgoingMessageIntent) (change : DeviceListChange)
    (syncRefusal : String) : Except String StoredOutgoingMessageIntent := do
  let preMessages ← appendOutgoingDeviceMessages
    (keptMessages change.removed (existing.preMessages.getD [])) change.preMessages groupRefusal
  let deviceMessages ← appendOutgoingDeviceMessages
    (keptMessages change.removed existing.deviceMessages) change.deviceMessages groupRefusal
  let syncMessages ← appendOutgoingDeviceMessages
    (keptMessages change.removed existing.syncMessages) change.syncMessages syncRefusal
  pure { existing with
    preMessages := if preMessages = [] then none else some preMessages
    deviceMessages
    syncMessages }

/-- The shared body of a change: absent, `null`, or the body that replaces the stored one. -/
inductive SharedMessageChange where
  | unchanged
  | removed
  | replaced (body : JsonText)

def applyGroupSharedMessage (intent : StoredOutgoingMessageIntent) :
    SharedMessageChange → StoredOutgoingMessageIntent
  | .unchanged => intent
  | .removed => { intent with groupSharedMessage := none }
  | .replaced body => { intent with groupSharedMessage := some body }

def DeviceListChange.removes (change : DeviceListChange) (message : StoredOutgoingDeviceMessage) :
    Bool :=
  outgoingMessageDeviceKey message ∈ change.removed.map outgoingDeviceKey

structure OutgoingGroupDeviceSetChange extends DeviceListChange where
  groupSharedMessage : SharedMessageChange

def markReplaced (existing : StoredOutgoingMessageIntent) (change : DeviceListChange) :
    StoredOutgoingMessageIntent :=
  (change.preMessages ++ change.deviceMessages).foldl (fun existing message =>
    if change.removes message then
      markOutgoingDestinationRepaired existing .recipient message .staleDevice true
    else existing) existing

def reconcileOutgoingGroupDeviceSet (clientMessageId : String)
    (change : OutgoingGroupDeviceSetChange) : OutboxM OutboxRecord := do
  let records ← get
  match records.get? clientMessageId with
  | none => throw "Cannot change the devices of a missing or completed group outbox intent"
  | some existing =>
    if existing.kind ≠ .group ∨ existing.result.isSome then
      throw "Cannot change the devices of a missing or completed group outbox intent"
    else do
      let changed ← fromResult (changeDeviceLists existing.toStoredOutgoingMessageIntent
        change.toDeviceListChange groupRefusal)
      let marked := markReplaced (applyGroupSharedMessage changed change.groupSharedMessage)
        change.toDeviceListChange
      let written : OutboxRecord :=
        { existing with toStoredOutgoingMessageIntent := stampOutgoingDeadline marked }
      set (records.set clientMessageId written)
      pure written

structure OutgoingDeviceSetRepair extends DeviceListChange where
  phase : SendPhase
  restarts : ℕ
  bundleMissing : List OutgoingGroupDevice
  groupSharedMessage : SharedMessageChange

def restartsOf (existing : StoredOutgoingMessageIntent) : SendPhase → ℕ
  | .recipient => (existing.deviceSetRestarts.bind (·.recipient)).getD 0
  | .sync => (existing.deviceSetRestarts.bind (·.sync)).getD 0

def setRestarts (restarts : ℕ) (phase : SendPhase) (stored : Option DeviceSetRestarts) :
    DeviceSetRestarts :=
  let stored := stored.getD ⟨none, none⟩
  match phase with
  | .recipient => { stored with recipient := some restarts }
  | .sync => { stored with sync := some restarts }

def setBundleMissing (missing : List OutgoingGroupDevice) (phase : SendPhase)
    (stored : Option DeviceSetBundleMissing) : Option DeviceSetBundleMissing :=
  let listed := if missing = [] then none else some missing
  match phase with
  | .recipient =>
    let otherMissing := stored.bind (·.sync)
    if listed = none ∧ otherMissing = none then none else some ⟨listed, otherMissing⟩
  | .sync =>
    let otherMissing := stored.bind (·.recipient)
    if listed = none ∧ otherMissing = none then none else some ⟨otherMissing, listed⟩

def markAppended (existing : StoredOutgoingMessageIntent) (change : DeviceListChange) :
    StoredOutgoingMessageIntent :=
  let recipients := (change.preMessages ++ change.deviceMessages).foldl (fun existing message =>
    markOutgoingDestinationRepaired existing .recipient message .deviceSet
      (change.removes message)) existing
  change.syncMessages.foldl (fun existing message =>
    markOutgoingDestinationRepaired existing .sync message .deviceSet (change.removes message))
    recipients

def repairOutgoingDeviceSet (clientMessageId : String) (repair : OutgoingDeviceSetRepair) :
    OutboxM OutboxRecord := do
  let records ← get
  match records.get? clientMessageId with
  | none => throw "Cannot repair the device set of a missing or completed outbox intent"
  | some existing =>
    if existing.result.isSome && !(repair.phase = .sync && existing.syncPending) then
      throw "Cannot repair the device set of a missing or completed outbox intent"
    else if existing.deviceSetUnresolved.isSome then
      throw "Cannot repair the device set of a terminal outbox intent"
    else if
        repair.restarts ≠ restartsOf existing.toStoredOutgoingMessageIntent repair.phase + 1 then
      throw "Cannot repair the device set of an outbox intent from a different restart"
    else do
      let changed ← fromResult (changeDeviceLists existing.toStoredOutgoingMessageIntent
        repair.toDeviceListChange syncRefusal)
      let marked := applyGroupSharedMessage (markAppended changed repair.toDeviceListChange)
        repair.groupSharedMessage
      let counted : StoredOutgoingMessageIntent := { marked with
        deviceSetRestarts := some (setRestarts repair.restarts repair.phase
          marked.deviceSetRestarts)
        deviceSetBundleMissing := setBundleMissing repair.bundleMissing repair.phase
          marked.deviceSetBundleMissing }
      let written : OutboxRecord :=
        { existing with toStoredOutgoingMessageIntent := stampOutgoingDeadline counted }
      set (records.set clientMessageId written)
      pure written

end SignalProtocol.Outbox.DeviceSets

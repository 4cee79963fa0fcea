import SignalProtocol.Library.Transition
import SignalProtocol.Outbox.Intent

/-! # Manual resends of an ended send

The resends that an ended intent keeps, the writes to them, and the calls that plan, store, post and
end them. -/

open List

namespace SignalProtocol.Outbox

open List

def nulText : String := String.singleton (Char.ofNat 0)

def outgoingDeviceKey (device : OutgoingGroupDevice) : String :=
  device.userId ++ nulText ++ toString device.deviceId

def outgoingDestinationProgressKey (postMessageId : String) (device : OutgoingGroupDevice) :
    String :=
  postMessageId ++ nulText ++ outgoingDeviceKey device

structure SendDestination where
  device : OutgoingGroupDevice
  postMessageId : String

namespace SendDestination

def key (destination : SendDestination) : String :=
  outgoingDestinationProgressKey destination.postMessageId destination.device

end SendDestination

namespace StoredOutgoingDeviceMessage

def device (message : StoredOutgoingDeviceMessage) : OutgoingGroupDevice :=
  ⟨message.recipientUserId, message.recipientDeviceId⟩

/-- The destination of a message that is posted under `clientMessageId` or an ID of its own. -/
def destination (clientMessageId : String) (message : StoredOutgoingDeviceMessage) :
    SendDestination :=
  ⟨message.device, message.clientMessageId.getD clientMessageId⟩

end StoredOutgoingDeviceMessage

def sendDestinations (clientMessageId : String) (messages : List StoredOutgoingDeviceMessage) :
    List SendDestination :=
  messages.map (·.destination clientMessageId)

def distinctBy {α : Type*} (key : α → String) : List α → List α
  | [] => []
  | first :: rest => first :: (distinctBy key rest).filter (key · ≠ key first)

theorem mem_of_mem_distinctBy {α : Type*} {key : α → String} {elements : List α} {element : α}
    (hmem : element ∈ distinctBy key elements) : element ∈ elements := by
  induction elements with
  | nil => exact hmem
  | cons first rest ih =>
    rw [distinctBy, mem_cons] at hmem
    rcases hmem with rfl | hmem
    · exact mem_cons_self
    · exact mem_cons_of_mem _ (ih (mem_of_mem_filter hmem))

def recipientDestinations (intent : StoredOutgoingMessageIntent) (self : OutgoingGroupDevice) :
    List SendDestination :=
  distinctBy SendDestination.key (sendDestinations intent.clientMessageId
    ((intent.preMessages.getD [] ++ intent.deviceMessages).filter (·.device ≠ self)))

def isAccepted (progress : Option DestinationProgress) (destination : SendDestination) : Bool :=
  ((progress.getD ∅).get? destination.key).any (·.state = .accepted)

/-! ## Stored resends -/

structure StoredManualResend where
  manualMessageId : String
  createdAt : ℤ
  operationEpochMilliseconds : ℤ
  deadlineAt : ℤ
  messages : List StoredOutgoingDeviceMessage
  destinationProgress : DestinationProgress := ∅
  result : Option SendResult := none
  outcome : Option SendOutcome := none
  outcomeReportedAt : Option ℤ := none

inductive ManualResendEnd where
  | result (result : SendResult)
  | outcome (sendEnd : SendEnd)

inductive AnswerClass where
  | accepted
  | refused
  | pending
  | unknown
  deriving DecidableEq

def AnswerClass.state : AnswerClass → DestinationState
  | .accepted => .accepted
  | .refused => .refused
  | .pending => .pending
  | .unknown => .unknown

structure DestinationAnswer where
  answer : AnswerClass
  repairSpent : Bool := false
  refusalCode : Option String := none
  messageId : Option String := none
  enqueuedAt : Option ℤ := none
  expiresAt : Option ℤ := none
  duplicate : Bool := false

inductive DestinationUpdate where
  | request
  | answer (update : DestinationAnswer)

/-- A refusal of the repaired message, of the kind that the recovery of its repair answers. -/
def refusesRepair (entry : StoredDestinationProgress) (postMessageId : String)
    (refusalCode : Option String) : Bool :=
  match entry.repairedFor with
  | none => entry.repaired
  | some repair =>
    if repair.postMessageId ≠ postMessageId then false
    else
      match repair.recovery with
      | .deviceSet => refusalCode = some "device-set"
      | .staleDevice => refusalCode = some "STALE_DEVICE" ∨ refusalCode = some "device-rejection"

def applyDestinationUpdate (entry : StoredDestinationProgress) :
    DestinationUpdate → StoredDestinationProgress
  | .request =>
    let counted := { entry with
      requests := entry.requests + 1
      uncertain := entry.uncertain ∨ entry.state = .posted }
    if entry.state = .accepted then counted
    else { counted with state := .posted, refusalCode := none }
  | .answer update =>
    if entry.state = .accepted then entry
    else
      let answered := { entry with
        state := update.answer.state
        uncertain := entry.uncertain ∨ update.answer = .unknown
        refusalCode := none }
      match update.answer with
      | .accepted => { answered with
          messageId := update.messageId.or entry.messageId
          enqueuedAt := update.enqueuedAt.or entry.enqueuedAt
          expiresAt := update.expiresAt.or entry.expiresAt
          duplicate := entry.duplicate ∨ update.duplicate }
      | .refused => { answered with
          refusalCode := update.refusalCode
          repairSpent := entry.repairSpent ∨ update.repairSpent ∨
            refusesRepair entry entry.postMessageId update.refusalCode }
      | _ => answered

def isOpenManualResend (resend : StoredManualResend) : Bool :=
  resend.result = none ∧ resend.outcome = none

def manualResendMessageId (clientMessageId : String) (n : ℕ) : String :=
  clientMessageId ++ ":manual:" ++ toString n

def changeResend (manualMessageId : String) (change : StoredManualResend → StoredManualResend) :
    List StoredManualResend → List StoredManualResend
  | [] => []
  | resend :: resends =>
    if resend.manualMessageId = manualMessageId then change resend :: resends
    else resend :: changeResend manualMessageId change resends

def findResend (manualMessageId : String) (resends : List StoredManualResend) :
    Option StoredManualResend :=
  resends.find? fun resend => resend.manualMessageId = manualMessageId

def addOutgoingManualResend (intent : StoredOutgoingMessageIntent)
    (resends : List StoredManualResend) (resend : StoredManualResend) :
    Except String (List StoredManualResend) := do
  if intent.result.isSome ∨ intent.outcome = none then
    throw "Only an ended outgoing message intent takes a manual resend"
  else if resends.any isOpenManualResend then
    throw "An outgoing message intent has an open manual resend"
  else if resend.manualMessageId ≠
      manualResendMessageId intent.clientMessageId (resends.length + 1) then
    throw "A manual resend has the wrong message ID"
  else pure (resends ++ [resend])

def updateProgress (destination : SendDestination) (update : DestinationUpdate)
    (resend : StoredManualResend) : StoredManualResend :=
  let entry := (resend.destinationProgress.get? destination.key).getD
    { phase := .recipient, userId := destination.device.userId,
      deviceId := destination.device.deviceId, postMessageId := destination.postMessageId,
      state := .pending, requests := 0 }
  let addressed := { entry with postMessageId := destination.postMessageId }
  { resend with
    destinationProgress :=
      resend.destinationProgress.set destination.key (applyDestinationUpdate addressed update) }

def recordOutgoingManualResendProgress (resends : List StoredManualResend)
    (manualMessageId : String) (destination : SendDestination) (update : DestinationUpdate) :
    List StoredManualResend :=
  changeResend manualMessageId (fun resend =>
    if isOpenManualResend resend then updateProgress destination update resend else resend) resends

def endResend (manualEnd : ManualResendEnd) (at_ : ℤ) (resend : StoredManualResend) :
    StoredManualResend :=
  match manualEnd with
  | .result result => { resend with result := some result, outcomeReportedAt := some at_ }
  | .outcome sendEnd =>
    { resend with
      outcome := some sendEnd.outcome
      destinationProgress :=
        mergeProgress (some resend.destinationProgress) sendEnd.destinationProgress
      outcomeReportedAt := some at_ }

def endOutgoingManualResend (resends : List StoredManualResend) (manualMessageId : String)
    (manualEnd : ManualResendEnd) (at_ : ℤ) :
    List StoredManualResend × Option StoredManualResend :=
  match findResend manualMessageId resends with
  | some resend =>
    if isOpenManualResend resend then
      (changeResend manualMessageId (endResend manualEnd at_) resends,
        some (endResend manualEnd at_ resend))
    else (resends, none)
  | none => (resends, none)

def deviceKeyOf (userId : String) (deviceId : ℕ) : String :=
  userId ++ ":" ++ toString deviceId

def resentDevices (resends : List StoredManualResend) : List String :=
  resends.flatMap fun resend =>
    (resend.destinationProgress.values.filter (·.state = .accepted)).map fun entry =>
      deviceKeyOf entry.userId entry.deviceId

/-- The devices with a destination that no post of the send got accepted, and that no earlier
resend got accepted. -/
def manualResendTargets (intent : StoredOutgoingMessageIntent) (self : OutgoingGroupDevice)
    (resends : List StoredManualResend) : List OutgoingGroupDevice :=
  distinctBy (fun device => deviceKeyOf device.userId device.deviceId)
    (((recipientDestinations intent self).filter fun destination =>
      ¬ isAccepted intent.destinationProgress destination ∧
        deviceKeyOf destination.device.userId destination.device.deviceId ∉
          resentDevices resends).map SendDestination.device)

def reliabilityRecordTtlMs : ℤ := 30 * 24 * 60 * 60 * 1000

/-- A new resend before its encryption; `planned` are the resends that the plan was made for. -/
structure ManualResendPlan where
  targets : List OutgoingGroupDevice
  manualMessageId : String
  createdAt : ℤ
  planned : List StoredManualResend

/-- `content` says whether the content that the caller gave, if any, is the content of the send. -/
def planManualResend (intent : StoredOutgoingMessageIntent) (self : OutgoingGroupDevice)
    (resends : List StoredManualResend) (content : Option Bool) (now : ℤ) :
    Except String ManualResendPlan := do
  if content = none then
    throw "A new manual resend needs the content"
  else if content = some false then
    throw "A clientMessageId cannot identify two different logical sends"
  else if intent.createdAt + reliabilityRecordTtlMs ≤ now then
    throw "Only a send younger than 30 days takes a manual resend"
  else if manualResendTargets intent self resends = [] then
    throw "The Relay accepted each recipient device of this send"
  else pure ⟨manualResendTargets intent self resends,
    manualResendMessageId intent.clientMessageId (resends.length + 1), now, resends⟩

def encryptManualResend (plan : ManualResendPlan) (encrypt : OutgoingGroupDevice → String) :
    StoredManualResend where
  manualMessageId := plan.manualMessageId
  createdAt := plan.createdAt
  operationEpochMilliseconds := plan.createdAt
  deadlineAt := plan.createdAt + outgoingPostingWindowMs
  messages := plan.targets.map fun device => {
    recipientUserId := device.userId
    recipientDeviceId := device.deviceId
    clientMessageId := some plan.manualMessageId
    ciphertext := encrypt device }

def terminalRefusalCodes : List String :=
  ["NOT_FOUND", "TOKEN_INVALID", "AUTHORITY_DENIED", "SCOPE_MISMATCH", "OPERATION_EXPIRED",
    "UPGRADE_REQUIRED", "DEVICE_REVOKED"]

/-- A stored refusal that no recovery of a call can change. -/
def provenRefused (entry : Option StoredDestinationProgress) : Bool :=
  entry.any fun entry => entry.state = .refused ∧ ¬ entry.uncertain ∧
    (entry.refusalCode.any (· ∈ terminalRefusalCodes) ∨ entry.repairSpent)

inductive ManualPost where
  | idle
  | checked (at_ : ℤ)
  | stored (at_ : ℤ)

structure PostingCall where
  call : ℕ
  resend : StoredManualResend
  posts : ℕ → ManualPost := fun _ => .idle

namespace PostingCall

def setPost (posting : PostingCall) (index : ℕ) (post : ManualPost) : PostingCall :=
  { posting with posts := Function.update posting.posts index post }

def destination (posting : PostingCall) (message : StoredOutgoingDeviceMessage) :
    SendDestination :=
  message.destination posting.resend.manualMessageId

/-- Neither an acceptance nor a proven refusal of the destination was stored when the call began. -/
def isDue (posting : PostingCall) (message : StoredOutgoingDeviceMessage) : Bool :=
  let entry := posting.resend.destinationProgress.get? (posting.destination message).key
  ¬ entry.any (·.state = .accepted) ∧ ¬ provenRefused entry

end PostingCall

structure ManualRequest where
  manualMessageId : String
  operationEpochMilliseconds : ℤ
  message : StoredOutgoingDeviceMessage
  checkedAt : ℤ
  entry : Option StoredDestinationProgress

structure ResendWorld where
  resends : List StoredManualResend := []
  plans : List ManualResendPlan := []
  posting : Option PostingCall := none
  clock : ℤ
  requests : List ManualRequest := []
  reports : List (ℕ × String) := []

inductive ResendEvent where
  /-- `resendOutgoingMessage` up to its encryption, or the post of an open resend. -/
  | resend (call : ℕ) (content : Option Bool) (manualEnd : ManualResendEnd)
  | store (call index : ℕ) (encrypt : OutgoingGroupDevice → String) (manualEnd : ManualResendEnd)
  | drop (index : ℕ)
  | replay (call : ℕ) (manualEnd : ManualResendEnd)
  | endPast (call : ℕ) (manualMessageId : String) (manualEnd : ManualResendEnd)
  | check (index : ℕ)
  | write (index : ℕ)
  | request (index : ℕ)
  | answer (index : ℕ) (update : DestinationAnswer)
  | finish (manualEnd : ManualResendEnd)
  | leave
  | crash
  | tick (now : ℤ)

section

variable (intent : StoredOutgoingMessageIntent) (self : OutgoingGroupDevice)

def isEndedIntent : Bool := intent.result.isNone ∧ intent.outcome.isSome

namespace ResendWorld

def close (world : ResendWorld) (call : ℕ) (manualMessageId : String)
    (manualEnd : ManualResendEnd) : ResendWorld :=
  let ended := endOutgoingManualResend world.resends manualMessageId manualEnd world.clock
  { world with
    resends := ended.1
    posting := none
    reports := if ended.2.isSome then world.reports ++ [(call, manualMessageId)]
      else world.reports }

def continueManualResend (world : ResendWorld) (call : ℕ) (resend : StoredManualResend)
    (manualEnd : ManualResendEnd) : ResendWorld :=
  if resend.deadlineAt ≤ world.clock then
    world.close call resend.manualMessageId manualEnd
  else { world with posting := some { call := call, resend := resend } }

def record (world : ResendWorld) (posting : PostingCall) (message : StoredOutgoingDeviceMessage)
    (update : DestinationUpdate) : ResendWorld :=
  { world with
    resends := recordOutgoingManualResendProgress world.resends
      posting.resend.manualMessageId (posting.destination message) update }

def storedEntry (world : ResendWorld) (posting : PostingCall)
    (message : StoredOutgoingDeviceMessage) : Option StoredDestinationProgress :=
  (findResend posting.resend.manualMessageId world.resends).bind fun resend =>
    resend.destinationProgress.get? (posting.destination message).key

def start (world : ResendWorld) (posting : PostingCall) (message : StoredOutgoingDeviceMessage)
    (checkedAt : ℤ) : ResendWorld :=
  { world with requests := world.requests ++ [⟨posting.resend.manualMessageId,
      posting.resend.operationEpochMilliseconds, message, checkedAt,
      world.storedEntry posting message⟩] }

def nextPost (world : ResendWorld) (posting : PostingCall) (index : ℕ)
    (message : StoredOutgoingDeviceMessage) : ResendEvent → Option ResendWorld
  | .check _ =>
    if posting.isDue message ∧ world.clock < posting.resend.deadlineAt then
      some { world with posting := some (posting.setPost index (.checked world.clock)) }
    else none
  | .write _ =>
    match posting.posts index with
    | .checked at_ =>
      some { world.record posting message .request with
        posting := some (posting.setPost index (.stored at_)) }
    | _ => none
  | .request _ =>
    match posting.posts index with
    | .stored at_ =>
      some { world.start posting message at_ with
        posting := some (posting.setPost index .idle) }
    | _ => none
  | .answer _ update => some (world.record posting message (.answer update))
  | _ => none

def atMessage (world : ResendWorld) (index : ℕ) (event : ResendEvent) : Option ResendWorld := do
  let posting ← world.posting
  let message ← posting.resend.messages[index]?
  world.nextPost posting index message event

def nextResend (world : ResendWorld) (call : ℕ) (content : Option Bool)
    (manualEnd : ManualResendEnd) : ResendWorld :=
  match world.resends.find? isOpenManualResend with
  | some resend => world.continueManualResend call resend manualEnd
  | none =>
    match planManualResend intent self world.resends content world.clock with
    | .ok plan => { world with plans := world.plans ++ [plan] }
    | .error _ => world

def storePlan (world : ResendWorld) (call : ℕ) (plan : ManualResendPlan)
    (encrypt : OutgoingGroupDevice → String) (manualEnd : ManualResendEnd) : ResendWorld :=
  match addOutgoingManualResend intent world.resends (encryptManualResend plan encrypt) with
  | .ok resends => ({ world with resends := resends } : ResendWorld).continueManualResend call
      (encryptManualResend plan encrypt) manualEnd
  | .error _ => world

def next (world : ResendWorld) (event : ResendEvent) : Option ResendWorld :=
  match event with
  | .resend call content manualEnd =>
    if world.posting.isNone ∧ isEndedIntent intent then
      some (world.nextResend intent self call content manualEnd)
    else none
  | .store call index encrypt manualEnd => do
      let plan ← world.plans[index]?
      if world.posting.isNone then
        some (({ world with plans := world.plans.eraseIdx index } : ResendWorld).storePlan intent
          call plan encrypt manualEnd)
      else none
  | .drop index => some { world with plans := world.plans.eraseIdx index }
  | .replay call manualEnd => do
      let resend ← world.resends.find? isOpenManualResend
      if world.posting.isNone ∧ isEndedIntent intent then
        some (world.continueManualResend call resend manualEnd)
      else none
  | .endPast call manualMessageId manualEnd => do
      let resend ← findResend manualMessageId world.resends
      if world.posting.isNone ∧ isOpenManualResend resend ∧ resend.deadlineAt ≤ world.clock then
        some (world.close call manualMessageId manualEnd)
      else none
  | .check index | .write index | .request index | .answer index _ => world.atMessage index event
  | .finish manualEnd =>
    world.posting.map fun posting =>
      world.close posting.call posting.resend.manualMessageId manualEnd
  | .leave => some { world with posting := none }
  | .crash => some { world with plans := [], posting := none }
  | .tick now => if world.clock ≤ now then some { world with clock := now } else none

end ResendWorld

def resendSystem : TransitionSystem ResendWorld where
  init world := world.resends = [] ∧ world.plans = [] ∧ world.posting = none ∧
    world.requests = [] ∧ world.reports = []
  step before after := ∃ event, before.next intent self event = some after

end

end SignalProtocol.Outbox

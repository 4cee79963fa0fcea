import Mathlib.Order.Basic
import SignalProtocol.Basic
import SignalProtocol.Library.Transition

/-! # Receive record

What a device must verify before it delivers the content of a group, and how it bounds the fetches
that claims can cause. -/

namespace SignalProtocol.Groups

inductive GroupRecordSource where
  | provisioning
  | context
  | sync
  | thisDevice
  deriving DecidableEq

/-- A verified answer of the group server that refuses this device. -/
inductive GroupFetchDenial where
  | groupNotFound
  | accessRevoked
  | groupNotReadable
  deriving DecidableEq

structure DeniedFetch where
  atRevision : ℕ
  reason : GroupFetchDenial
  deriving DecidableEq

structure GroupFetchState where
  attempts : ℕ
  nextAttemptAt : ℕ
  head : Option ℕ := none
  fetchedClaims : List ℕ := []
  denied : Option DeniedFetch := none
  deriving DecidableEq

structure GroupUnverifiedOrigin where
  senderId : String
  senderDeviceId : ℕ
  createdAt : ℕ
  deriving DecidableEq

structure GroupReceiveRecord where
  requiredRevision : ℕ
  source : GroupRecordSource
  init : GroupFetchState
  unverified : Option GroupUnverifiedOrigin := none
  deriving DecidableEq

inductive GroupReceiveStatus where
  | ready
  | stale
  | pending
  | denied

def groupFetchWindowMs : ℕ := 30000

def groupFetchMaxBackoffMs : ℕ := 60 * 60000

def newGroupReceiveRecord (source : GroupRecordSource) : GroupReceiveRecord where
  requiredRevision := 0
  source
  init := { attempts := 0, nextAttemptAt := 0 }

def groupReceiveStatus (record : Option GroupReceiveRecord) (stateRevision : Option ℕ) :
    GroupReceiveStatus :=
  let required := (record.map GroupReceiveRecord.requiredRevision).getD 0
  let denied := (record.bind fun record => record.init.denied).any fun denied =>
    required ≤ denied.atRevision
  if denied then .denied
  else
    match stateRevision with
    | none => .pending
    | some revision => if required ≤ revision then .ready else .stale

def groupFetchBackoffMs (attempts : ℕ) : ℕ :=
  min (groupFetchWindowMs * 2 ^ attempts) groupFetchMaxBackoffMs

/-! ## GroupFetcher

The decisions of the group fetcher, and the record after each claim and each fetch. -/

def groupFetchClaimsPerWindow : ℕ := 16

inductive UnavailableReason where
  | updatePending
  | updateFailed
  deriving DecidableEq

inductive GroupFreshness where
  | fresh (revision : ℕ)
  | denied (reason : GroupFetchDenial)
  | unavailable (reason : UnavailableReason) (retryAfterMs : ℕ)
  deriving DecidableEq

structure GroupContextSender where
  senderId : String
  senderDeviceId : ℕ

structure GroupRevisionClaim where
  revision : ℕ
  change : Option Bytes
  deriving DecidableEq

/-- An outcome that the record records. `server` is false for a carried change. -/
inductive RecordedOutcome where
  | synced (head : ℕ) (server : Bool)
  | denied (reason : GroupFetchDenial)
  | failed
  deriving DecidableEq

inductive FetchOutcome where
  | recorded (outcome : RecordedOutcome)
  | notApplied
  deriving DecidableEq

structure GroupFetcherOptions where
  /-- Whether the client has an `applyChange`. -/
  appliesChanges : Bool
  deadlineMs : ℕ

structure SyncError where
  isNotReadableRejection : Bool
  message : String

/-- The denial that a refusal of the group server states, if it states one. -/
def groupFetchDenial (error : SyncError) : Option GroupFetchDenial :=
  if error.isNotReadableRejection then some .groupNotReadable
  else if "GROUP_NOT_FOUND:".toList.isPrefixOf error.message.toList then some .groupNotFound
  else if "GROUP_ACCESS_REVOKED:".toList.isPrefixOf error.message.toList then some .accessRevoked
  else none

def syncOutcome : Except SyncError ℕ → RecordedOutcome
  | .ok head => .synced head true
  | .error error =>
    match groupFetchDenial error with
    | some reason => .denied reason
    | none => .failed

def claimRecord (current : Option GroupReceiveRecord) (revision : ℕ) : GroupReceiveRecord :=
  let record := current.getD (newGroupReceiveRecord .thisDevice)
  if record.requiredRevision < revision then { record with requiredRevision := revision }
  else record

def admitContextRecord (current : Option GroupReceiveRecord) (revision : ℕ)
    (sender : GroupContextSender) (createdAt : ℕ) : GroupReceiveRecord :=
  let record := current.getD (newGroupReceiveRecord .context)
  { record with
    requiredRevision := max record.requiredRevision revision
    unverified := some (record.unverified.getD ⟨sender.senderId, sender.senderDeviceId, createdAt⟩) }

def admitSyncRecord (current : Option GroupReceiveRecord) (revision : ℕ) : GroupReceiveRecord :=
  let record := { current.getD (newGroupReceiveRecord .sync) with unverified := none }
  if record.requiredRevision < revision then { record with requiredRevision := revision }
  else record

inductive Decision where
  | answer (freshness : GroupFreshness)
  | fetch (target required : ℕ)
  | apply (target required : ℕ) (wait : GroupFreshness)

/-- The decision on a claim above the state. A window whose claims hold the target is not asked
again: the group is evaluated at the head of the window. -/
def windowDecision (options : GroupFetcherOptions) (init : GroupFetchState) (revision : Option ℕ)
    (claim : Option GroupRevisionClaim) (target required now : ℕ) : Decision :=
  if now < init.nextAttemptAt then
    let waitForWindow := .unavailable .updateFailed (init.nextAttemptAt - now)
    if target ∈ init.fetchedClaims then
      match revision, init.head with
      | some revision, some head =>
        if head ≤ revision then .answer (.fresh revision) else .answer waitForWindow
      | _, _ => .answer waitForWindow
    else if groupFetchClaimsPerWindow ≤ init.fetchedClaims.length then
      -- A carried change needs no server call.
      if (claim.bind GroupRevisionClaim.change).isSome ∧ options.appliesChanges then
        .apply target required waitForWindow
      else .answer waitForWindow
    else .fetch target required
  else .fetch target required

def fetchStateOf (record : Option GroupReceiveRecord) : GroupFetchState :=
  (record.map GroupReceiveRecord.init).getD { attempts := 0, nextAttemptAt := 0 }

def requiredOf (record : Option GroupReceiveRecord) : ℕ :=
  (record.map GroupReceiveRecord.requiredRevision).getD 0

def targetOf (claim : Option GroupRevisionClaim) (required : ℕ) : ℕ :=
  (claim.map GroupRevisionClaim.revision).getD required

/-- `decide` of the fetcher, on the record and the revision of the state that it read. -/
def decideFreshness (options : GroupFetcherOptions) (record : Option GroupReceiveRecord)
    (revision : Option ℕ) (claim : Option GroupRevisionClaim) (now : ℕ) : Decision :=
  match groupReceiveStatus record revision, (fetchStateOf record).denied with
  | .denied, some denied => .answer (.denied denied.reason)
  | _, _ =>
    let required := requiredOf record
    let target := targetOf claim required
    match revision with
    | some revision =>
      if target ≤ revision then .answer (.fresh revision)
      else windowDecision options (fetchStateOf record) revision claim target required now
    | none => windowDecision options (fetchStateOf record) none claim target required now

def windowClaims (record : GroupReceiveRecord) (target now : ℕ) : List ℕ :=
  let claims := if now < record.init.nextAttemptAt then record.init.fetchedClaims else []
  if target ∈ claims then claims else claims ++ [target]

/-- The record after a fetch for `target`. A fetch outside the budget leaves the window as it is. -/
def recordOutcome (current : Option GroupReceiveRecord) (target : ℕ) (outcome : RecordedOutcome)
    (budgeted : Bool) (required : ℕ) (raised : Option ℕ) (now : ℕ) : GroupReceiveRecord :=
  let record := current.getD (newGroupReceiveRecord .thisDevice)
  let claims := windowClaims record target now
  let attempts := record.init.attempts + 1
  match outcome with
  | .synced head server =>
    let requiredRevision :=
      if server then max head (raised.getD head) else record.requiredRevision
    if ¬ budgeted then { record with requiredRevision, unverified := none }
    else
      { record with
        requiredRevision
        unverified := none
        init := {
          attempts := 0
          nextAttemptAt := now + groupFetchWindowMs
          head := some head
          fetchedClaims := claims } }
  | .denied reason =>
    { record with
      init := {
        attempts
        nextAttemptAt := now + groupFetchBackoffMs attempts
        fetchedClaims := claims
        denied := some ⟨max target required, reason⟩ } }
  | .failed =>
    { record with
      init := {
        attempts
        nextAttemptAt := now + groupFetchBackoffMs attempts
        fetchedClaims := claims
        denied := record.init.denied } }

/-! ## Runs of the fetcher

The fetcher of one group between two awaits of any of its calls: the calls of `ensureFresh` and of
`sync`, the fetches that run, and the claims and writes in between. -/

inductive FetchStage where
  | applying
  | syncing
  | recording (outcome : RecordedOutcome)
  | settling (outcome : FetchOutcome)
  deriving DecidableEq

structure RunningFetch where
  id : ℕ
  target : ℕ
  required : ℕ
  raised : Option ℕ
  serverCall : Bool
  stage : FetchStage
  /-- Whether a manual sync started it, and the claims since then. No code reads them. -/
  manual : Bool
  claimed : List ℕ

structure SettledFetch where
  id : ℕ
  target : ℕ
  outcome : FetchOutcome

structure RecordRead where
  record : Option GroupReceiveRecord
  window : ℕ
  outcomes : ℕ
  deriving DecidableEq

structure PlannedFetch where
  target : ℕ
  required : ℕ
  claim : Option GroupRevisionClaim
  /-- The answer of the call when no server call is allowed and the change does not apply. -/
  wait : Option GroupFreshness
  deriving DecidableEq

inductive CallState where
  | idle
  | round (claim : Option GroupRevisionClaim) (round : ℕ)
  | joined (claim : Option GroupRevisionClaim) (round fetch : ℕ)
  | reading (claim : Option GroupRevisionClaim) (round : ℕ) (record : Option RecordRead)
      (revision : Option (Option ℕ))
  | starting (round : ℕ) (read : RecordRead) (plan : PlannedFetch)
  | awaiting (plan : PlannedFetch) (fetch : ℕ)
  | failed
  | answered (freshness : GroupFreshness)
  | syncRound
  | syncReading
  | syncStarting (required : ℕ)
  | syncAwaiting (fetch : ℕ)
  | syncEnded (outcome : RecordedOutcome)
  deriving DecidableEq

/-- A call of `sync` that brought the group to `head`, in the window of its record. -/
structure SyncCall where
  fetch : ℕ
  target : ℕ
  head : ℕ
  window : ℕ
  deriving DecidableEq

structure DenialTrace where
  target : ℕ
  required : ℕ
  claimed : List ℕ

structure FetcherTrace where
  window : ℕ := 0
  outcomes : ℕ := 0
  syncs : List SyncCall := []
  denial : Option DenialTrace := none
  started : List ℕ := []

structure FetcherState where
  now : ℕ
  record : Option GroupReceiveRecord
  revision : Option ℕ
  running : List RunningFetch
  inFlight : Option ℕ
  nextFetch : ℕ
  settled : List SettledFetch
  calls : ℕ → CallState
  trace : FetcherTrace

inductive FetcherEvent where
  | tick (elapsed : ℕ)
  | store (revision : ℕ)
  | claim (revision : ℕ)
  | admitContext (revision : ℕ) (sender : GroupContextSender)
  | admitSync (revision : ℕ)
  | ensureFresh (call : ℕ) (claim : Option GroupRevisionClaim)
  | sync (call : ℕ)
  | readRecord (call : ℕ)
  | readState (call : ℕ)
  | advance (call : ℕ)
  | timeOut (call : ℕ)
  | start (call : ℕ)
  | applyReturns (fetch : ℕ) (result : Option ℕ)
  | syncReturns (fetch : ℕ) (result : Except SyncError ℕ)
  | recordOutcome (fetch : ℕ)
  | settle (fetch : ℕ)

namespace FetcherState

def initial (now : ℕ) (revision : Option ℕ) : FetcherState where
  now
  record := none
  revision
  running := []
  inFlight := none
  nextFetch := 0
  settled := []
  calls := fun _ => .idle
  trace := {}

variable (options : GroupFetcherOptions) (state : FetcherState)

def nextAttemptAt : ℕ := (fetchStateOf state.record).nextAttemptAt

def WindowOpen : Prop := state.now < state.nextAttemptAt

instance : Decidable state.WindowOpen := inferInstanceAs (Decidable (_ < _))

def setCall (call : ℕ) (callState : CallState) : FetcherState :=
  { state with calls := Function.update state.calls call callState }

def readNow : RecordRead := ⟨state.record, state.trace.window, state.trace.outcomes⟩

def raiseInFlight (fetch : RunningFetch) (revision : ℕ) : RunningFetch :=
  if state.inFlight = some fetch.id then
    { fetch with raised := some (max (fetch.raised.getD revision) revision) }
  else fetch

def withClaim (revision : ℕ) (record : GroupReceiveRecord) : FetcherState :=
  { state with
    record := some record
    running := state.running.map fun fetch =>
      { state.raiseInFlight fetch revision with claimed := revision :: fetch.claimed }
    trace := { state.trace with
      denial := state.trace.denial.map fun denial =>
        { denial with claimed := revision :: denial.claimed } } }

/-- `fetch` of the fetcher. A manual sync carries no claim. -/
def startFetch (target required : ℕ) (change serverCall manual : Bool) : FetcherState :=
  let started :=
    if manual ∨ ¬ serverCall then state.trace.started
    else if state.WindowOpen then state.trace.started ++ [target]
    else [target]
  { state with
    running := state.running ++ [{
      id := state.nextFetch
      target
      required
      raised := none
      serverCall
      stage := if change then .applying else if serverCall then .syncing else .settling .notApplied
      manual
      claimed := [] }]
    inFlight := some state.nextFetch
    nextFetch := state.nextFetch + 1
    trace := { state.trace with started } }

def setStage (fetch : RunningFetch) (stage : FetchStage) : FetcherState :=
  { state with
    running := state.running.map fun other =>
      if other.id = fetch.id then { other with stage } else other }

def afterApply (fetch : RunningFetch) : Option ℕ → FetchStage
  | some head =>
    if fetch.target ≤ head then .recording (.synced head false)
    else if fetch.serverCall then .syncing else .settling .notApplied
  | none => if fetch.serverCall then .syncing else .settling .notApplied

def recordTrace (fetch : RunningFetch) (outcome : RecordedOutcome) : FetcherTrace :=
  let opens := fetch.serverCall ∧ ¬ state.WindowOpen
  let window := if opens then state.trace.window + 1 else state.trace.window
  { window
    outcomes := if fetch.serverCall then state.trace.outcomes + 1 else state.trace.outcomes
    syncs :=
      match outcome with
      | .synced head true => state.trace.syncs ++ [⟨fetch.id, fetch.target, head, window⟩]
      | _ => state.trace.syncs
    denial :=
      match outcome with
      | .synced _ _ => if fetch.serverCall then none else state.trace.denial
      | .denied _ => some ⟨fetch.target, fetch.required, fetch.claimed⟩
      | .failed => state.trace.denial
    started :=
      if ¬ opens then state.trace.started
      else if fetch.manual then [] else [fetch.target] }

def withOutcome (fetch : RunningFetch) (outcome : RecordedOutcome) : FetcherState :=
  let record := recordOutcome state.record fetch.target outcome fetch.serverCall fetch.required
    fetch.raised state.now
  { state.setStage fetch (.settling (.recorded outcome)) with
    record := some record
    trace := state.recordTrace fetch outcome }

def settleFetch (fetch : RunningFetch) (outcome : FetchOutcome) : FetcherState :=
  { state with
    running := state.running.filter fun other => other.id ≠ fetch.id
    inFlight := none
    settled := state.settled ++ [⟨fetch.id, fetch.target, outcome⟩] }

def pending : GroupFreshness := .unavailable .updatePending options.deadlineMs

def outcomeOf (fetch : ℕ) : Option FetchOutcome :=
  (state.settled.find? fun settled => settled.id = fetch).map SettledFetch.outcome

def answerOf (plan : PlannedFetch) : FetchOutcome → CallState
  | .recorded (.synced head _) => .answered (.fresh head)
  | .recorded (.denied reason) => .answered (.denied reason)
  | .recorded .failed => .failed
  | .notApplied => .answered (plan.wait.getD (pending options))

def syncResultOf : FetchOutcome → CallState
  | .recorded (.synced _ false) => .syncRound
  | .recorded outcome => .syncEnded outcome
  | .notApplied => .syncRound

def advanceCall : CallState → Option CallState
  | .round claim round =>
    if 3 ≤ round then some (.answered (pending options))
    else
      match state.inFlight with
      | some fetch => some (.joined claim round fetch)
      | none => some (.reading claim round none none)
  | .joined claim round fetch =>
    (state.outcomeOf fetch).map fun _ => .round claim (round + 1)
  | .reading claim round (some read) (some revision) =>
    match decideFreshness options read.record revision claim state.now with
    | .answer freshness => some (.answered freshness)
    | .fetch target required => some (.starting round read ⟨target, required, claim, none⟩)
    | .apply target required wait =>
      some (.starting round read ⟨target, required, claim, some wait⟩)
  | .starting round _ plan =>
    if state.inFlight.isSome then some (.round plan.claim (round + 1)) else none
  | .awaiting plan fetch => (state.outcomeOf fetch).map (answerOf options plan)
  | .failed => some (.answered (.unavailable .updateFailed (state.nextAttemptAt - state.now)))
  | .syncRound =>
    match state.inFlight with
    | some fetch => some (.syncAwaiting fetch)
    | none => some .syncReading
  | .syncStarting _ => state.inFlight.map .syncAwaiting
  | .syncAwaiting fetch => (state.outcomeOf fetch).map syncResultOf
  | _ => none

def readRecordCall : CallState → Option CallState
  | .reading claim round none revision =>
    some (.reading claim round (some state.readNow) revision)
  | .syncReading =>
    some (.syncStarting (requiredOf state.record))
  | _ => none

def readStateCall : CallState → Option CallState
  | .reading claim round read none => some (.reading claim round read (some state.revision))
  | _ => none

def timeOutCall : CallState → Option CallState
  | .joined _ _ _ => some (.answered (pending options))
  | .awaiting _ _ => some (.answered (pending options))
  | _ => none

def startCall (call : ℕ) : Option FetcherState :=
  if state.inFlight.isSome then none
  else
    match state.calls call with
    | .starting _ _ plan =>
      let change := (plan.claim.bind GroupRevisionClaim.change).isSome ∧ options.appliesChanges
      let fetching := state.startFetch plan.target plan.required change plan.wait.isNone false
      some (fetching.setCall call (.awaiting plan state.nextFetch))
    | .syncStarting required =>
      let fetching := state.startFetch required required false true true
      some (fetching.setCall call (.syncAwaiting state.nextFetch))
    | _ => none

def fetchAt (fetch : ℕ) : Option RunningFetch :=
  state.running.find? fun running => running.id = fetch

def perform : FetcherEvent → Option FetcherState
  | .tick elapsed => some { state with now := state.now + elapsed }
  | .store revision => some { state with revision := some revision }
  | .claim revision => some (state.withClaim revision (claimRecord state.record revision))
  | .admitContext revision sender =>
    some (state.withClaim revision (admitContextRecord state.record revision sender state.now))
  | .admitSync revision =>
    some (state.withClaim revision (admitSyncRecord state.record revision))
  | .ensureFresh call claim =>
    if state.calls call = .idle then some (state.setCall call (.round claim 0)) else none
  | .sync call => if state.calls call = .idle then some (state.setCall call .syncRound) else none
  | .readRecord call => (state.readRecordCall (state.calls call)).map (state.setCall call)
  | .readState call => (state.readStateCall (state.calls call)).map (state.setCall call)
  | .advance call => (state.advanceCall options (state.calls call)).map (state.setCall call)
  | .timeOut call => (timeOutCall options (state.calls call)).map (state.setCall call)
  | .start call => state.startCall options call
  | .applyReturns fetch result => do
      let running ← state.fetchAt fetch
      if running.stage = .applying then
        some (state.setStage running (afterApply running result))
      else none
  | .syncReturns fetch result => do
      let running ← state.fetchAt fetch
      if running.stage = .syncing then
        some (state.setStage running (.recording (syncOutcome result)))
      else none
  | .recordOutcome fetch => do
      let running ← state.fetchAt fetch
      match running.stage with
      | .recording outcome => some (state.withOutcome running outcome)
      | _ => none
  | .settle fetch => do
      let running ← state.fetchAt fetch
      match running.stage with
      | .settling outcome => some (state.settleFetch running outcome)
      | _ => none

def run (events : List FetcherEvent) : Option FetcherState :=
  events.foldlM (fun state event => state.perform options event) state

def system (options : GroupFetcherOptions) (allowed : FetcherState → FetcherEvent → Prop) :
    TransitionSystem FetcherState where
  init state := ∃ now revision, state = initial now revision
  step state next := ∃ event, allowed state event ∧ state.perform options event = some next

end FetcherState

end SignalProtocol.Groups

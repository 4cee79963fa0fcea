import SignalProtocol.Library.Transition

/-! # The relay request bound of one client

Requests share slots, and a call of `all`, alone or as a phase, waits for all of its tasks. -/

namespace SignalProtocol.FanOut

/-- An item of `waiting`: its listener removes it when its signal aborts. -/
structure Waiter where
  request : ℕ
  stopSignal : Option ℕ

structure BoundedFanOut where
  inFlight : ℕ := 0
  waiting : List Waiter := []

/-- What `acquire` does with a request, and `release` with the first waiter. -/
inductive Acquired where
  | stopped
  | granted
  | waits

namespace BoundedFanOut

def acquire (limit : ℕ) (fanOut : BoundedFanOut) (waiter : Waiter) (aborted : Bool) :
    Acquired × BoundedFanOut :=
  if aborted then (.stopped, fanOut)
  else if fanOut.inFlight < limit then
    (.granted, { fanOut with inFlight := fanOut.inFlight + 1 })
  else (.waits, { fanOut with waiting := fanOut.waiting ++ [waiter] })

/-- The waiter that gets the slot, if there is one. -/
def release (fanOut : BoundedFanOut) : Option Waiter × BoundedFanOut :=
  match fanOut.waiting with
  | next :: waiting => (some next, { fanOut with waiting })
  | [] => (none, { fanOut with inFlight := fanOut.inFlight - 1 })

/-- The listeners of a signal: each one that still waits leaves `waiting`. -/
def abandon (fanOut : BoundedFanOut) (signal : ℕ) : List Waiter × BoundedFanOut :=
  (fanOut.waiting.filter (·.stopSignal = some signal),
    { fanOut with waiting := fanOut.waiting.filter fun waiter => waiter.stopSignal ≠ some signal })

end BoundedFanOut

section

variable {V E : Type}

abbrev FanOutOutcome (V E : Type) : Type := Except E V

structure FanOutError (V E : Type) where
  message : String
  errors : List E
  outcomes : List (FanOutOutcome V E)

inductive AllError (V E : Type) where
  | stopped
  | items (error : FanOutError V E)

def errorsOf (outcomes : List (FanOutOutcome V E)) : List E :=
  outcomes.filterMap fun
    | .ok _ => none
    | .error error => some error

/-- `detail` is the message of an error. -/
def fanOutError (detail : Option E → String) (outcomes : List (FanOutOutcome V E)) :
    FanOutError V E where
  message := s!"{(errorsOf outcomes).length} of {outcomes.length} fan-out items failed: " ++
    detail (errorsOf outcomes).head?
  errors := errorsOf outcomes
  outcomes

def itemResult (failure : AllError V E) : FanOutOutcome V E → Except (AllError V E) V
  | .ok value => .ok value
  | .error _ => .error failure

/-- The loop of `all` after its barrier. -/
def allResult (detail : Option E → String) (aborted : Bool) (outcomes : List (FanOutOutcome V E)) :
    Except (AllError V E) (List V) :=
  outcomes.mapM (itemResult (if aborted then .stopped else .items (fanOutError detail outcomes)))

/-- A call of `all`: the outcome of each of its tasks, in input order, once the task settled. -/
structure AllCall (V E : Type) where
  stopSignal : Option ℕ
  outcomes : List (Option (FanOutOutcome V E))
  result : Option (Except (AllError V E) (List V))

/-- The state of `FanOutPhases`, with the call that a running phase awaits, if it is one of
`all`. -/
inductive PhaseState where
  | ready
  | running (call : Option ℕ)
  | failed

structure FanOutPhases where
  state : PhaseState := .ready
  stopSignal : Option ℕ

inductive PhaseError where
  | error (message : String)
  | stopped

def FanOutPhases.start (phases : FanOutPhases) (aborted : Bool) (call : Option ℕ) :
    Except PhaseError FanOutPhases :=
  match phases.state with
  | .running _ => throw (.error "A phase started before the phase before it settled")
  | .failed => throw (.error "A phase started after the phase before it failed")
  | .ready => if aborted then throw .stopped else return { phases with state := .running call }

/-- One fan-out and its requests. A request has the number of its call; those of `granted` have a
slot and did not resume, those of `running` sent. -/
structure RequestWorld where
  fanOut : BoundedFanOut := {}
  aborted : ℕ → Bool := fun _ => false
  requests : ℕ := 0
  granted : List ℕ := []
  running : List ℕ := []
  settled : List ℕ := []
  stopped : List ℕ := []

inductive RequestEvent where
  | request (stopSignal : Option ℕ)
  | resume (request : ℕ)
  /-- The request of `send` returns, or throws. -/
  | settle (request : ℕ) (ok : Bool)
  | abort (signal : ℕ)

namespace RequestWorld

variable (limit : ℕ) (world : RequestWorld)

def isAborted (stopSignal : Option ℕ) : Bool := stopSignal.any world.aborted

def request (stopSignal : Option ℕ) : RequestWorld :=
  let acquired := world.fanOut.acquire limit ⟨world.requests, stopSignal⟩
    (world.isAborted stopSignal)
  let called := { world with fanOut := acquired.2, requests := world.requests + 1 }
  match acquired.1 with
  | .stopped => { called with stopped := world.stopped ++ [world.requests] }
  | .granted => { called with granted := world.granted ++ [world.requests] }
  | .waits => called

def resume (request : ℕ) : RequestWorld :=
  { world with
    granted := world.granted.erase request
    running := world.running ++ [request] }

/-- `release` runs however the request ends. -/
def settle (request : ℕ) : RequestWorld :=
  let released := world.fanOut.release
  { world with
    fanOut := released.2
    running := world.running.erase request
    settled := world.settled ++ [request]
    granted := world.granted ++ (released.1.map (·.request)).toList }

def abort (signal : ℕ) : RequestWorld :=
  let abandoned := world.fanOut.abandon signal
  { world with
    fanOut := abandoned.2
    aborted := Function.update world.aborted signal true
    stopped := world.stopped ++ abandoned.1.map (·.request) }

def step : RequestEvent → Option RequestWorld
  | .request stopSignal => some (world.request limit stopSignal)
  | .resume request => if request ∈ world.granted then some (world.resume request) else none
  | .settle request _ => if request ∈ world.running then some (world.settle request) else none
  | .abort signal => some (world.abort signal)

end RequestWorld

structure FanOutWorld (V E : Type) where
  slots : RequestWorld := {}
  all : ℕ → Option (AllCall V E) := fun _ => none
  phases : ℕ → Option FanOutPhases := fun _ => none

inductive FanOutEvent (V E : Type) where
  | slots (event : RequestEvent)
  | all (call items : ℕ) (stopSignal : Option ℕ)
  | taskSettles (call index : ℕ) (outcome : FanOutOutcome V E)
  | allReturns (call : ℕ)
  | phases (id : ℕ) (stopSignal : Option ℕ)
  | phase (id : ℕ) (fanOut : Option (ℕ × ℕ))
  | phaseSettles (id : ℕ) (ok : Bool)

namespace FanOutWorld

variable (limit : ℕ) (detail : Option E → String) (world : FanOutWorld V E)

def setCall (call : ℕ) (started : AllCall V E) : FanOutWorld V E :=
  { world with all := Function.update world.all call (some started) }

def setPhases (id : ℕ) (phases : FanOutPhases) : FanOutWorld V E :=
  { world with phases := Function.update world.phases id (some phases) }

/-- A stop before the call starts no task. -/
def startAll (call items : ℕ) (stopSignal : Option ℕ) : FanOutWorld V E :=
  world.setCall call (if world.slots.isAborted stopSignal then
      ⟨stopSignal, [], some (.error .stopped)⟩
    else ⟨stopSignal, List.replicate items none, none⟩)

def taskSettles (call index : ℕ) (outcome : FanOutOutcome V E) : Option (FanOutWorld V E) := do
  let started ← world.all call
  guard (started.outcomes[index]? matches some none)
  return world.setCall call
    { started with outcomes := started.outcomes.set index (some outcome) }

/-- The barrier of `Promise.all` opens when every task settled. -/
def allReturns (call : ℕ) : Option (FanOutWorld V E) := do
  let started ← world.all call
  guard started.result.isNone
  let outcomes ← started.outcomes.mapM id
  return world.setCall call
    { started with
      result := some (allResult detail (world.slots.isAborted started.stopSignal) outcomes) }

/-- A phase that starts too early runs nothing. -/
def startPhase (id : ℕ) (fanOut : Option (ℕ × ℕ)) : Option (FanOutWorld V E) := do
  let phases ← world.phases id
  guard (fanOut.all fun call => (world.all call.1).isNone)
  match phases.start (world.slots.isAborted phases.stopSignal) (fanOut.map Prod.fst), fanOut with
  | .error _, _ => return world
  | .ok started, none => return world.setPhases id started
  | .ok started, some (call, items) =>
    return (world.setPhases id started).startAll call items phases.stopSignal

def phaseSettles (id : ℕ) (ok : Bool) : Option (FanOutWorld V E) := do
  let phases ← world.phases id
  let .running call := phases.state | none
  let result := (call.bind world.all).bind (·.result)
  guard (call.isNone ∨ result.any fun result => result.isOk = ok)
  return world.setPhases id { phases with state := if ok then .ready else .failed }

def step : FanOutEvent V E → Option (FanOutWorld V E)
  | .slots event => do return { world with slots := ← world.slots.step limit event }
  | .all call items stopSignal => do
    guard (world.all call).isNone
    return world.startAll call items stopSignal
  | .taskSettles call index outcome => world.taskSettles call index outcome
  | .allReturns call => world.allReturns detail call
  | .phases id stopSignal => do
    guard (world.phases id).isNone
    return world.setPhases id { stopSignal }
  | .phase id fanOut => world.startPhase id fanOut
  | .phaseSettles id ok => world.phaseSettles id ok

end FanOutWorld

/-- The runs of the requests, calls, phases and stops of one client, in any order. -/
def fanOutRuns (limit : ℕ) (detail : Option E → String) : TransitionSystem (FanOutWorld V E) where
  init world := world = {}
  step before after := ∃ event, before.step limit detail event = some after

end

end SignalProtocol.FanOut

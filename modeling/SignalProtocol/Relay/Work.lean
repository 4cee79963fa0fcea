import Mathlib.Data.List.Nodup

/-! # Relay work

The tracker of relay work items, its stops and the lock waits of the items, with the steps of all
items and stops in any order. -/

namespace SignalProtocol.Relay

/-- Where an item is. In `thrown`, RelayWorkStopped is on its way out of the task. -/
inductive Place where
  | sdk
  | app
  | lock
  | thrown
  | ended
  deriving DecidableEq

structure RelayWork where
  place : Place := .ended
  appCalls : ℕ := 0
  /-- `stopSignal.aborted`. -/
  stopped : Bool := false

namespace RelayWork

def inApp (work : RelayWork) : Bool := 0 < work.appCalls

def stop (work : RelayWork) : RelayWork :=
  { work with
    stopped := true
    place := if work.place = .lock then .thrown else work.place }

def proceed (work : RelayWork) : RelayWork :=
  if work.stopped then { work with place := .thrown } else work

/-- The entry of `callApp`. Inside another app call, a throw of `proceed` goes to app code. -/
def enterApp (work : RelayWork) : RelayWork :=
  if work.stopped then
    if work.place = .app then work else { work with place := .thrown }
  else { work with place := .app, appCalls := work.appCalls + 1 }

def leaveApp (work : RelayWork) : RelayWork :=
  { work with
    appCalls := work.appCalls - 1
    place := if 1 < work.appCalls then .app else if work.stopped then .thrown else .sdk }

/-- `acquireUntilStopped` at a lock that is taken. -/
def wait (work : RelayWork) : RelayWork :=
  { work with place := if work.stopped then .thrown else .lock }

end RelayWork

inductive WaitPhase where
  | queued
  | abandoned
  | ran
  | released
  deriving DecidableEq

structure LockWait (K : Type) where
  key : K
  item : ℕ
  phase : WaitPhase

structure Locks (K : Type) where
  holders : List (K × ℕ) := []
  nextWait : ℕ := 0
  waits : ℕ → Option (LockWait K) := fun _ => none

variable {K : Type} [DecidableEq K]

namespace LockWait

/-- The abort listener of `acquireUntilStopped`. -/
def abandon (wait : LockWait K) : LockWait K :=
  if wait.phase = .queued then { wait with phase := .abandoned } else wait

def turn (wait : LockWait K) : LockWait K :=
  { wait with phase := if wait.phase = .queued then .ran else .released }

end LockWait

def RelayWork.turn (work : RelayWork) (phase : WaitPhase) : RelayWork :=
  if phase = .queued then { work with place := .sdk } else work

namespace Locks

def free (locks : Locks K) (key : K) : Bool := locks.holders.all (·.1 ≠ key)

def hold (locks : Locks K) (key : K) (item : ℕ) : Locks K :=
  { locks with holders := (key, item) :: locks.holders }

def enqueue (locks : Locks K) (key : K) (item : ℕ) (aborted : Bool) : Locks K :=
  { locks with
    nextWait := locks.nextWait + 1
    waits := Function.update locks.waits locks.nextWait
      (some ⟨key, item, if aborted then .abandoned else .queued⟩) }

def abandon (locks : Locks K) (stops : ℕ → Bool) : Locks K :=
  { locks with
    waits := fun id => (locks.waits id).map fun wait =>
      if stops wait.item then wait.abandon else wait }

def grant (locks : Locks K) (id : ℕ) (wait : LockWait K) : Locks K :=
  { locks with
    holders := if wait.phase = .queued then (wait.key, wait.item) :: locks.holders
      else locks.holders
    waits := Function.update locks.waits id (some wait.turn) }

end Locks

/-- The tracker, the items that started, and the `settle` calls that have not resolved. A call in
`waiters` waits for a notification, and the others continue. -/
structure RelayWorkTracker (K : Type) where
  works : ℕ → RelayWork := fun _ => {}
  started : ℕ := 0
  items : List ℕ := []
  waiters : List ℕ := []
  stopping : ℕ := 0
  /-- `stopper.signal.aborted`. -/
  aborted : Bool := false
  settles : ℕ := 0
  settling : List ℕ := []
  locks : Locks K := {}

inductive RelayEvent (K : Type) where
  | run
  | sdk (item : ℕ)
  | proceed (item : ℕ)
  | enterApp (item : ℕ)
  | leaveApp (item : ℕ)
  /-- `acquireUntilStopped`. The lock may run the callback at once when the key is free. -/
  | acquire (item : ℕ) (key : K) (atOnce : Bool)
  | grant (id : ℕ) (wait : LockWait K)
  | release (item : ℕ) (key : K)
  | finish (item : ℕ)
  | stopAllExcept (keep : List ℕ)
  | settle
  /-- A `settle` call that was notified continues. -/
  | resume (call : ℕ)

namespace RelayWorkTracker

def place (tracker : RelayWorkTracker K) (item : ℕ) : Place := (tracker.works item).place

def setWork (tracker : RelayWorkTracker K) (item : ℕ) (work : RelayWork) : RelayWorkTracker K :=
  { tracker with works := Function.update tracker.works item work }

def notify (tracker : RelayWorkTracker K) : RelayWorkTracker K := { tracker with waiters := [] }

def run (tracker : RelayWorkTracker K) : RelayWorkTracker K :=
  { tracker with
    works := Function.update tracker.works tracker.started
      { place := .sdk, stopped := decide (0 < tracker.stopping) }
    started := tracker.started + 1
    items := tracker.items ++ [tracker.started] }

def finish (tracker : RelayWorkTracker K) (item : ℕ) : RelayWorkTracker K :=
  { tracker.setWork item { tracker.works item with place := .ended } with
    items := tracker.items.filter (· ≠ item) }.notify

def stopWhere (tracker : RelayWorkTracker K) (stops : ℕ → Bool) : RelayWorkTracker K :=
  let stopsItem item := tracker.items.contains item && stops item
  { tracker with
    works := fun item =>
      if stopsItem item then (tracker.works item).stop else tracker.works item
    locks := tracker.locks.abandon stopsItem }

def stopAllExcept (tracker : RelayWorkTracker K) (keep : List ℕ) : RelayWorkTracker K :=
  tracker.stopWhere fun item => !keep.contains item

def allInApp (tracker : RelayWorkTracker K) : Bool :=
  tracker.items.all fun item => (tracker.works item).inApp

/-- One turn of the loop of `settle`, and what follows the loop. -/
def resume (tracker : RelayWorkTracker K) (call : ℕ) : RelayWorkTracker K :=
  if tracker.allInApp then
    { tracker with
      stopping := tracker.stopping - 1
      aborted := tracker.aborted && tracker.stopping ≠ 1
      settling := tracker.settling.erase call }
  else { tracker with waiters := tracker.waiters ++ [call] }

/-- The start of a `settle` call, before it stops the items. -/
def beginSettle (tracker : RelayWorkTracker K) : RelayWorkTracker K :=
  { tracker with
    stopping := tracker.stopping + 1
    aborted := true
    settles := tracker.settles + 1
    settling := tracker.settles :: tracker.settling }

def settle (tracker : RelayWorkTracker K) : RelayWorkTracker K :=
  (tracker.beginSettle.stopWhere fun _ => true).resume tracker.settles

def Enabled (tracker : RelayWorkTracker K) : RelayEvent K → Prop
  | .sdk item => tracker.place item = .sdk
  | .proceed item => tracker.place item = .sdk
  | .enterApp item => tracker.place item = .sdk ∨ tracker.place item = .app
  | .leaveApp item => tracker.place item = .app
  | .acquire item key atOnce =>
    tracker.place item = .sdk ∧ (atOnce = true → tracker.locks.free key = true)
  | .grant id wait => tracker.locks.waits id = some wait ∧
      (wait.phase = .queued ∨ wait.phase = .abandoned) ∧ tracker.locks.free wait.key = true
  | .release item _ => tracker.place item = .sdk ∨ tracker.place item = .thrown
  | .finish item => (tracker.place item = .sdk ∨ tracker.place item = .thrown) ∧
      tracker.locks.holders.all (·.2 ≠ item) = true
  | .resume call => call ∈ tracker.settling ∧ call ∉ tracker.waiters
  | _ => True

def apply (tracker : RelayWorkTracker K) : RelayEvent K → RelayWorkTracker K
  | .run => tracker.run
  | .sdk _ => tracker
  | .proceed item => tracker.setWork item (tracker.works item).proceed
  | .enterApp item => (tracker.setWork item (tracker.works item).enterApp).notify
  | .leaveApp item => (tracker.setWork item (tracker.works item).leaveApp).notify
  | .acquire item key atOnce =>
    if atOnce then { tracker with locks := tracker.locks.hold key item }
    else
      { tracker.setWork item (tracker.works item).wait with
        locks := tracker.locks.enqueue key item (tracker.works item).stopped }
  | .grant id wait =>
    { tracker.setWork wait.item ((tracker.works wait.item).turn wait.phase) with
      locks := tracker.locks.grant id wait }
  | .release item key =>
    { tracker with
      locks := { tracker.locks with holders := tracker.locks.holders.erase (key, item) } }
  | .finish item => tracker.finish item
  | .stopAllExcept keep => tracker.stopAllExcept keep
  | .settle => tracker.settle
  | .resume call => tracker.resume call

inductive Runs (tracker : RelayWorkTracker K) :
    List (RelayEvent K) → RelayWorkTracker K → Prop where
  | nil : Runs tracker [] tracker
  | snoc {events : List (RelayEvent K)} {last : RelayWorkTracker K} {event : RelayEvent K}
      (hruns : Runs tracker events last) (henabled : last.Enabled event) :
      Runs tracker (events ++ [event]) (last.apply event)

def resolved (tracker : RelayWorkTracker K) (call : ℕ) : Bool :=
  call < tracker.settles && !tracker.settling.contains call

end RelayWorkTracker

end SignalProtocol.Relay

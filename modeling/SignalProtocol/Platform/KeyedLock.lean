import SignalProtocol.Library.OrderedMap

/-! # The keyed lock

The calls of `withKeyedLock` with one collection of locks. A call waits for the promise that it
found, runs its operation, and is settled once its `finally` ran. -/

namespace SignalProtocol.KeyedLock

inductive Stage (Value Error : Type) where
  | waiting
  | running
  | settled (result : Except Error Value)

def Stage.isSettled {Value Error : Type} : Stage Value Error → Bool
  | .settled _ => true
  | .waiting | .running => false

/-- A call at its await. A map and a promise have the number of the call that made them, and
`none` is a resolved promise. -/
structure LockCall (Owner Key : Type) where
  owner : Owner
  key : Key
  locks : ℕ
  previous : Option ℕ

/-- The promise of a call resolves when the call is settled. -/
structure KeyedLocks (Owner Key Value Error : Type) where
  collections : Owner → Option ℕ := fun _ => none
  maps : ℕ → OrderedMap Key ℕ := fun _ => ∅
  calls : List (LockCall Owner Key) := []
  stage : ℕ → Stage Value Error := fun _ => .waiting

inductive LockEvent (Owner Key Value Error : Type) where
  | call (owner : Owner) (key : Key)
  | start (number : ℕ)
  /-- The operation of a call returns or throws. -/
  | settle (number : ℕ) (result : Except Error Value)

namespace KeyedLocks

variable {Owner Key Value Error : Type} [DecidableEq Owner] [DecidableEq Key]
variable (world : KeyedLocks Owner Key Value Error)

/-- The map of an owner, or a new one. -/
def locksOf (owner : Owner) : ℕ := (world.collections owner).getD world.calls.length

/-- `withKeyedLock` up to its await. -/
def withKeyedLock (owner : Owner) (key : Key) : KeyedLocks Owner Key Value Error :=
  let locks := world.locksOf owner
  { world with
    collections := Function.update world.collections owner (some locks)
    maps := Function.update world.maps locks ((world.maps locks).set key world.calls.length)
    calls := world.calls ++ [⟨owner, key, locks, (world.maps locks).get? key⟩] }

def start (number : ℕ) : KeyedLocks Owner Key Value Error :=
  { world with stage := Function.update world.stage number .running }

/-- The map of a call after `release`. -/
def released (number : ℕ) (call : LockCall Owner Key) : OrderedMap Key ℕ :=
  if (world.maps call.locks).get? call.key = some number then
    (world.maps call.locks).erase call.key
  else world.maps call.locks

def settle (number : ℕ) (call : LockCall Owner Key) (result : Except Error Value) :
    KeyedLocks Owner Key Value Error :=
  { world with
    collections :=
      if (world.released number call).size = 0 then
        Function.update world.collections call.owner none
      else world.collections
    maps := Function.update world.maps call.locks (world.released number call)
    stage := Function.update world.stage number (.settled result) }

def next : LockEvent Owner Key Value Error → Option (KeyedLocks Owner Key Value Error)
  | .call owner key => some (world.withKeyedLock owner key)
  | .start number =>
    match world.calls[number]?, world.stage number with
    | some call, .waiting =>
      if call.previous.all fun promise => (world.stage promise).isSettled then
        some (world.start number)
      else none
    | _, _ => none
  | .settle number result =>
    match world.calls[number]?, world.stage number with
    | some call, .running => some (world.settle number call result)
    | _, _ => none

end KeyedLocks

end SignalProtocol.KeyedLock

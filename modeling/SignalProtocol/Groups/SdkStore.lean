import SignalProtocol.Groups.Fetcher
import SignalProtocol.Groups.State

/-! # The group store of the SDK

One metadata record for each group and an index of the groups that have one. -/

namespace SignalProtocol.Groups.SdkStore

structure StoredGroupRecordV1 where
  masterKey : Option Bytes := none
  state : Option DecryptedGroup := none
  senderKeyRotationBarrier : Option ℤ := none

structure StoredGroupRecord extends StoredGroupRecordV1 where
  receive : GroupReceiveRecord

def newRecord : StoredGroupRecord where
  receive := newGroupReceiveRecord .thisDevice

def migrateV1Record (record : StoredGroupRecordV1) : StoredGroupRecord :=
  { record with receive := newGroupReceiveRecord .thisDevice }

inductive Operation where
  | read
  | update (apply : StoredGroupRecord → StoredGroupRecord)
  | updateGroupReceiveRecord (apply : Option GroupReceiveRecord → Option GroupReceiveRecord)

def storeMasterKey (masterKey : Bytes) : Operation :=
  .update fun record => { record with masterKey := some masterKey }

def deleteMasterKey : Operation :=
  .update fun record => { record with masterKey := none }

def withoutUnverified (receive : GroupReceiveRecord) : GroupReceiveRecord :=
  { receive with unverified := none }

def storeGroupState (state : DecryptedGroup) : Operation :=
  .update fun record =>
    { record with state := some state, receive := withoutUnverified record.receive }

def storeGroupStateWithSenderKeyRotationBarrier (state : DecryptedGroup) : Operation :=
  .update fun record =>
    { record with
      state := some state
      senderKeyRotationBarrier := some state.revision
      receive := withoutUnverified record.receive }

def clearSenderKeyRotationBarrier (expectedRevision : ℤ) : Operation :=
  .update fun record =>
    if record.senderKeyRotationBarrier = some expectedRevision then
      { record with senderKeyRotationBarrier := none }
    else record

def deleteGroupState : Operation :=
  .update fun record => { record with state := none, senderKeyRotationBarrier := none }

structure Metadata where
  index : Option (List String)
  records : String → Option StoredGroupRecord
  v1Records : String → Option StoredGroupRecordV1
  migrations : String → List StoredGroupRecord

def Metadata.ids (metadata : Metadata) : List String := metadata.index.getD []

/-- A part of `write`, and the compare-and-set of an index that was read. -/
inductive WriteStage where
  | index
  | swap (seen : Option (List String))
  | record

inductive RemoveStage where
  | v1Record
  | record
  | index
  | swap (seen : Option (List String))

inductive Point where
  | load (operation : Operation)
  | clearV1 (found : StoredGroupRecord) (operation : Operation)
  | loadV1 (operation : Operation)
  | write (stage : WriteStage) (record : StoredGroupRecord) (migrating : Option Operation)
  | deleteV1 (migrated : StoredGroupRecord) (operation : Operation)
  | remove (stage : RemoveStage)

structure Instance where
  indexed : String → Bool := fun _ => false
  migrated : String → Bool := fun _ => false
  points : String → Option Point := fun _ => none

structure World where
  metadata : Metadata
  instances : ℕ → Instance

def afterLoad (operation : Operation) (current : Option StoredGroupRecord) : Option Point :=
  match operation with
  | .read => none
  | .update apply => some (.write .index (apply (current.getD newRecord)) none)
  | .updateGroupReceiveRecord apply =>
    match apply (current.map StoredGroupRecord.receive) with
    | none => if current.isSome then some (.remove .v1Record) else none
    | some next =>
      some (.write .index
        { masterKey := current.bind (·.masterKey)
          state := current.bind (·.state)
          senderKeyRotationBarrier := current.bind (·.senderKeyRotationBarrier)
          receive := next } none)

namespace Metadata

def setRecord (metadata : Metadata) (groupId : String) (record : Option StoredGroupRecord) :
    Metadata :=
  { metadata with records := Function.update metadata.records groupId record }

def deleteV1 (metadata : Metadata) (groupId : String) : Metadata :=
  { metadata with v1Records := Function.update metadata.v1Records groupId none }

def setIndex (metadata : Metadata) (ids : List String) : Metadata :=
  { metadata with index := some ids }

def logMigration (metadata : Metadata) (groupId : String) (record : StoredGroupRecord) : Metadata :=
  { metadata with
    migrations := Function.update metadata.migrations groupId
      (metadata.migrations groupId ++ [record]) }

end Metadata

namespace Instance

def setPoint (store : Instance) (groupId : String) (point : Option Point) : Instance :=
  { store with points := Function.update store.points groupId point }

def setIndexed (store : Instance) (groupId : String) (indexed : Bool) : Instance :=
  { store with indexed := Function.update store.indexed groupId indexed }

def setMigrated (store : Instance) (groupId : String) : Instance :=
  { store with migrated := Function.update store.migrated groupId true }

end Instance

/-- A metadata call of `write`, with what follows on it in memory. -/
def stepWrite (metadata : Metadata) (store : Instance) (groupId : String) (stage : WriteStage)
    (record : StoredGroupRecord) (migrating : Option Operation) : Metadata × Instance :=
  match stage with
  | .index =>
    if store.indexed groupId then
      (metadata, store.setPoint groupId (some (.write .record record migrating)))
    else if groupId ∈ metadata.ids then
      (metadata, (store.setIndexed groupId true).setPoint groupId
        (some (.write .record record migrating)))
    else
      (metadata, store.setPoint groupId (some (.write (.swap metadata.index) record migrating)))
  | .swap seen =>
    if metadata.index = seen then
      (metadata.setIndex (seen.getD [] ++ [groupId]),
        (store.setIndexed groupId true).setPoint groupId
          (some (.write .record record migrating)))
    else (metadata, store.setPoint groupId (some (.write .index record migrating)))
  | .record =>
    match migrating with
    | none => (metadata.setRecord groupId (some record), store.setPoint groupId none)
    | some operation =>
      ((metadata.setRecord groupId (some record)).logMigration groupId record,
        store.setPoint groupId (some (.deleteV1 record operation)))

def stepRemove (metadata : Metadata) (store : Instance) (groupId : String) (stage : RemoveStage) :
    Metadata × Instance :=
  match stage with
  | .v1Record => (metadata.deleteV1 groupId, store.setPoint groupId (some (.remove .record)))
  | .record => (metadata.setRecord groupId none, store.setPoint groupId (some (.remove .index)))
  | .index =>
    if groupId ∈ metadata.ids then
      (metadata, store.setPoint groupId (some (.remove (.swap metadata.index))))
    else (metadata, (store.setIndexed groupId false).setPoint groupId none)
  | .swap seen =>
    if metadata.index = seen then
      (metadata.setIndex ((seen.getD []).filter (· ≠ groupId)),
        (store.setIndexed groupId false).setPoint groupId none)
    else (metadata, store.setPoint groupId (some (.remove .index)))

def stepPoint (metadata : Metadata) (store : Instance) (groupId : String) :
    Point → Metadata × Instance
  | .load operation =>
    match metadata.records groupId with
    | none => (metadata, store.setPoint groupId (some (.loadV1 operation)))
    | some found =>
      if store.migrated groupId then
        (metadata, store.setPoint groupId (afterLoad operation (some found)))
      else (metadata, store.setPoint groupId (some (.clearV1 found operation)))
  | .clearV1 found operation =>
    (metadata.deleteV1 groupId, (store.setMigrated groupId).setPoint groupId
      (afterLoad operation (some found)))
  | .loadV1 operation =>
    match metadata.v1Records groupId with
    | none => (metadata, store.setPoint groupId (afterLoad operation none))
    | some legacy =>
      (metadata, store.setPoint groupId
        (some (.write .index (migrateV1Record legacy) (some operation))))
  | .write stage record migrating => stepWrite metadata store groupId stage record migrating
  | .deleteV1 migrated operation =>
    (metadata.deleteV1 groupId, (store.setMigrated groupId).setPoint groupId
      (afterLoad operation (some migrated)))
  | .remove stage => stepRemove metadata store groupId stage

inductive Event where
  | start (store : ℕ) (groupId : String) (operation : Operation)
  | advance (store : ℕ) (groupId : String)
  | crash (store : ℕ)

def Event.store : Event → ℕ
  | .start store _ _ => store
  | .advance store _ => store
  | .crash store => store

namespace World

def ofMetadata (metadata : Metadata) : World where
  metadata := metadata
  instances := fun _ => {}

def setStore (world : World) (store : ℕ) (next : Metadata × Instance) : World where
  metadata := next.1
  instances := Function.update world.instances store next.2

def apply (world : World) : Event → World
  | .start store groupId operation =>
    match (world.instances store).points groupId with
    | none =>
      world.setStore store (world.metadata,
        (world.instances store).setPoint groupId (some (.load operation)))
    | some _ => world
  | .advance store groupId =>
    match (world.instances store).points groupId with
    | none => world
    | some point =>
      world.setStore store (stepPoint world.metadata (world.instances store) groupId point)
  | .crash store => world.setStore store (world.metadata, {})

def run (world : World) (events : List Event) : World :=
  events.foldl World.apply world

def Holds (world : World) (store : ℕ) (groupId : String) : Prop :=
  (world.instances store).indexed groupId = true ∨ ((world.instances store).points groupId).isSome

def Exclusive (world : World) : Event → Prop
  | .start store groupId _ => ∀ other, other ≠ store → ¬ world.Holds other groupId
  | .advance _ _ => True
  | .crash _ => True

def Admits (world : World) : List Event → Prop
  | [] => True
  | event :: events => world.Exclusive event ∧ (world.apply event).Admits events

end World

end SignalProtocol.Groups.SdkStore

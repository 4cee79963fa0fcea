import SignalProtocol.Library.OrderedMap

/-! # Sender-key handoff ledger

The rows of the in-memory store, and the ledger that reads and deletes them: which recipient
devices already got the own sender key of a group. -/

namespace SignalProtocol.SenderKeys

structure SenderKeyHandoffDevice where
  userId : String
  deviceId : ℕ

structure SenderKeyHandoffKey where
  senderKeyId : String
  generation : ℕ

structure SenderKeyHandoffRecord where
  groupId : String
  senderKeyId : String
  generation : ℕ
  recipientUserId : String
  recipientDeviceId : ℕ
  recipientRegistrationId : ℕ
  acceptedAt : ℕ

structure SenderKeyHandoffTarget extends SenderKeyHandoffDevice where
  registrationId : Option ℕ

/-- The coordinates of a row in its group: a JSON array in the source. -/
abbrev RowKey := String × ℕ × String × ℕ × ℕ

def rowKey (record : SenderKeyHandoffRecord) : RowKey :=
  (record.senderKeyId, record.generation, record.recipientUserId, record.recipientDeviceId,
    record.recipientRegistrationId)

def isDevice (record : SenderKeyHandoffRecord) (device : SenderKeyHandoffDevice) : Bool :=
  record.recipientUserId = device.userId ∧ record.recipientDeviceId = device.deviceId

abbrev SenderKeyHandoffTable := OrderedMap String (OrderedMap RowKey SenderKeyHandoffRecord)

namespace SenderKeyHandoffTable

variable (table : SenderKeyHandoffTable)

def record (record : SenderKeyHandoffRecord) : SenderKeyHandoffTable :=
  table.set record.groupId (((table.get? record.groupId).getD ∅).set (rowKey record) record)

def list (groupId : String) (generation : ℕ) : List SenderKeyHandoffRecord :=
  ((table.get? groupId).getD ∅).values.filter fun record => record.generation = generation

def groupIds : List String := table.keys

def deleteWhere (groupId : String) (predicate : SenderKeyHandoffRecord → Bool) :
    SenderKeyHandoffTable :=
  match table.get? groupId with
  | none => table
  | some rows =>
    let kept := rows.filterEntries fun _ record => ¬ predicate record
    if kept.size = 0 then table.erase groupId else table.set groupId kept

def deleteDeviceInGroup (groupId : String) (device : SenderKeyHandoffDevice) :
    SenderKeyHandoffTable :=
  deleteWhere table groupId fun record => isDevice record device

def deleteDevice (device : SenderKeyHandoffDevice) : SenderKeyHandoffTable :=
  (groupIds table).foldl (fun table groupId => deleteDeviceInGroup table groupId device) table

def deleteAccount (userId : String) : SenderKeyHandoffTable :=
  (groupIds table).foldl
    (fun table groupId => deleteWhere table groupId fun record =>
      record.recipientUserId = userId) table

def deleteGroup (groupId : String) : SenderKeyHandoffTable := table.erase groupId

def retain (groupId : String) (senderKeyId : Option String) : SenderKeyHandoffTable :=
  deleteWhere table groupId fun record => some record.senderKeyId ≠ senderKeyId

end SenderKeyHandoffTable

structure HandoffStore where
  rows : SenderKeyHandoffTable
  ownKeys : OrderedMap String SenderKeyHandoffKey

namespace HandoffStore

def empty : HandoffStore := ⟨∅, ∅⟩

variable (store : HandoffStore)

def storeOwnKey (groupId : String) (key : SenderKeyHandoffKey) : HandoffStore where
  rows := SenderKeyHandoffTable.deleteGroup store.rows groupId
  ownKeys := store.ownKeys.set groupId key

def deleteOwnKey (groupId : String) : HandoffStore where
  rows := SenderKeyHandoffTable.deleteGroup store.rows groupId
  ownKeys := store.ownKeys.erase groupId

def handedOff (groupId : String) (key : SenderKeyHandoffKey) : List (String × ℕ × ℕ) :=
  let rows := SenderKeyHandoffTable.list store.rows groupId key.generation
  (rows.filter fun row =>
    row.senderKeyId = key.senderKeyId ∧ row.generation = key.generation).map fun row =>
      (row.recipientUserId, row.recipientDeviceId, row.recipientRegistrationId)

def needsKey (groupId : String) (key : SenderKeyHandoffKey) (target : SenderKeyHandoffTarget) :
    Bool :=
  match target.registrationId with
  | none => true
  | some registrationId =>
    (target.userId, target.deviceId, registrationId) ∉ store.handedOff groupId key

def devicesNeedingKey (groupId : String) (key : SenderKeyHandoffKey)
    (targets : List SenderKeyHandoffTarget) : List SenderKeyHandoffTarget :=
  targets.filter (store.needsKey groupId key)

def record (groupId : String) (key : SenderKeyHandoffKey) (device : SenderKeyHandoffDevice)
    (registrationId acceptedAt : ℕ) : HandoffStore :=
  { store with rows := SenderKeyHandoffTable.record store.rows {
      groupId
      senderKeyId := key.senderKeyId
      generation := key.generation
      recipientUserId := device.userId
      recipientDeviceId := device.deviceId
      recipientRegistrationId := registrationId
      acceptedAt } }

def invalidate (groupId : String) (device : SenderKeyHandoffDevice) : HandoffStore :=
  { store with rows := SenderKeyHandoffTable.deleteDeviceInGroup store.rows groupId device }

def invalidateAccount (userId : String) : HandoffStore :=
  { store with rows := SenderKeyHandoffTable.deleteAccount store.rows userId }

def archiveSession (device : SenderKeyHandoffDevice) : HandoffStore :=
  { store with rows := SenderKeyHandoffTable.deleteDevice store.rows device }

def sweepTurn (groupId : String) : HandoffStore :=
  let current := (store.ownKeys.get? groupId).map SenderKeyHandoffKey.senderKeyId
  { store with rows := SenderKeyHandoffTable.retain store.rows groupId current }

def sweep : HandoffStore :=
  (SenderKeyHandoffTable.groupIds store.rows).foldl sweepTurn store

end HandoffStore

inductive HandoffEvent where
  | record (groupId : String) (key : SenderKeyHandoffKey) (device : SenderKeyHandoffDevice)
      (registrationId acceptedAt : ℕ)
  | invalidate (groupId : String) (device : SenderKeyHandoffDevice)
  | invalidateAccount (userId : String)
  | sweepTurn (groupId : String)
  | sweep
  | archiveSession (device : SenderKeyHandoffDevice)
  | storeOwnKey (groupId : String) (key : SenderKeyHandoffKey)
  | deleteOwnKey (groupId : String)

def HandoffStore.apply (store : HandoffStore) : HandoffEvent → HandoffStore
  | .record groupId key device registrationId acceptedAt =>
    store.record groupId key device registrationId acceptedAt
  | .invalidate groupId device => store.invalidate groupId device
  | .invalidateAccount userId => store.invalidateAccount userId
  | .sweepTurn groupId => store.sweepTurn groupId
  | .sweep => store.sweep
  | .archiveSession device => store.archiveSession device
  | .storeOwnKey groupId key => store.storeOwnKey groupId key
  | .deleteOwnKey groupId => store.deleteOwnKey groupId

def HandoffStore.run (events : List HandoffEvent) : HandoffStore :=
  events.foldl HandoffStore.apply HandoffStore.empty

end SignalProtocol.SenderKeys

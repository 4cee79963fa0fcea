import Mathlib.Algebra.Group.Int.Defs
import SignalProtocol.Library.OrderedMap
import SignalProtocol.Library.Results

/-! # Records of the devices of a user

Session records with their archive, device records and the user record, and the store that joins a
device record with the session of its address. -/

namespace SignalProtocol.Sesame

abbrev BaseKey := String
abbrev DeviceId := ℕ

abbrev IdentityKey := List UInt8

def UNPINNED_DEVICE_IDENTITY_KEY : IdentityKey := []

inductive IdentityComparison where
  | unpinned
  | same
  | changed
  deriving DecidableEq

def compareDeviceIdentityKeys (pinned incoming : IdentityKey) : IdentityComparison :=
  if pinned = [] then .unpinned else if pinned = incoming then .same else .changed

structure SessionState where
  baseKey : BaseKey
  remoteIdentity : IdentityKey
  /-- The flag and the identifiers of a PreKeyMessage that the peer did not acknowledge. -/
  pendingPreKey : Option String := none
  /-- The keys and counters of the ratchets, as JSON text. -/
  ratchet : String
  deriving DecidableEq

structure SessionMetadata where
  createdAt : Option ℤ := none
  lastSentAt : Option ℤ := none
  lastReceivedAt : Option ℤ := none
  lastUsedAt : Option ℤ := none
  isInitiator : Option Bool := none
  isActive : Option Bool := none
  messagesSent : Option ℕ := none
  messagesReceived : Option ℕ := none
  deriving DecidableEq

structure SessionRecord where
  currentSession : Option SessionState
  archivedSessions : OrderedMap BaseKey SessionState
  metadata : SessionMetadata := {}
  deriving DecidableEq

def withoutPendingPreKey (session : SessionState) : SessionState :=
  { session with pendingPreKey := none }

def insertArchived (archived : OrderedMap BaseKey SessionState) (session : SessionState) :
    OrderedMap BaseKey SessionState :=
  (archived.erase session.baseKey).set session.baseKey session

def dropOldest (archived : OrderedMap BaseKey SessionState) (maxArchived : ℕ) :
    OrderedMap BaseKey SessionState :=
  let dropped := archived.keys.take (archived.size - maxArchived)
  archived.filterKeys fun key => decide (key ∉ dropped)

namespace SessionRecord

variable (record : SessionRecord)

def archiveCurrent (newSession : Option SessionState) (maxArchived : ℕ) : SessionRecord :=
  let archived :=
    match record.currentSession with
    | some session => insertArchived record.archivedSessions (withoutPendingPreKey session)
    | none => record.archivedSessions
  { record with
    currentSession := newSession
    archivedSessions := dropOldest archived maxArchived }

def Holds (session : SessionState) : Prop :=
  record.currentSession = some session ∨ record.archivedSessions.get? session.baseKey = some session

structure Valid : Prop where
  keyed : ∀ key session, record.archivedSessions.get? key = some session → session.baseKey = key
  apart : ∀ session, record.currentSession = some session →
    record.archivedSessions.get? session.baseKey = none

end SessionRecord

def updateSessionRecordAfterSend (record : SessionRecord) (now : ℤ) : SessionRecord :=
  let metadata := record.metadata
  { record with
    metadata := {
      metadata with
      lastSentAt := some now
      lastUsedAt := some now
      messagesSent := some (metadata.messagesSent.getD 0 + 1) } }

def updateSessionRecordAfterReceive (record : SessionRecord) (now : ℤ) : SessionRecord :=
  let metadata := record.metadata
  { record with
    metadata := {
      metadata with
      createdAt := some (metadata.createdAt.getD now)
      isInitiator := some (metadata.isInitiator.getD false)
      isActive := some (metadata.isActive.getD true)
      lastReceivedAt := some now
      lastUsedAt := some now
      messagesReceived := some (metadata.messagesReceived.getD 0 + 1) } }

structure DeviceRecord where
  deviceId : DeviceId
  identityKey : IdentityKey
  session : Option SessionRecord
  createdAt : ℤ
  updatedAt : ℤ
  pendingVerification : Bool := false
  removedAt : Option ℤ := none

def isRemovedDevice (record : DeviceRecord) : Bool :=
  record.removedAt.isSome

structure UserRecord where
  devices : OrderedMap DeviceId DeviceRecord
  createdAt : ℤ
  updatedAt : ℤ
  deviceListVersion : Option ℤ := none
  stale : Bool := false

structure UserStore where
  user : Option UserRecord
  sessions : DeviceId → Option SessionRecord

/-- A device record with the session of its address. A device with no pin takes the identity of
its current session. -/
def withSession (deviceId : DeviceId) (stored : Option DeviceRecord)
    (session : Option SessionRecord) (now : ℤ) : Option DeviceRecord :=
  match session with
  | none => stored
  | some session =>
    let pinned := stored.elim [] (·.identityKey)
    some {
      deviceId
      identityKey :=
        if pinned ≠ [] then pinned
        else session.currentSession.elim UNPINNED_DEVICE_IDENTITY_KEY (·.remoteIdentity)
      session := some session
      createdAt := session.metadata.createdAt.getD (stored.elim now (·.createdAt))
      updatedAt := now
      pendingVerification := stored.any (·.pendingVerification)
      removedAt := stored.bind (·.removedAt) }

namespace UserStore

variable (store : UserStore)

def storedDevice (deviceId : DeviceId) : Option DeviceRecord :=
  store.user.bind fun record => record.devices.get? deviceId

def getDeviceRecord (deviceId : DeviceId) (now : ℤ) : Option DeviceRecord :=
  withSession deviceId (store.storedDevice deviceId) (store.sessions deviceId) now

def getUserRecord (now : ℤ) : Option UserRecord :=
  store.user.map fun record =>
    { record with
      devices := record.devices.mapEntries fun deviceId device =>
        (withSession deviceId (some device) (store.sessions deviceId) now).getD device }

def setUserRecord (record : UserRecord) : UserStore :=
  { store with
    user := some
      { record with devices := record.devices.mapValues fun device => { device with session := none } } }

def setDeviceRecord (deviceId : DeviceId) (record : DeviceRecord) (now : ℤ) : UserStore :=
  let user := store.user.getD { devices := ∅, createdAt := now, updatedAt := now }
  { user := some
      { user with
        devices := user.devices.set deviceId { record with session := none }
        updatedAt := now }
    sessions :=
      match record.session with
      | none => store.sessions
      | some session => Function.update store.sessions deviceId (some session) }

end UserStore

/-! ## Persisting a receive

The session that a receive stores for the device of its sender, beside the sessions that the
protocol commits for that device. -/

def mergePreKeySession (previous : Option SessionRecord) (fromProtocol : SessionRecord)
    (maxInactiveSessions : ℕ) : SessionRecord :=
  match previous with
  | none => fromProtocol
  | some previous =>
    if previous.currentSession.isNone then fromProtocol
    else
      let archivedRecord := previous.archiveCurrent none maxInactiveSessions
      -- A session of both archives keeps the state of the snapshot.
      let mergedArchived :=
        archivedRecord.archivedSessions.addMissing fromProtocol.archivedSessions
      { fromProtocol with archivedSessions := mergedArchived }

structure PreKeyMessageResult where
  previousDeviceRecord : Option DeviceRecord
  incomingIdentityKey : IdentityKey

def receivedDeviceRecord (current : Option DeviceRecord) (deviceId : DeviceId)
    (incomingIdentityKey : IdentityKey) (session : Option SessionRecord) (now : ℤ) :
    DeviceRecord :=
  match current with
  | none =>
    { deviceId
      identityKey := incomingIdentityKey
      session
      createdAt := now
      updatedAt := now }
  | some current =>
    let comparison := compareDeviceIdentityKeys current.identityKey incomingIdentityKey
    { current with
      identityKey := if comparison = .same then current.identityKey else incomingIdentityKey
      session
      updatedAt := now
      pendingVerification := current.pendingVerification || decide (comparison = .changed) }

namespace UserStore

variable (store : UserStore)

def persistPreKeyResult (deviceId : DeviceId) (result : PreKeyMessageResult)
    (maxInactiveSessions : ℕ) (now : ℤ) : Option IdentityComparison × UserStore :=
  let session := (store.sessions deviceId).map fun sessionFromProtocol =>
    updateSessionRecordAfterReceive
      (mergePreKeySession (result.previousDeviceRecord.bind (·.session)) sessionFromProtocol
        maxInactiveSessions) now
  let comparisonWith (current : Option DeviceRecord) :=
    current.map fun current =>
      compareDeviceIdentityKeys current.identityKey result.incomingIdentityKey
  match result.previousDeviceRecord with
  | none =>
    let userRecord := (store.getUserRecord now).getD
      { devices := ∅, createdAt := now, updatedAt := now }
    let current := userRecord.devices.get? deviceId
    let deviceRecord :=
      receivedDeviceRecord current deviceId result.incomingIdentityKey session now
    let stored := store.setUserRecord
      { userRecord with devices := userRecord.devices.set deviceId deviceRecord, updatedAt := now }
    (comparisonWith current, stored.setDeviceRecord deviceId deviceRecord now)
  | some previous =>
    let current := store.getDeviceRecord deviceId now
    let deviceRecord :=
      receivedDeviceRecord current deviceId result.incomingIdentityKey session now
    -- A device that had no pin before the decrypt is a first-contact pin.
    let comparison :=
      if comparisonWith current = some .same ∧ previous.identityKey = [] then some .unpinned
      else comparisonWith current
    (comparison, store.setDeviceRecord deviceId deviceRecord now)

def persistSessionAfterReceive (deviceId : DeviceId) (fallback : SessionRecord) (now : ℤ) :
    UserStore :=
  let session := (store.sessions deviceId).getD fallback
  match store.getDeviceRecord deviceId now with
  | none => store
  | some deviceRecord =>
    store.setDeviceRecord deviceId
      { deviceRecord with
        session := some (updateSessionRecordAfterReceive session now)
        updatedAt := now } now

def persistSessionAfterSend (deviceId : DeviceId) (now : ℤ) : UserStore :=
  match store.getDeviceRecord deviceId now with
  | none => store
  | some deviceRecord =>
    match deviceRecord.session with
    | none => store
    | some session =>
      store.setDeviceRecord deviceId
        { deviceRecord with
          session := some (updateSessionRecordAfterSend session now)
          updatedAt := now } now

end UserStore

def SessionRecord.findSession (record : SessionRecord) (baseKey : BaseKey) : Option SessionState :=
  match record.currentSession with
  | some session =>
    if session.baseKey = baseKey then some session else record.archivedSessions.get? baseKey
  | none => record.archivedSessions.get? baseKey

structure SessionWorld where
  store : UserStore
  committed : BaseKey → Option SessionState
  /-- The device records that the receives of PreKey messages read before their decrypts. -/
  receives : ℕ → Option (Option DeviceRecord)

inductive SessionEvent where
  | commit (record : SessionRecord)
  | readDevice (receive : ℕ) (now : ℤ)
  | persistPreKey (receive : ℕ) (incomingIdentityKey : IdentityKey) (now : ℤ)
  | persistReceive (fallback : SessionRecord) (now : ℤ)
  | persistSend (now : ℤ)

namespace SessionWorld

def empty : SessionWorld where
  store := { user := none, sessions := fun _ => none }
  committed := fun _ => none
  receives := fun _ => none

variable (world : SessionWorld) (deviceId : DeviceId)

def commitLog (record : SessionRecord) (baseKey : BaseKey) : Option SessionState :=
  let stored := (world.store.sessions deviceId).bind fun stored => stored.findSession baseKey
  match record.findSession baseKey with
  | none => world.committed baseKey
  | some session => if stored = some session then world.committed baseKey else some session

def step (maxInactiveSessions : ℕ) : SessionEvent → SessionWorld
  | .commit record =>
    { world with
      store := { world.store with
        sessions := Function.update world.store.sessions deviceId (some record) }
      committed := world.commitLog deviceId record }
  | .readDevice receive now =>
    { world with
      receives := Function.update world.receives receive
        (some (world.store.getDeviceRecord deviceId now)) }
  | .persistPreKey receive incomingIdentityKey now =>
    match world.receives receive with
    | none => world
    | some previousDeviceRecord =>
      { world with
        store := (world.store.persistPreKeyResult deviceId
          { previousDeviceRecord, incomingIdentityKey } maxInactiveSessions now).2 }
  | .persistReceive fallback now =>
    { world with store := world.store.persistSessionAfterReceive deviceId fallback now }
  | .persistSend now =>
    { world with store := world.store.persistSessionAfterSend deviceId now }

def run (maxInactiveSessions : ℕ) (events : List SessionEvent) : SessionWorld :=
  events.foldl (fun world event => world.step deviceId maxInactiveSessions event) world

end SessionWorld

/-! ## Device list syncs

A sync adds and pins the listed devices under the lock of the user, replaces each device that the
list removes or re-keys under the locks of the device, and writes the version of the list last. -/

def MIN_DEVICE_ID : DeviceId := 1
def MAX_DEVICE_ID : DeviceId := 5

def COMPOSITE_IDENTITY_V1_VERSION : UInt8 := 1
def COMPOSITE_IDENTITY_V1_X25519_TAG : UInt8 := 1
def COMPOSITE_IDENTITY_V1_ED25519_TAG : UInt8 := 2
def COMPOSITE_IDENTITY_V1_LENGTH : ℕ := 67
def PUBLIC_KEY_LENGTH : ℕ := 32

structure CompositeIdentityV1 where
  x25519PublicKey : List UInt8
  ed25519PublicKey : List UInt8

def encodeCompositeIdentityV1 (identity : CompositeIdentityV1) : Except String IdentityKey :=
  if identity.x25519PublicKey.length ≠ PUBLIC_KEY_LENGTH then
    .error s!"X25519 public key must contain exactly {PUBLIC_KEY_LENGTH} bytes"
  else if identity.ed25519PublicKey.length ≠ PUBLIC_KEY_LENGTH then
    .error s!"Ed25519 public key must contain exactly {PUBLIC_KEY_LENGTH} bytes"
  else
    .ok ([COMPOSITE_IDENTITY_V1_VERSION, COMPOSITE_IDENTITY_V1_X25519_TAG] ++
      identity.x25519PublicKey ++ [COMPOSITE_IDENTITY_V1_ED25519_TAG] ++ identity.ed25519PublicKey)

def decodeCompositeIdentityV1 (encoded : IdentityKey) : Except String CompositeIdentityV1 :=
  if encoded.length ≠ COMPOSITE_IDENTITY_V1_LENGTH then
    .error s!"CompositeIdentityV1 must contain exactly {COMPOSITE_IDENTITY_V1_LENGTH} bytes"
  else if encoded.getD 0 0 ≠ COMPOSITE_IDENTITY_V1_VERSION then
    .error s!"Unsupported composite identity version: {encoded.getD 0 0}"
  else if encoded.getD 1 0 ≠ COMPOSITE_IDENTITY_V1_X25519_TAG then
    .error s!"Unsupported X25519 algorithm tag: {encoded.getD 1 0}"
  else if encoded.getD 34 0 ≠ COMPOSITE_IDENTITY_V1_ED25519_TAG then
    .error s!"Unsupported Ed25519 algorithm tag: {encoded.getD 34 0}"
  else
    .ok {
      x25519PublicKey := (encoded.drop 2).take 32
      ed25519PublicKey := (encoded.drop 35).take 32 }

def canonicalizeDeviceIdentityKey (bytes : IdentityKey) (label : String) :
    Except String IdentityKey :=
  if bytes = [] then .ok UNPINNED_DEVICE_IDENTITY_KEY
  else
    match decodeCompositeIdentityV1 bytes >>= encodeCompositeIdentityV1 with
    | .ok canonical => .ok canonical
    | .error _ => .error s!"{label} is not a canonical composite identity tuple"

abbrev SyncM := EStateM String UserStore

def archiveCurrentIndexed (session : Option SessionRecord) (maxInactiveSessions : ℕ) :
    Option SessionRecord :=
  session.map fun session =>
    if session.currentSession.isNone then session
    else session.archiveCurrent none maxInactiveSessions

def addDeviceLocked (userId : String) (deviceId : DeviceId) (identityKey : IdentityKey) (now : ℤ) :
    SyncM Unit := do
  if deviceId < MIN_DEVICE_ID ∨ MAX_DEVICE_ID < deviceId then
    throw s!"Device ID must be between {MIN_DEVICE_ID} and {MAX_DEVICE_ID}, got {deviceId}"
  let store ← get
  let userRecord := (store.getUserRecord now).getD
    { devices := ∅, createdAt := now, updatedAt := now }
  match canonicalizeDeviceIdentityKey identityKey s!"Identity key for {userId}:{deviceId}" with
  | .error error => throw error
  | .ok identityKey =>
    let deviceRecord : DeviceRecord :=
      { deviceId, identityKey, session := none, createdAt := now, updatedAt := now }
    let userRecord :=
      { userRecord with
        devices := userRecord.devices.set deviceId deviceRecord
        updatedAt := now }
    set ((store.setDeviceRecord deviceId deviceRecord now).setUserRecord userRecord)

namespace UserStore

variable (store : UserStore)

def relistDeviceLocked (deviceRecord : DeviceRecord) (now : ℤ) : UserStore :=
  if isRemovedDevice deviceRecord then
    store.setDeviceRecord deviceRecord.deviceId
      { deviceRecord with removedAt := none, session := none, updatedAt := now } now
  else store

def removeDeviceLocked (deviceId : DeviceId) (maxInactiveSessions : ℕ) (now : ℤ) : UserStore :=
  match store.getDeviceRecord deviceId now with
  | none => store
  | some deviceRecord =>
    if isRemovedDevice deviceRecord then store
    else
      store.setDeviceRecord deviceId
        { deviceRecord with
          session := archiveCurrentIndexed deviceRecord.session maxInactiveSessions
          removedAt := some now
          updatedAt := now } now

/-- Remove a device that the list does not list, or replace the identity of one whose listed
identity key changed, over the record that the store holds now. -/
def replaceListedDeviceLocked (deviceId : DeviceId) (identityKey : Option IdentityKey)
    (maxInactiveSessions : ℕ) (now : ℤ) : UserStore :=
  match store.getDeviceRecord deviceId now, identityKey with
  | none, _ => store
  | some _, none => store.removeDeviceLocked deviceId maxInactiveSessions now
  | some existingDevice, some identityKey =>
    if compareDeviceIdentityKeys existingDevice.identityKey identityKey = .changed then
      store.setDeviceRecord deviceId
        { existingDevice with
          identityKey
          session := archiveCurrentIndexed existingDevice.session maxInactiveSessions
          pendingVerification := true
          removedAt := none
          updatedAt := now } now
    else store

def setDeviceListVersion (version : ℤ) (now : ℤ) : UserStore :=
  match store.getUserRecord now with
  | none => store
  | some userRecord =>
    store.setUserRecord { userRecord with deviceListVersion := some version, updatedAt := now }

end UserStore

structure DeviceListResponse where
  userId : String
  deviceIds : List DeviceId
  version : Option ℤ
  identityKeys : OrderedMap DeviceId IdentityKey

namespace DeviceListResponse

variable (response : DeviceListResponse)

/-- The identity key that the response has for a device. A device that the server lists with no
identity key stays unpinned. -/
def listedKey (deviceId : DeviceId) : IdentityKey :=
  (response.identityKeys.get? deviceId).getD UNPINNED_DEVICE_IDENTITY_KEY

def listDevice (devices : OrderedMap DeviceId IdentityKey) (deviceId : DeviceId) :
    Except String (OrderedMap DeviceId IdentityKey) := do
  let identityKey ← canonicalizeDeviceIdentityKey (response.listedKey deviceId)
    s!"Device list identity key for {response.userId}:{deviceId}"
  return devices.set deviceId identityKey

def devices : Except String (OrderedMap DeviceId IdentityKey) :=
  response.deviceIds.foldlM response.listDevice ∅

end DeviceListResponse

/-- Add, pin or relist one listed device. The result says that its identity key changed, and that
a replacement of the device follows. -/
def syncListedDevice (userId : String) (deviceId : DeviceId) (identityKey : IdentityKey) (now : ℤ) :
    SyncM Bool := do
  let store ← get
  match store.getDeviceRecord deviceId now with
  | none =>
    addDeviceLocked userId deviceId identityKey now
    return false
  | some existingDevice =>
    -- A list with no identity key for the device says nothing about its identity.
    let comparison :=
      if identityKey ≠ [] then
        some (compareDeviceIdentityKeys existingDevice.identityKey identityKey)
      else none
    if comparison = some .changed then return true
    else if comparison = some .unpinned then
      set (store.setDeviceRecord deviceId
        { existingDevice with
          identityKey
          session := none
          removedAt := none
          updatedAt := if isRemovedDevice existingDevice then now else existingDevice.updatedAt }
        now)
      return false
    else
      set (store.relistDeviceLocked existingDevice now)
      return false

def syncListedDevices (userId : String) (now : ℤ) :
    List (DeviceId × IdentityKey) → SyncM (List DeviceId)
  | [] => return []
  | listed :: rest => do
      let changed ← syncListedDevice userId listed.1 listed.2 now
      let replaced ← syncListedDevices userId now rest
      return if changed then listed.1 :: replaced else replaced

def addDevicesLocked (userId : String) (now : ℤ) : List (DeviceId × IdentityKey) → SyncM Unit
  | [] => return ()
  | listed :: rest => do
      addDeviceLocked userId listed.1 listed.2 now
      addDevicesLocked userId now rest

/-- The part of a sync under the first user lock: the devices to replace, or none for a new
user. -/
def syncUserLocked (userId : String) (devices : OrderedMap DeviceId IdentityKey) (now : ℤ) :
    SyncM (Option (List DeviceId)) := do
  let store ← get
  match store.getUserRecord now with
  | none =>
    addDevicesLocked userId now devices.entries
    return none
  | some userRecord =>
    let unlisted := (userRecord.devices.entries.filter fun entry =>
      !devices.has entry.1 && !isRemovedDevice entry.2).map Prod.fst
    let rekeyed ← syncListedDevices userId now devices.entries
    return some (unlisted ++ rekeyed)

def UserStore.syncVersion (store : UserStore) (version : Option ℤ) (now : ℤ) : UserStore :=
  match version with
  | none => store
  | some version => store.setDeviceListVersion version now

def syncDeviceListLocked (response : DeviceListResponse) (maxInactiveSessions : ℕ) (now : ℤ) :
    SyncM Unit := do
  match response.devices with
  | .error error => throw error
  | .ok devices =>
    match ← syncUserLocked response.userId devices now with
    -- The version of the list of a new user is not written.
    | none => return ()
    | some replacedDeviceIds =>
      let store ← get
      let replaced := replacedDeviceIds.foldl (fun store deviceId =>
        store.replaceListedDeviceLocked deviceId (devices.get? deviceId) maxInactiveSessions
          now) store
      set (replaced.syncVersion response.version now)

structure SyncTask where
  response : DeviceListResponse
  devices : OrderedMap DeviceId IdentityKey
  replacedDeviceIds : Option (List DeviceId) := none
  began : UserStore

structure SyncWorld where
  store : UserStore
  running : Option SyncTask
  completed : Option SyncTask

inductive SyncEvent where
  | call (response : DeviceListResponse)
  | advance (now : ℤ)

namespace SyncWorld

variable (world : SyncWorld)

def advance (task : SyncTask) (maxInactiveSessions : ℕ) (now : ℤ) : SyncWorld :=
  match task.replacedDeviceIds with
  | none =>
    match syncUserLocked task.response.userId task.devices now world.store with
    | .error _ store => { store, running := none, completed := none }
    | .ok none store => { store, running := none, completed := some task }
    | .ok (some replacedDeviceIds) store =>
      { world with
        store
        running := some { task with replacedDeviceIds := some replacedDeviceIds } }
  | some (deviceId :: rest) =>
    { world with
      store := world.store.replaceListedDeviceLocked deviceId (task.devices.get? deviceId)
        maxInactiveSessions now
      running := some { task with replacedDeviceIds := some rest } }
  | some [] =>
    { store := world.store.syncVersion task.response.version now
      running := none
      completed := some task }

def step (maxInactiveSessions : ℕ) : SyncEvent → SyncWorld
  | .call response =>
    match world.running, response.devices with
    | some _, _ => world
    | none, .error _ => world
    | none, .ok devices =>
      { world with running := some { response, devices, began := world.store } }
  | .advance now =>
    match world.running with
    | none => world
    | some task => world.advance task maxInactiveSessions now

def run (maxInactiveSessions : ℕ) (events : List SyncEvent) : SyncWorld :=
  events.foldl (fun world event => world.step maxInactiveSessions event) world

end SyncWorld

end SignalProtocol.Sesame

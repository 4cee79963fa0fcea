import SignalProtocol.KeyValue.Store

/-! # Session records of the four stores

The calls on session records of the in-memory, the key-value, the IndexedDB and the SQLite store,
and the store that they stand for: a map from addresses to session records whose current session
moves to the archive. -/

namespace SignalProtocol.SessionStores

open KeyValue Sesame

structure ProtocolAddress where
  userId : String
  deviceId : ℕ
  deriving DecidableEq

/-- The default bound of `SessionRecord.archiveCurrent`. -/
def MAX_ARCHIVED_SESSIONS : ℕ := 40

inductive Call where
  | storeSessionRecord (address : ProtocolAddress) (record : SessionRecord)
  | archiveCurrentSession (address : ProtocolAddress) (newSession : Option SessionState) (now : ℤ)
  | setDeviceRecord (address : ProtocolAddress) (record : DeviceRecord) (now : ℤ)
  | deleteSessionRecord (address : ProtocolAddress)
  | getSessionRecord (address : ProtocolAddress)
  | hasSession (address : ProtocolAddress)
  | getSessionsForUser (userId : String)

def Call.userId : Call → String
  | storeSessionRecord address _ => address.userId
  | archiveCurrentSession address _ _ => address.userId
  | setDeviceRecord address _ _ => address.userId
  | deleteSessionRecord address => address.userId
  | getSessionRecord address => address.userId
  | hasSession address => address.userId
  | getSessionsForUser userId => userId

inductive Answer where
  | done
  | session (record : Option SessionRecord)
  | flag (value : Bool)
  | sessions (records : Multiset SessionRecord)

def untimed (record : SessionRecord) : SessionRecord :=
  { record with
    metadata := { record.metadata with
      createdAt := none, lastSentAt := none, lastReceivedAt := none, lastUsedAt := none } }

def Answer.untimed : Answer → Answer
  | done => done
  | session record => session (record.map SessionStores.untimed)
  | flag value => flag value
  | sessions records => sessions (records.map SessionStores.untimed)

def createRecord (session : SessionState) : SessionRecord := ⟨some session, ∅, {}⟩

def replaceCurrent (record : SessionRecord) (session : SessionState) (now : ℤ) : SessionRecord :=
  { record with
    currentSession := some session
    metadata := { record.metadata with lastSentAt := some now } }

def withDevice (user : Option UserRecord) (deviceId : DeviceId) (record : DeviceRecord) (now : ℤ) :
    UserRecord :=
  let user := user.getD { devices := ∅, createdAt := now, updatedAt := now }
  { user with devices := user.devices.set deviceId record, updatedAt := now }

structure MemoryState where
  sessionRecords : OrderedMap KeyText SessionRecord
  sesameUserRecords : OrderedMap String UserRecord

namespace MemoryState

def getAddressKey (address : ProtocolAddress) : KeyText :=
  serializeAddress address.userId address.deviceId

/-- ``key.startsWith(`${userId}.`) || key === userId``. -/
def isKeyOf (userId : String) (key : KeyText) : Bool :=
  startsWith (userId.toList ++ ['.']) key || key = userId.toList

def setSession (address : ProtocolAddress) (record : SessionRecord) (state : MemoryState) :
    MemoryState :=
  { state with sessionRecords := state.sessionRecords.set (getAddressKey address) record }

def archiveCurrentSession (address : ProtocolAddress) (newSession : Option SessionState) (now : ℤ)
    (state : MemoryState) : MemoryState :=
  match state.sessionRecords.get? (getAddressKey address) with
  | some record =>
    let archived := record.archiveCurrent newSession MAX_ARCHIVED_SESSIONS
    state.setSession address
      { archived with metadata := { archived.metadata with lastSentAt := some now } }
  | none =>
    match newSession with
    | some session => state.setSession address (createRecord session)
    | none => state

def setDeviceRecord (address : ProtocolAddress) (record : DeviceRecord) (now : ℤ)
    (state : MemoryState) : MemoryState :=
  let state := match record.session with
    | some session => state.setSession address session
    | none => state
  let user := withDevice (state.sesameUserRecords.get? address.userId) address.deviceId
    { record with session := none } now
  { state with sesameUserRecords := state.sesameUserRecords.set address.userId user }

def call : Call → EStateM String MemoryState Answer
  | .storeSessionRecord address record => do
      modify (setSession address record)
      return .done
  | .archiveCurrentSession address newSession now => do
      modify (archiveCurrentSession address newSession now)
      return .done
  | .setDeviceRecord address record now => do
      modify (setDeviceRecord address record now)
      return .done
  | .deleteSessionRecord address => do
      modify fun state =>
        { state with sessionRecords := state.sessionRecords.erase (getAddressKey address) }
      return .done
  | .getSessionRecord address => do
      return .session ((← get).sessionRecords.get? (getAddressKey address))
  | .hasSession address => do return .flag ((← get).sessionRecords.has (getAddressKey address))
  | .getSessionsForUser userId => do
      return .sessions ((← get).sessionRecords.filterKeys (isKeyOf userId)).values

end MemoryState

def sessionTypes : StoredTypes := ⟨Unit, Unit, Unit, Unit, Unit⟩

def sessionRules : StoreRules sessionTypes where
  evaluateContactIdentityCandidate _ _ _ := .new
  createUnverifiedContactIdentityRecord _ _ := ()
  acceptRotation _ _ _ _ := .ok ()
  verifyContactIdentityRecord _ _ _ _ := .ok ()
  isCurrentSessionRecord _ := true
  createKyberPreKeyState := ()
  retainKyberPreKey _ _ _ _ := .ok none
  getCurrentKyberPreKey _ := none
  getRetainedKyberPreKey _ _ := none
  recordKyberPreKeyUse _ _ _ := .ok ()
  kyberPreKeyIds _ := []
  isStaleDeviceRecord _ _ _ := false
  expireDeviceSessions device _ _ := (device, 0)
  codeUnitsBefore first second := first < second
  maxUnacknowledgedSessionAgeMs := 0

abbrev KeyValueState := OrderedMap KeyText (Row sessionTypes KeyText)

def keyValueCall : Call → EStateM String KeyValueState Answer
  | .storeSessionRecord address record => do
      storeSessionRecord textLayout sessionRules address.userId address.deviceId record
      return .done
  | .archiveCurrentSession address newSession now => do
      archiveCurrentSession textLayout sessionRules address.userId address.deviceId newSession now
      return .done
  | .setDeviceRecord address record now => do
      setDeviceRecord textLayout address.userId address.deviceId record now
      return .done
  | .deleteSessionRecord address => do
      deleteSessionRecord textLayout address.userId address.deviceId
      return .done
  | .getSessionRecord address => do
      return .session (← getSessionRecord textLayout sessionRules address.userId address.deviceId)
  | .hasSession address => do
      return .flag (← hasSession textLayout sessionRules address.userId address.deviceId)
  | .getSessionsForUser userId => do
      return .sessions (← getSessionsForUser textLayout sessionRules userId)

/-- A row of the `sessions` object store. Its index `by-user` reads the user id. -/
structure SessionRow where
  userId : String
  deviceId : ℕ
  record : SessionRecord

structure IndexedDbState where
  sessions : OrderedMap KeyText SessionRow
  sesameUsers : OrderedMap String UserRecord

namespace IndexedDbState

def addressKey (address : ProtocolAddress) : KeyText :=
  serializeAddress address.userId address.deviceId

def putSession (address : ProtocolAddress) (record : SessionRecord) (state : IndexedDbState) :
    IndexedDbState :=
  { state with
    sessions := state.sessions.set (addressKey address) ⟨address.userId, address.deviceId, record⟩ }

def removeSession (address : ProtocolAddress) (state : IndexedDbState) : IndexedDbState :=
  { state with sessions := state.sessions.erase (addressKey address) }

def getSessionRecord (address : ProtocolAddress) (state : IndexedDbState) : Option SessionRecord :=
  (state.sessions.get? (addressKey address)).map (·.record)

def archiveCurrentSession (address : ProtocolAddress) (newSession : Option SessionState) (now : ℤ)
    (state : IndexedDbState) : IndexedDbState :=
  match newSession with
  | none => state.removeSession address
  | some session =>
    match state.getSessionRecord address with
    | some record => state.putSession address (replaceCurrent record session now)
    | none => state

def putDevice (address : ProtocolAddress) (record : DeviceRecord) (now : ℤ)
    (state : IndexedDbState) : IndexedDbState :=
  let user := withDevice (state.sesameUsers.get? address.userId) address.deviceId record now
  { state with sesameUsers := state.sesameUsers.set address.userId (encodeUserRecord user) }

/-- A session is written under an address that `ProtocolAddress.create` makes. When it refuses the
user id, the transaction aborts. -/
def setDeviceRecord (address : ProtocolAddress) (record : DeviceRecord) (now : ℤ) :
    EStateM String IndexedDbState Unit := do
  match record.session with
  | none => modify (putDevice address record now)
  | some session =>
    if address.userId.trimAscii.isEmpty then throw "userId cannot be empty"
    modify fun state => (state.putDevice address record now).putSession address session

def call : Call → EStateM String IndexedDbState Answer
  | .storeSessionRecord address record => do
      modify (putSession address record)
      return .done
  | .archiveCurrentSession address newSession now => do
      modify (archiveCurrentSession address newSession now)
      return .done
  | .setDeviceRecord address record now => do
      setDeviceRecord address record now
      return .done
  | .deleteSessionRecord address => do
      modify (removeSession address)
      return .done
  | .getSessionRecord address => do return .session ((← get).getSessionRecord address)
  | .hasSession address => do return .flag ((← get).getSessionRecord address).isSome
  | .getSessionsForUser userId => do
      return .sessions
        ((← get).sessions.values.filter (·.userId = userId) |>.map SessionRow.record)

end IndexedDbState

/-- `LIKE`: `%` stands for any characters and `_` for one. ASCII letters match in either case. -/
def sqlLike : List Char → List Char → Bool
  | [], text => text = []
  | char :: pattern, text =>
    if char = '%' then text.tails.any (sqlLike pattern)
    else
      match text with
      | [] => false
      | first :: rest => (char = '_' || char.toLower = first.toLower) && sqlLike pattern rest

structure SqliteState where
  /-- The `record` column by `session_id`. -/
  sessions : OrderedMap KeyText SessionRecord
  sesameUserRecords : OrderedMap String UserRecord

namespace SqliteState

def sessionIdOf (address : ProtocolAddress) : KeyText :=
  address.userId.toList ++ ':' :: decimal address.deviceId

def userPattern (userId : String) : KeyText := userId.toList ++ [':', '%']

def save (address : ProtocolAddress) (record : SessionRecord) (state : SqliteState) : SqliteState :=
  { state with sessions := state.sessions.set (sessionIdOf address) record }

def deleteSession (address : ProtocolAddress) (state : SqliteState) : SqliteState :=
  { state with sessions := state.sessions.erase (sessionIdOf address) }

def archiveCurrentSession (address : ProtocolAddress) (newSession : Option SessionState)
    (state : SqliteState) : SqliteState :=
  match newSession with
  | none => state.deleteSession address
  | some session =>
    match state.sessions.get? (sessionIdOf address) with
    | some existing =>
      state.save address (existing.archiveCurrent (some session) MAX_ARCHIVED_SESSIONS)
    | none => state.save address (createRecord session)

def saveSesameDevice (address : ProtocolAddress) (record : DeviceRecord) (now : ℤ)
    (state : SqliteState) : SqliteState :=
  let user := withDevice (state.sesameUserRecords.get? address.userId) address.deviceId record now
  let state := { state with
    sesameUserRecords := state.sesameUserRecords.set address.userId (encodeUserRecord user) }
  match record.session with
  | some session => state.save address session
  | none => state

def call : Call → EStateM String SqliteState Answer
  | .storeSessionRecord address record => do
      modify (save address record)
      return .done
  | .archiveCurrentSession address newSession _ => do
      modify (archiveCurrentSession address newSession)
      return .done
  | .setDeviceRecord address record now => do
      modify (saveSesameDevice address record now)
      return .done
  | .deleteSessionRecord address => do
      modify (deleteSession address)
      return .done
  | .getSessionRecord address => do
      return .session ((← get).sessions.get? (sessionIdOf address))
  | .hasSession address => do return .flag ((← get).sessions.has (sessionIdOf address))
  | .getSessionsForUser userId => do
      return .sessions ((← get).sessions.filterKeys (sqlLike (userPattern userId))).values

end SqliteState

def runCalls {State : Type} (call : Call → EStateM String State Answer) :
    List Call → State → List (Except String Answer) × State
  | [], state => ([], state)
  | next :: calls, state =>
    match call next state with
    | .ok answer state =>
      let rest := runCalls call calls state
      (.ok answer :: rest.1, rest.2)
    | .error error state =>
      let rest := runCalls call calls state
      (.error error :: rest.1, rest.2)

def answers {State : Type} (call : Call → EStateM String State Answer) (calls : List Call)
    (state : State) : List (Except String Answer) :=
  (runCalls call calls state).1.map (Except.map Answer.untimed)

abbrev SessionMap := OrderedMap ProtocolAddress SessionRecord

def archiveIn (sessions : SessionMap) (address : ProtocolAddress)
    (newSession : Option SessionState) : SessionMap :=
  match sessions.get? address with
  | some record => sessions.set address (record.archiveCurrent newSession MAX_ARCHIVED_SESSIONS)
  | none => newSession.elim sessions fun session => sessions.set address (createRecord session)

def sessionMapCall : Call → EStateM String SessionMap Answer
  | .storeSessionRecord address record => do
      modify (·.set address (untimed record))
      return .done
  | .archiveCurrentSession address newSession _ => do
      modify (archiveIn · address newSession)
      return .done
  | .setDeviceRecord address record _ => do
      modify fun sessions => record.session.elim sessions fun session =>
        sessions.set address (untimed session)
      return .done
  | .deleteSessionRecord address => do
      modify (·.erase address)
      return .done
  | .getSessionRecord address => do return .session ((← get).get? address)
  | .hasSession address => do return .flag ((← get).has address)
  | .getSessionsForUser userId => do
      return .sessions ((← get).filterKeys (·.userId = userId)).values

end SignalProtocol.SessionStores

import SignalProtocol.Basic
import SignalProtocol.KeyValue.Keys
import SignalProtocol.Sesame.Records
import Mathlib.Data.List.Sort

/-! # The key-value store

The operations of `KeyValueSignalProtocolStore` on a backend that maps keys to rows. -/

namespace SignalProtocol.KeyValue

open Sesame

structure StoredTypes where
  Contact : Type
  Identity : Type
  Kyber : Type
  KyberPreKey : Type
  KyberUse : Type

structure PreKey where
  keyId : ℕ
  timestamp : Option ℤ
  /-- The key material, as JSON text. -/
  material : String
  deriving DecidableEq

structure SenderKeyState where
  senderKeyId : String
  /-- The chain and the signing keys, as JSON text. -/
  chain : String

structure MessageRecord where
  sessionId : String
  timestamp : ℕ
  plaintext : String
  createdAt : ℤ

abbrev SkippedSenderMessageKey := String

inductive Row (T : StoredTypes) (K : Type) where
  | contact (record : T.Contact)
  | preKeys (keys : List PreKey)
  | kyber (state : T.Kyber)
  | session (userId : String) (deviceId : ℕ) (record : SessionRecord)
  | user (record : UserRecord)
  | senderKeys (states : List SenderKeyState)
  | pointer (recordKey : K)
  | skipped (messageKey : SkippedSenderMessageKey)
  | message (record : MessageRecord)
  | metadata (value : String)

inductive ContactStatus where
  | new
  | match
  | changed
  | rollback
  deriving DecidableEq

inductive IdentityKeyChange where
  | newIdentity
  | unchanged
  | changed
  | rollback

structure StoreRules (T : StoredTypes) where
  evaluateContactIdentityCandidate : Option T.Contact → T.Identity → Option Bytes → ContactStatus
  createUnverifiedContactIdentityRecord : T.Identity → ℤ → T.Contact
  acceptRotation : T.Contact → T.Identity → ℤ → Option Bytes → Except String T.Contact
  verifyContactIdentityRecord : T.Contact → T.Identity → ℤ → Option Bytes → Except String T.Contact
  isCurrentSessionRecord : SessionRecord → Bool
  createKyberPreKeyState : T.Kyber
  /-- The new state, when the key was not retained before. -/
  retainKyberPreKey : T.Kyber → T.KyberPreKey → IdentityType → ℤ → Except String (Option T.Kyber)
  getCurrentKyberPreKey : T.Kyber → Option T.KyberPreKey
  getRetainedKyberPreKey : T.Kyber → ℕ → Option T.KyberPreKey
  recordKyberPreKeyUse : Option T.Kyber → IdentityType → T.KyberUse → Except String T.Kyber
  kyberPreKeyIds : T.Kyber → List ℕ
  isStaleDeviceRecord : DeviceRecord → ℤ → ℤ → Bool
  expireDeviceSessions : DeviceRecord → ℤ → ℤ → DeviceRecord × ℕ
  codeUnitsBefore : String → String → Bool
  maxUnacknowledgedSessionAgeMs : ℤ

section Backend

variable {T : StoredTypes} {K : Type} [DecidableEq K]

abbrev StoreM (T : StoredTypes) (K : Type) := EStateM String (OrderedMap K (Row T K))

def getItem (key : K) : StoreM T K (Option (Row T K)) := do
  return (← get).get? key

def setItem (key : K) (row : Row T K) : StoreM T K Unit := modify (·.set key row)

def removeItem (key : K) : StoreM T K Unit := modify (·.erase key)

def removeMany (keys : List K) : StoreM T K Unit :=
  modify fun rows => keys.foldl OrderedMap.erase rows

def keysWhere (found : K → Bool) : StoreM T K (List K) := do
  return (← get).keys.filter found

def readRow {α : Type} (decode : Row T K → Option α) (key : K) : StoreM T K (Option α) := do
  match ← getItem key with
  | none => return none
  | some row =>
    match decode row with
    | some value => return some value
    | none => throw "Stored record is invalid"

def Row.contact? : Row T K → Option T.Contact
  | .contact record => some record
  | _ => none

def Row.preKeys? : Row T K → Option (List PreKey)
  | .preKeys keys => some keys
  | _ => none

def Row.kyber? : Row T K → Option T.Kyber
  | .kyber state => some state
  | _ => none

def Row.session? : Row T K → Option (String × ℕ × SessionRecord)
  | .session userId deviceId record => some (userId, deviceId, record)
  | _ => none

def Row.user? : Row T K → Option UserRecord
  | .user record => some record
  | _ => none

def Row.senderKeys? : Row T K → Option (List SenderKeyState)
  | .senderKeys states => some states
  | _ => none

def Row.pointer? : Row T K → Option K
  | .pointer recordKey => some recordKey
  | _ => none

def Row.skipped? : Row T K → Option SkippedSenderMessageKey
  | .skipped messageKey => some messageKey
  | _ => none

def Row.message? : Row T K → Option MessageRecord
  | .message record => some record
  | _ => none

def Row.metadata? : Row T K → Option String
  | .metadata value => some value
  | _ => none

inductive Write (T : StoredTypes) (K : Type) where
  | set (key : K) (row : Row T K)
  | remove (key : K)
  | pruneSkippedSenderKeys (groupId senderId : String) (senderDeviceId : ℕ) (maxCount : ℕ)
  | removeSessionsForUser (userId : String)

variable (L : KeyLayout K)

def byChainIndex (keys : List K) : List K :=
  keys.insertionSort fun first second => L.chainIndex first ≤ L.chainIndex second

def removeSessionsForUser (userId : String) : StoreM T K Unit := modify fun rows =>
  rows.filterEntries fun key row =>
    !(L.isSession key && row.session?.any fun session => session.1 = userId)

def applyWrite : Write T K → StoreM T K Unit
  | .set key row => setItem key row
  | .remove key => removeItem key
  | .pruneSkippedSenderKeys groupId senderId senderDeviceId maxCount => do
      let keys ← keysWhere (L.inSkippedSender groupId senderId senderDeviceId)
      removeMany ((byChainIndex L keys).take (keys.length - maxCount))
  | .removeSessionsForUser userId => removeSessionsForUser L userId

def atomicWrite (writes : List (Write T K)) : StoreM T K Unit := writes.forM (applyWrite L)

end Backend

variable {T : StoredTypes} {K : Type} [DecidableEq K]
variable (L : KeyLayout K) (rules : StoreRules T)

def readContactRecord (userId : String) (identityType : IdentityType) :
    StoreM T K (Option T.Contact) := do
  match ← readRow Row.contact? (L.key (.contact userId identityType)) with
  | none => do
      removeItem (L.key (.obsoleteContact userId))
      return none
  | some record => return some record

def saveContactIdentity (userId : String) (identity : T.Identity) (identityType : IdentityType)
    (commitment : Option Bytes) (now : ℤ) : StoreM T K IdentityKeyChange := do
  let existing ← readContactRecord L userId identityType
  match rules.evaluateContactIdentityCandidate existing identity commitment with
  | .new => do
      setItem (L.key (.contact userId identityType))
        (.contact (rules.createUnverifiedContactIdentityRecord identity now))
      return .newIdentity
  | .match => return .unchanged
  | .rollback => return .rollback
  | .changed => return .changed

def isTrustedIdentity (userId : String) (identity : T.Identity) (identityType : IdentityType) :
    StoreM T K Bool := do
  let existing ← readContactRecord L userId identityType
  let status := rules.evaluateContactIdentityCandidate existing identity none
  return status = .new || status = .match

def acceptContactIdentityRotation (userId : String) (identity : T.Identity)
    (identityType : IdentityType) (commitment : Option Bytes) (now : ℤ) :
    StoreM T K T.Contact := do
  match ← readRow Row.contact? (L.key (.contact userId identityType)) with
  | none => throw "Cannot rotate an unseen identity"
  | some existing => do
      let replacement ← Results.fromResult
        (rules.acceptRotation existing identity now commitment)
      atomicWrite L [.set (L.key (.contact userId identityType)) (.contact replacement),
        .removeSessionsForUser userId]
      return replacement

def verifyContactIdentity (userId : String) (identity : T.Identity) (identityType : IdentityType)
    (commitment : Option Bytes) (now : ℤ) : StoreM T K T.Contact := do
  match ← readRow Row.contact? (L.key (.contact userId identityType)) with
  | none => throw "Cannot verify an unseen identity"
  | some existing => do
      let verified ← Results.fromResult
        (rules.verifyContactIdentityRecord existing identity now commitment)
      atomicWrite L [.set (L.key (.contact userId identityType)) (.contact verified)]
      return verified

def getPreKeys (kind : PreKeyKind) (identityType : IdentityType) : StoreM T K (List PreKey) := do
  return (← readRow Row.preKeys? (L.key (.preKeys kind identityType))).getD []

def setPreKeys (kind : PreKeyKind) (identityType : IdentityType) (keys : List PreKey) :
    StoreM T K Unit :=
  setItem (L.key (.preKeys kind identityType)) (.preKeys keys)

def highestPreKey : List PreKey → Option PreKey
  | [] => none
  | first :: rest => some <| rest.foldl
      (fun latest current => if current.keyId > latest.keyId then current else latest) first

def newestPreKey : List PreKey → Option PreKey
  | [] => none
  | first :: rest => some <| rest.foldl
      (fun newest key => if newest.keyId > key.keyId then newest else key) first

def storeEcSignedPreKey (signedPreKey : PreKey) (identityType : IdentityType) (now : ℤ) :
    StoreM T K Unit := do
  let stored ← getPreKeys L .signedAll identityType
  let all := if stored.any (·.keyId = signedPreKey.keyId) then
      stored.replaceF fun key => if key.keyId = signedPreKey.keyId then some signedPreKey else none
    else stored ++ [signedPreKey]
  let cutoff := now - rules.maxUnacknowledgedSessionAgeMs
  let newest := newestPreKey all
  setPreKeys L .signedAll identityType <| all.filter fun key =>
    newest.any (·.keyId = key.keyId) || key.timestamp.any fun timestamp => timestamp ≠ 0 && timestamp > cutoff

def getEcSignedPreKey (keyId : Option ℕ) (identityType : IdentityType) :
    StoreM T K (Option PreKey) := do
  let all ← getPreKeys L .signedAll identityType
  match keyId with
  | some keyId => return all.find? (·.keyId = keyId)
  | none => return highestPreKey all

def removePreKey (kind : PreKeyKind) (keyId : ℕ) (identityType : IdentityType) :
    StoreM T K Unit := do
  let keys ← getPreKeys L kind identityType
  setPreKeys L kind identityType (keys.filter (·.keyId ≠ keyId))

def removeEcSignedPreKey (keyId : ℕ) (identityType : IdentityType) : StoreM T K Unit :=
  removePreKey L .signedAll keyId identityType

def storeOneTimePreKeys (kind : PreKeyKind) (prekeys : List PreKey) (identityType : IdentityType) :
    StoreM T K Unit := do
  let existing ← getPreKeys L kind identityType
  setPreKeys L kind identityType (existing ++ prekeys)

def storeEcOneTimePreKeys (prekeys : List PreKey) (identityType : IdentityType) : StoreM T K Unit :=
  storeOneTimePreKeys L .oneTime prekeys identityType

def removeEcOneTimePreKey (keyId : ℕ) (identityType : IdentityType) : StoreM T K Unit :=
  removePreKey L .oneTime keyId identityType

def storeKemOneTimePreKeys (prekeys : List PreKey) (identityType : IdentityType) :
    StoreM T K Unit :=
  storeOneTimePreKeys L .kemOneTime prekeys identityType

def removeKemOneTimePreKey (keyId : ℕ) (identityType : IdentityType) : StoreM T K Unit :=
  removePreKey L .kemOneTime keyId identityType

def readKyber (identityType : IdentityType) : StoreM T K (Option T.Kyber) :=
  readRow Row.kyber? (L.key (.preKeys .kyber identityType))

def storeKyberPreKey (kyberPreKey : T.KyberPreKey) (identityType : IdentityType) (now : ℤ) :
    StoreM T K Unit := do
  let stored ← readKyber L identityType
  let retained ← Results.fromResult (rules.retainKyberPreKey
    (stored.getD rules.createKyberPreKeyState) kyberPreKey identityType now)
  match retained with
  | none => return
  | some state => setItem (L.key (.preKeys .kyber identityType)) (.kyber state)

def getKyberPreKey (identityType : IdentityType) : StoreM T K (Option T.KyberPreKey) := do
  return (← readKyber L identityType).bind rules.getCurrentKyberPreKey

def getKyberPreKeyById (keyId : ℕ) (identityType : IdentityType) :
    StoreM T K (Option T.KyberPreKey) := do
  return (← readKyber L identityType).bind (rules.getRetainedKyberPreKey · keyId)

def markKyberPreKeyUsed (use : T.KyberUse) (identityType : IdentityType) : StoreM T K Unit := do
  let stored ← readKyber L identityType
  let state ← Results.fromResult (rules.recordKyberPreKeyUse stored identityType use)
  setItem (L.key (.preKeys .kyber identityType)) (.kyber state)

def getKyberPreKeyMaxId (identityType : IdentityType) : StoreM T K ℕ := do
  return ((← readKyber L identityType).elim [] rules.kyberPreKeyIds).foldl max 0

structure DeletedPreKeys where
  ecSignedPreKeys : ℕ
  ecOneTimePreKeys : ℕ
  kyberPreKeys : ℕ
  kemOneTimePreKeys : ℕ

def deleteAllPreKeys (identityType : IdentityType) : StoreM T K DeletedPreKeys := do
  let signedPreKeys ← getPreKeys L .signedAll identityType
  let ecOneTimePreKeys ← getPreKeys L .oneTime identityType
  let kyber ← readKyber L identityType
  let kemOneTimePreKeys ← getPreKeys L .kemOneTime identityType
  removeMany [L.key (.preKeys .signedAll identityType), L.key (.preKeys .oneTime identityType),
    L.key (.preKeys .kyber identityType), L.key (.preKeys .kemOneTime identityType)]
  let kyberUsageKeys ← keysWhere (L.isKyberUsage identityType)
  removeMany kyberUsageKeys
  return ⟨signedPreKeys.length, ecOneTimePreKeys.length,
    (kyber.elim [] rules.kyberPreKeyIds).length, kemOneTimePreKeys.length⟩

def storeSessionRecord (userId : String) (deviceId : ℕ) (record : SessionRecord) :
    StoreM T K Unit := do
  if !rules.isCurrentSessionRecord record then throw "Session record is not current"
  setItem (L.key (.session userId deviceId)) (.session userId deviceId record)

def getSessionRecord (userId : String) (deviceId : ℕ) : StoreM T K (Option SessionRecord) := do
  match ← readRow Row.session? (L.key (.session userId deviceId)) with
  | none => return none
  | some stored =>
    if rules.isCurrentSessionRecord stored.2.2 then return some stored.2.2
    else do
      removeItem (L.key (.session userId deviceId))
      return none

structure SessionTrustCommit (T : StoredTypes) where
  userId : String
  deviceId : ℕ
  record : SessionRecord
  contactIdentity : T.Identity
  contactIdentityType : IdentityType
  localIdentityType : IdentityType
  oneTimePreKeyId : Option ℕ
  kemOneTimePreKeyId : Option ℕ
  kyberPreKeyUse : Option T.KyberUse

def consumeOneTimePreKey (kind : PreKeyKind) (identityType : IdentityType) (keyId : Option ℕ)
    (missing : String) : StoreM T K (List (Write T K)) := do
  match keyId with
  | none => return []
  | some keyId => do
      let keys ← getPreKeys L kind identityType
      if !keys.any (·.keyId = keyId) then throw missing
      return [.set (L.key (.preKeys kind identityType)) (.preKeys (keys.filter (·.keyId ≠ keyId)))]

def commitSessionTrust (commit : SessionTrustCommit T) (now : ℤ) : StoreM T K Unit := do
  if !rules.isCurrentSessionRecord commit.record then throw "Session record is not current"
  let contactKey := L.key (.contact commit.userId commit.contactIdentityType)
  let existing ← readRow Row.contact? contactKey
  let status := rules.evaluateContactIdentityCandidate existing commit.contactIdentity none
  if status ≠ .new ∧ status ≠ .match then
    throw "Atomic session/trust commit rejected contact identity status"
  let ecWrites ← consumeOneTimePreKey L .oneTime commit.localIdentityType commit.oneTimePreKeyId
    "Atomic session/trust commit cannot consume a missing EC one-time prekey"
  let kemWrites ← consumeOneTimePreKey L .kemOneTime commit.localIdentityType
    commit.kemOneTimePreKeyId
    "Atomic session/trust commit cannot consume a missing KEM one-time prekey"
  let kyberWrites ← match commit.kyberPreKeyUse with
    | none => pure []
    | some use => do
        let stored ← readKyber L commit.localIdentityType
        let state ← Results.fromResult
          (rules.recordKyberPreKeyUse stored commit.localIdentityType use)
        pure [Write.set (L.key (.preKeys .kyber commit.localIdentityType)) (.kyber state)]
  let contactWrites := if status = .new then
      [Write.set contactKey
        (.contact (rules.createUnverifiedContactIdentityRecord commit.contactIdentity now))]
    else []
  atomicWrite L ([.set (L.key (.session commit.userId commit.deviceId))
    (.session commit.userId commit.deviceId commit.record)] ++ contactWrites ++ ecWrites ++
      kemWrites ++ kyberWrites)

def deleteSessionRecord (userId : String) (deviceId : ℕ) : StoreM T K Unit :=
  atomicWrite L [.remove (L.key (.session userId deviceId))]

def archiveCurrentSession (userId : String) (deviceId : ℕ) (newSession : Option SessionState)
    (now : ℤ) : StoreM T K Unit := do
  match newSession with
  | some session => do
      match ← getSessionRecord L rules userId deviceId with
      | some record => do
          let updated := { record with
            currentSession := some session
            metadata := { record.metadata with lastSentAt := some now } }
          if !rules.isCurrentSessionRecord updated then throw "Session record is not current"
          atomicWrite L [.set (L.key (.session userId deviceId)) (.session userId deviceId updated)]
      | none => atomicWrite L []
  | none => atomicWrite L [.remove (L.key (.session userId deviceId))]

/-- One row of the scan of `getSessionsForUser`. -/
def sessionOfUser (userId : String) (key : K) : StoreM T K (Option SessionRecord) := do
  match ← readRow Row.session? key with
  | none => return none
  | some stored =>
    if stored.1 = userId then
      if rules.isCurrentSessionRecord stored.2.2 then return some stored.2.2
      else do
        removeItem key
        return none
    else return none

def getSessionsForUser (userId : String) : StoreM T K (List SessionRecord) := do
  let keys ← keysWhere L.isSession
  return (← keys.mapM (sessionOfUser rules userId)).reduceOption

def hasSession (userId : String) (deviceId : ℕ) : StoreM T K Bool := do
  return (← getSessionRecord L rules userId deviceId).any (·.currentSession.isSome)

def getSessionCount : StoreM T K ℕ := do return (← keysWhere L.isSession).length

def clearAllSessions : StoreM T K Unit := do
  let keys ← keysWhere fun key => L.isSession key || (L.sesameUserId? key).isSome
  removeMany keys

def getStoredUserRecord (userId : String) : StoreM T K (Option UserRecord) :=
  readRow Row.user? (L.key (.sesameUser userId))

def encodeUserRecord (record : UserRecord) : UserRecord :=
  { record with devices := record.devices.mapValues fun device => { device with session := none } }

def createAddress (userId : String) : StoreM T K Unit :=
  if userId.trimAscii.isEmpty then throw "userId cannot be empty" else return

def joinDevice (userId : String) (now : ℤ) (devices : OrderedMap DeviceId DeviceRecord)
    (entry : DeviceId × DeviceRecord) : StoreM T K (OrderedMap DeviceId DeviceRecord) := do
  createAddress userId
  let session ← getSessionRecord L rules userId entry.1
  return devices.set entry.1 ((withSession entry.1 (some entry.2) session now).getD entry.2)

def getUserRecord (userId : String) (now : ℤ) : StoreM T K (Option UserRecord) := do
  match ← getStoredUserRecord L userId with
  | none => return none
  | some record => do
      let devices ← record.devices.entries.foldlM (joinDevice L rules userId now) record.devices
      return some { record with devices := devices }

def setUserRecord (userId : String) (record : UserRecord) : StoreM T K Unit :=
  setItem (L.key (.sesameUser userId)) (.user (encodeUserRecord record))

def getDeviceRecord (userId : String) (deviceId : DeviceId) (now : ℤ) :
    StoreM T K (Option DeviceRecord) := do
  let stored := (← getStoredUserRecord L userId).bind fun record => record.devices.get? deviceId
  createAddress userId
  let session ← getSessionRecord L rules userId deviceId
  return withSession deviceId stored session now

def setDeviceRecord (userId : String) (deviceId : DeviceId) (record : DeviceRecord) (now : ℤ) :
    StoreM T K Unit := do
  let stored ← getStoredUserRecord L userId
  let user := stored.getD { devices := ∅, createdAt := now, updatedAt := now }
  let updated := { user with devices := user.devices.set deviceId record, updatedAt := now }
  let userWrite := Write.set (L.key (.sesameUser userId)) (.user (encodeUserRecord updated))
  match record.session with
  | none => atomicWrite L [userWrite]
  | some session => do
      createAddress userId
      atomicWrite L
        [userWrite, .set (L.key (.session userId deviceId)) (.session userId deviceId session)]

def deleteDeviceRecord (userId : String) (deviceId : DeviceId) (now : ℤ) : StoreM T K Unit := do
  match ← getStoredUserRecord L userId with
  | none => atomicWrite L []
  | some record => do
      let devices := record.devices.erase deviceId
      createAddress userId
      atomicWrite L [.remove (L.key (.session userId deviceId)),
        if devices.size = 0 then .remove (L.key (.sesameUser userId))
        else .set (L.key (.sesameUser userId))
          (.user (encodeUserRecord { record with devices := devices, updatedAt := now }))]

def getAllUserIds : StoreM T K (List String) := do
  let keys ← keysWhere fun key => (L.sesameUserId? key).isSome
  return keys.filterMap L.sesameUserId?

def getSesameDeviceIds (userId : String) : StoreM T K (List DeviceId) := do
  return (← getStoredUserRecord L userId).elim [] fun record => record.devices.keys

def getDeviceSession (userId : String) (deviceId : DeviceId) (now : ℤ) :
    StoreM T K (Option SessionRecord) := do
  return (← getDeviceRecord L rules userId deviceId now).bind (·.session)

def setDeviceSession (userId : String) (deviceId : DeviceId) (session : SessionRecord) (now : ℤ) :
    StoreM T K Unit := do
  match ← getDeviceRecord L rules userId deviceId now with
  | none => return
  | some record => setDeviceRecord L userId deviceId { record with session := some session } now

def deleteStaleDevice (maxLatency now : ℤ) (userId : String) (deleted : ℕ)
    (entry : DeviceId × DeviceRecord) : StoreM T K ℕ := do
  if !rules.isStaleDeviceRecord entry.2 now maxLatency then return deleted
  match ← getDeviceRecord L rules userId entry.1 now with
  | none => return deleted
  | some current =>
    if !rules.isStaleDeviceRecord current now maxLatency then return deleted
    deleteDeviceRecord L userId entry.1 now
    return deleted + 1

def deleteStaleOfUser (maxLatency now : ℤ) (deleted : ℕ) (userId : String) : StoreM T K ℕ := do
  match ← getUserRecord L rules userId now with
  | none => return deleted
  | some record =>
    record.devices.entries.foldlM (deleteStaleDevice L rules maxLatency now userId) deleted

def deleteStaleRecords (maxLatency now : ℤ) : StoreM T K ℕ := do
  let userIds ← getAllUserIds L
  userIds.foldlM (deleteStaleOfUser L rules maxLatency now) 0

def expireSessionsOfDevice (maxRecv now : ℤ) (userId : String) (deleted : ℕ)
    (entry : DeviceId × DeviceRecord) : StoreM T K ℕ := do
  if entry.2.session.isNone then return deleted
  match ← getDeviceRecord L rules userId entry.1 now with
  | none => return deleted
  | some current =>
    let expired := rules.expireDeviceSessions current now maxRecv
    if expired.2 = 0 then return deleted
    setDeviceRecord L userId entry.1 { expired.1 with updatedAt := now } now
    return deleted + expired.2

def expireSessionsOfUser (maxRecv now : ℤ) (deleted : ℕ) (userId : String) : StoreM T K ℕ := do
  match ← getUserRecord L rules userId now with
  | none => return deleted
  | some record =>
    record.devices.entries.foldlM (expireSessionsOfDevice L rules maxRecv now userId) deleted

def cleanupExpiredSessions (maxRecv now : ℤ) : StoreM T K ℕ := do
  let userIds ← getAllUserIds L
  userIds.foldlM (expireSessionsOfUser L rules maxRecv now) 0

/-! ## Calls on one-time prekeys

The calls that change one-time prekeys, with the steps of several calls in any order. -/

structure SealedPreKeys where
  keys : List PreKey
  nonce : ℕ
  deriving DecidableEq

/-- `getEcOneTimePreKeys` and `getKemOneTimePreKeys` of a stored value. -/
def openPreKeys (value : Option SealedPreKeys) : List PreKey := value.elim [] (·.keys)

inductive OneTimeCall where
  | storeEcOneTimePreKeys (prekeys : List PreKey) (identityType : IdentityType)
  | storeKemOneTimePreKeys (prekeys : List PreKey) (identityType : IdentityType)
  | removeEcOneTimePreKey (preKeyId : ℕ) (identityType : IdentityType)
  | removeKemOneTimePreKey (keyId : ℕ) (identityType : IdentityType)
  | commitSessionTrust (oneTimePreKeyId kemOneTimePreKeyId : Option ℕ)
      (localIdentityType : IdentityType)

inductive PreKeyEffect where
  | add (prekeys : List PreKey)
  | consume (keyId : ℕ)
  deriving DecidableEq

namespace PreKeyEffect

def apply : PreKeyEffect → List PreKey → List PreKey
  | add prekeys, existing => existing ++ prekeys
  | consume keyId, existing => existing.filter (·.keyId ≠ keyId)

/-- A commit refuses to consume a key that is missing. -/
def present : PreKeyEffect → List PreKey → Bool
  | add _, _ => true
  | consume keyId, existing => existing.any (·.keyId = keyId)

end PreKeyEffect

namespace OneTimeCall

def identityType : OneTimeCall → IdentityType
  | storeEcOneTimePreKeys _ identityType => identityType
  | storeKemOneTimePreKeys _ identityType => identityType
  | removeEcOneTimePreKey _ identityType => identityType
  | removeKemOneTimePreKey _ identityType => identityType
  | commitSessionTrust _ _ localIdentityType => localIdentityType

def effect : OneTimeCall → PreKeyKind → Option PreKeyEffect
  | storeEcOneTimePreKeys prekeys _, .oneTime => some (.add prekeys)
  | storeKemOneTimePreKeys prekeys _, .kemOneTime => some (.add prekeys)
  | removeEcOneTimePreKey preKeyId _, .oneTime => some (.consume preKeyId)
  | removeKemOneTimePreKey keyId _, .kemOneTime => some (.consume keyId)
  | commitSessionTrust oneTimePreKeyId _ _, .oneTime => oneTimePreKeyId.map .consume
  | commitSessionTrust _ kemOneTimePreKeyId _, .kemOneTime => kemOneTimePreKeyId.map .consume
  | _, _ => none

def kinds (call : OneTimeCall) : List PreKeyKind :=
  [.oneTime, .kemOneTime].filter fun kind => (call.effect kind).isSome

def isCommit : OneTimeCall → Bool
  | commitSessionTrust .. => true
  | _ => false

end OneTimeCall

structure PendingCall where
  call : OneTimeCall
  toRead : List PreKeyKind
  read : PreKeyKind → Option SealedPreKeys := fun _ => none

abbrev PreKeyValues := PreKeyKind → IdentityType → Option SealedPreKeys

structure OneTimeStore where
  values : PreKeyValues
  pending : ℕ → Option PendingCall := fun _ => none
  completed : PreKeyKind → IdentityType → List PreKeyEffect := fun _ _ => []

def OneTimeStore.opened (values : PreKeyValues) : OneTimeStore := { values }

namespace PendingCall

def sealedValue (pending : PendingCall) (nonce : PreKeyKind → ℕ) (kind : PreKeyKind) :
    Option SealedPreKeys :=
  (pending.call.effect kind).map fun effect =>
    ⟨effect.apply (openPreKeys (pending.read kind)), nonce kind⟩

/-- `commitSessionTrust` throws when a key that it consumes is missing or a check of its batch
fails. `others` is the outcome of its checks of the contact and of the Kyber state. -/
def succeeds (pending : PendingCall) (values : PreKeyValues) (others : Bool) : Bool :=
  !pending.call.isCommit || (others && pending.call.kinds.all fun kind =>
    ((pending.call.effect kind).all fun effect =>
      effect.present (openPreKeys (pending.read kind))) &&
      decide (values kind pending.call.identityType = pending.read kind))

end PendingCall

namespace OneTimeStore

/-- `getEcOneTimePreKeys` and `getKemOneTimePreKeys`. -/
def readable (store : OneTimeStore) (kind : PreKeyKind) (identityType : IdentityType) :
    List PreKey :=
  openPreKeys (store.values kind identityType)

def drop (store : OneTimeStore) (id : ℕ) : OneTimeStore :=
  { store with pending := Function.update store.pending id none }

def write (store : OneTimeStore) (pending : PendingCall) (nonce : PreKeyKind → ℕ) :
    OneTimeStore :=
  { store with
    values := fun kind identityType =>
      if identityType = pending.call.identityType then
        (pending.sealedValue nonce kind).or (store.values kind identityType)
      else store.values kind identityType
    completed := fun kind identityType =>
      if identityType = pending.call.identityType then
        store.completed kind identityType ++ (pending.call.effect kind).toList
      else store.completed kind identityType }

def readNext (store : OneTimeStore) (id : ℕ) (pending : PendingCall) : OneTimeStore :=
  match pending.toRead with
  | [] => store
  | kind :: toRead =>
    { store with pending := Function.update store.pending id (some
        { pending with
          toRead
          read := Function.update pending.read kind
            (store.values kind pending.call.identityType) }) }

/-- The last step of a call: `setItem`, or the missing-key checks and `atomicWrite`. -/
def finish (store : OneTimeStore) (id : ℕ) (pending : PendingCall) (nonce : PreKeyKind → ℕ)
    (others : Bool) : OneTimeStore :=
  if pending.toRead ≠ [] then store
  else if pending.succeeds store.values others then (store.write pending nonce).drop id
  else store.drop id

end OneTimeStore

inductive OneTimeEvent where
  | start (id : ℕ) (call : OneTimeCall)
  | read (id : ℕ)
  | finish (id : ℕ) (nonce : PreKeyKind → ℕ) (others : Bool)

namespace OneTimeStore

def step (store : OneTimeStore) : OneTimeEvent → OneTimeStore
  | .start id call =>
    if (store.pending id).isSome then store
    else
      { store with
        pending := Function.update store.pending id (some { call, toRead := call.kinds }) }
  | .read id => (store.pending id).elim store fun pending => store.readNext id pending
  | .finish id nonce others =>
    (store.pending id).elim store fun pending => store.finish id pending nonce others

def run (store : OneTimeStore) (events : List OneTimeEvent) : OneTimeStore :=
  events.foldl step store

end OneTimeStore

end SignalProtocol.KeyValue

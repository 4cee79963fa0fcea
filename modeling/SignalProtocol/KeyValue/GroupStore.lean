import SignalProtocol.KeyValue.Store

/-! # Sender keys, skipped keys, message records and metadata

The operations of `KeyValueSignalProtocolStore` whose keys join several identifiers or are scanned
by prefix. -/

namespace SignalProtocol.KeyValue

variable {T : StoredTypes} {K : Type} [DecidableEq K]
variable (L : KeyLayout K) (rules : StoreRules T)

def getSenderKeyRecord (place : SenderKeyPlace) : StoreM T K (Option (List SenderKeyState)) :=
  readRow Row.senderKeys? (L.key (.senderKeyRecord place))

def getSenderKey (place : SenderKeyPlace) : StoreM T K (Option SenderKeyState) := do
  return (← getSenderKeyRecord L place).bind List.head?

def pointerKey (place : SenderKeyPlace) (senderKeyId : String) : K :=
  L.key (.senderKeyIdPointer senderKeyId place.userId place.deviceId)

/-- The removals of the `senderKeyId` pointers of one stored record. -/
def senderKeyIdPointerRemovals (place : SenderKeyPlace) : StoreM T K (List (Write T K)) := do
  match ← getSenderKeyRecord L place with
  | none => return []
  | some record =>
    return ((record.map (·.senderKeyId)).filter (· ≠ "")).map fun senderKeyId =>
      .remove (pointerKey L place senderKeyId)

def deleteSenderKey (place : SenderKeyPlace) : StoreM T K Unit := do
  let removals ← senderKeyIdPointerRemovals L place
  atomicWrite L (removals ++ [.remove (L.key (.senderKeyRecord place))])

def resolveGroupForSenderKeyId (senderKeyId userId : String) (deviceId : ℕ) :
    StoreM T K (Option String) := do
  if senderKeyId = "" then return none
  let pointer := L.key (.senderKeyIdPointer senderKeyId userId deviceId)
  match ← readRow Row.pointer? pointer with
  | none => return none
  | some recordKey =>
    match L.senderKeyPlace? recordKey with
    | none => return none
    | some parsed =>
      if parsed.userId ≠ userId ∨ parsed.deviceId ≠ deviceId then return none
      let record ← getSenderKeyRecord L ⟨parsed.groupId, userId, deviceId⟩
      if record.any fun states => states.any (·.senderKeyId = senderKeyId) then
        return some parsed.groupId
      else do
        removeItem pointer
        return none

def latestSenderKey (key : K) : StoreM T K (Option SenderKeyState) := do
  return (← readRow Row.senderKeys? key).bind List.head?

def getAllSenderKeysForGroup (groupId : String) : StoreM T K (List SenderKeyState) := do
  let senderKeys ← keysWhere (L.inSenderKeyGroup groupId)
  return (← senderKeys.mapM latestSenderKey).reduceOption

def pointerRemovalsAt (recordKey : K) : StoreM T K (List (Write T K)) :=
  match L.senderKeyPlace? recordKey with
  | none => return []
  | some place => senderKeyIdPointerRemovals L place

def deleteAllSenderKeysForGroup (groupId : String) : StoreM T K ℕ := do
  let senderKeys ← keysWhere (L.inSenderKeyGroup groupId)
  let removals ← senderKeys.mapM (pointerRemovalsAt L)
  let skippedKeys ← keysWhere (L.inSkippedGroup groupId)
  atomicWrite L (removals.flatten ++ (senderKeys ++ skippedKeys).map Write.remove)
  return senderKeys.length

structure SkippedSenderKey where
  senderKeyId : String
  chainIndex : ℕ
  messageKey : SkippedSenderMessageKey

structure SenderKeyReceiveCommit where
  skippedKeys : List SkippedSenderKey
  maxSkippedKeys : ℕ
  consumedSkippedKey : Option (String × ℕ)

def skippedKey (place : SenderKeyPlace) (senderKeyId : String) (chainIndex : ℕ) : K :=
  L.key (.skippedSenderKey place.groupId place.userId place.deviceId senderKeyId chainIndex)

def receiveWrites (place : SenderKeyPlace) (receive : SenderKeyReceiveCommit) :
    List (Write T K) :=
  (receive.skippedKeys.flatMap fun skipped =>
    [.pruneSkippedSenderKeys place.groupId place.userId place.deviceId (receive.maxSkippedKeys - 1),
      .set (skippedKey L place skipped.senderKeyId skipped.chainIndex)
        (.skipped skipped.messageKey)]) ++
    receive.consumedSkippedKey.toList.map fun consumed =>
      .remove (skippedKey L place consumed.1 consumed.2)

def storeSenderKeyRecord (place : SenderKeyPlace) (states : List SenderKeyState)
    (receive : Option SenderKeyReceiveCommit) : StoreM T K Unit := do
  if states.isEmpty then return
  let superseded ← getSenderKeyRecord L place
  let retained := (states.map (·.senderKeyId)).eraseDups
  let dropped := (superseded.getD []).map (·.senderKeyId) |>.filter fun senderKeyId =>
    senderKeyId ≠ "" && !retained.contains senderKeyId
  let recordKey := L.key (.senderKeyRecord place)
  atomicWrite L ((dropped.map fun senderKeyId => .remove (pointerKey L place senderKeyId)) ++
    [.set recordKey (.senderKeys states)] ++
    ((retained.filter (· ≠ "")).map fun senderKeyId =>
      .set (pointerKey L place senderKeyId) (.pointer recordKey)) ++
    receive.elim [] (receiveWrites L place))

def storeSenderKey (place : SenderKeyPlace) (state : SenderKeyState) : StoreM T K Unit :=
  storeSenderKeyRecord L place [state] none

def storeSkippedSenderKey (sender : SenderKeyPlace) (senderKeyId : String) (chainIndex : ℕ)
    (messageKey : SkippedSenderMessageKey) : StoreM T K Unit :=
  setItem (skippedKey L sender senderKeyId chainIndex) (.skipped messageKey)

def getSkippedSenderKey (sender : SenderKeyPlace) (senderKeyId : String) (chainIndex : ℕ) :
    StoreM T K (Option SkippedSenderMessageKey) :=
  readRow Row.skipped? (skippedKey L sender senderKeyId chainIndex)

def deleteSkippedSenderKey (sender : SenderKeyPlace) (senderKeyId : String) (chainIndex : ℕ) :
    StoreM T K Unit :=
  removeItem (skippedKey L sender senderKeyId chainIndex)

def skippedKeysOf (sender : SenderKeyPlace) : StoreM T K (List K) :=
  keysWhere (L.inSkippedSender sender.groupId sender.userId sender.deviceId)

def countSkippedSenderKeys (sender : SenderKeyPlace) : StoreM T K ℕ := do
  return (← skippedKeysOf L sender).length

def deleteOldestSkippedSenderKeys (sender : SenderKeyPlace) (count : ℕ) : StoreM T K ℕ := do
  let oldest := (byChainIndex L (← skippedKeysOf L sender)).take count
  removeMany oldest
  return oldest.length

def storeMessageRecord (record : MessageRecord) (now : ℤ) : StoreM T K Unit := do
  let key := L.key (.messageRecord record.sessionId record.timestamp)
  let stored ← readRow Row.message? key
  setItem key (.message { record with createdAt := stored.elim now (·.createdAt) })

def getMessageRecord (sessionId : String) (timestamp : ℕ) : StoreM T K (Option MessageRecord) :=
  readRow Row.message? (L.key (.messageRecord sessionId timestamp))

def deleteMessageRecord (sessionId : String) (timestamp : ℕ) : StoreM T K Unit :=
  removeItem (L.key (.messageRecord sessionId timestamp))

def expiredMessageKey (cutoff : ℤ) (key : K) : StoreM T K (Option K) := do
  match ← readRow Row.message? key with
  | none => return none
  | some record => return if record.createdAt < cutoff then some key else none

def deleteExpiredMessageRecords (maxAgeMs now : ℤ) : StoreM T K ℕ := do
  let messageKeys ← keysWhere L.isMessageRecord
  let expired ← messageKeys.mapM (expiredMessageKey (now - maxAgeMs))
  removeMany expired.reduceOption
  return expired.reduceOption.length

/-- The deletion of `clearAllMessageRecords` and `deleteMessageRecordsForSession`. -/
def deleteMessageRecordsWhere (found : K → Bool) : StoreM T K ℕ := do
  let messageKeys ← keysWhere found
  removeMany messageKeys
  return messageKeys.length

def clearAllMessageRecords : StoreM T K ℕ := deleteMessageRecordsWhere L.isMessageRecord

def deleteMessageRecordsForSession (sessionId : String) : StoreM T K ℕ :=
  deleteMessageRecordsWhere (L.inMessageSession sessionId)

def rewriteMessageRecord (rewrite : MessageRecord → Option String) (changed : ℕ) (key : K) :
    StoreM T K ℕ := do
  match ← readRow Row.message? key with
  | none => return changed
  | some record =>
    match rewrite record with
    | none => do
        removeItem key
        return changed + 1
    | some plaintext =>
      if plaintext = record.plaintext then return changed
      else do
        setItem key (.message { record with plaintext := plaintext })
        return changed + 1

def rewriteMessageRecords (rewrite : MessageRecord → Option String) : StoreM T K ℕ := do
  let messageKeys ← keysWhere L.isMessageRecord
  messageKeys.foldlM (rewriteMessageRecord rewrite) 0

def getMetadata (key : String) : StoreM T K (Option String) :=
  readRow Row.metadata? (L.key (.metadata key))

def setMetadata (key value : String) : StoreM T K Unit :=
  setItem (L.key (.metadata key)) (.metadata value)

def deleteMetadata (key : String) : StoreM T K Unit := removeItem (L.key (.metadata key))

structure MetadataKeyQuery where
  start : String
  after : Option String
  limit : Option ℤ

def metadataKeyDefaultLimit : ℤ := 100

def selectMetadataKeys (keys : List String) (query : MetadataKeyQuery) :
    Except String (List String) :=
  let limit := query.limit.getD metadataKeyDefaultLimit
  if limit < 1 then .error "limit must be a positive integer"
  else
    let found := keys.filter fun key =>
      query.start.toList.isPrefixOf key.toList && query.after.all (rules.codeUnitsBefore · key)
    .ok ((found.insertionSort fun first second => !rules.codeUnitsBefore second first).take
      limit.toNat)

def listMetadataKeys (query : MetadataKeyQuery) : StoreM T K (List String) := do
  let keys ← keysWhere fun key => (L.metadataKey? key).isSome
  Results.fromResult (selectMetadataKeys rules (keys.filterMap L.metadataKey?) query)

def compareAndSetMetadata (key : String) (expected value : Option String) : StoreM T K Bool := do
  let observed ← getMetadata L key
  if observed ≠ expected then return false
  match value with
  | none => deleteMetadata L key
  | some value => setMetadata L key value
  return true

/-! ## Calls -/

inductive Operation (T : StoredTypes) where
  | saveContactIdentity (userId : String) (identity : T.Identity) (identityType : IdentityType)
      (commitment : Option Bytes) (now : ℤ)
  | getContactIdentity (userId : String) (identityType : IdentityType)
  | isTrustedIdentity (userId : String) (identity : T.Identity) (identityType : IdentityType)
  | acceptContactIdentityRotation (userId : String) (identity : T.Identity)
      (identityType : IdentityType) (commitment : Option Bytes) (now : ℤ)
  | verifyContactIdentity (userId : String) (identity : T.Identity) (identityType : IdentityType)
      (commitment : Option Bytes) (now : ℤ)
  | storeEcSignedPreKey (signedPreKey : PreKey) (identityType : IdentityType) (now : ℤ)
  | getEcSignedPreKey (keyId : Option ℕ) (identityType : IdentityType)
  | getPreKeys (kind : PreKeyKind) (identityType : IdentityType)
  | removeEcSignedPreKey (keyId : ℕ) (identityType : IdentityType)
  | storeEcOneTimePreKeys (prekeys : List PreKey) (identityType : IdentityType)
  | removeEcOneTimePreKey (keyId : ℕ) (identityType : IdentityType)
  | storeKemOneTimePreKeys (prekeys : List PreKey) (identityType : IdentityType)
  | removeKemOneTimePreKey (keyId : ℕ) (identityType : IdentityType)
  | storeKyberPreKey (kyberPreKey : T.KyberPreKey) (identityType : IdentityType) (now : ℤ)
  | getKyberPreKey (identityType : IdentityType)
  | getKyberPreKeyById (keyId : ℕ) (identityType : IdentityType)
  | markKyberPreKeyUsed (use : T.KyberUse) (identityType : IdentityType)
  | getKyberPreKeyMaxId (identityType : IdentityType)
  | deleteAllPreKeys (identityType : IdentityType)
  | storeSessionRecord (userId : String) (deviceId : ℕ) (record : Sesame.SessionRecord)
  | getSessionRecord (userId : String) (deviceId : ℕ)
  | commitSessionTrust (commit : SessionTrustCommit T) (now : ℤ)
  | deleteSessionRecord (userId : String) (deviceId : ℕ)
  | archiveCurrentSession (userId : String) (deviceId : ℕ)
      (newSession : Option Sesame.SessionState) (now : ℤ)
  | getSessionsForUser (userId : String)
  | hasSession (userId : String) (deviceId : ℕ)
  | getSessionCount
  | clearAllSessions
  | getUserRecord (userId : String) (now : ℤ)
  | setUserRecord (userId : String) (record : Sesame.UserRecord)
  | getDeviceRecord (userId : String) (deviceId : ℕ) (now : ℤ)
  | setDeviceRecord (userId : String) (deviceId : ℕ) (record : Sesame.DeviceRecord) (now : ℤ)
  | deleteDeviceRecord (userId : String) (deviceId : ℕ) (now : ℤ)
  | getAllUserIds
  | getSesameDeviceIds (userId : String)
  | getDeviceSession (userId : String) (deviceId : ℕ) (now : ℤ)
  | setDeviceSession (userId : String) (deviceId : ℕ) (session : Sesame.SessionRecord) (now : ℤ)
  | deleteStaleRecords (maxLatency now : ℤ)
  | cleanupExpiredSessions (maxRecv now : ℤ)
  | storeSenderKeyRecord (place : SenderKeyPlace) (states : List SenderKeyState)
      (receive : Option SenderKeyReceiveCommit)
  | getSenderKeyRecord (place : SenderKeyPlace)
  | getSenderKey (place : SenderKeyPlace)
  | deleteSenderKey (place : SenderKeyPlace)
  | resolveGroupForSenderKeyId (senderKeyId userId : String) (deviceId : ℕ)
  | getAllSenderKeysForGroup (groupId : String)
  | deleteAllSenderKeysForGroup (groupId : String)
  | storeSkippedSenderKey (sender : SenderKeyPlace) (senderKeyId : String) (chainIndex : ℕ)
      (messageKey : SkippedSenderMessageKey)
  | getSkippedSenderKey (sender : SenderKeyPlace) (senderKeyId : String) (chainIndex : ℕ)
  | deleteSkippedSenderKey (sender : SenderKeyPlace) (senderKeyId : String) (chainIndex : ℕ)
  | countSkippedSenderKeys (sender : SenderKeyPlace)
  | deleteOldestSkippedSenderKeys (sender : SenderKeyPlace) (count : ℕ)
  | storeMessageRecord (record : MessageRecord) (now : ℤ)
  | getMessageRecord (sessionId : String) (timestamp : ℕ)
  | deleteMessageRecord (sessionId : String) (timestamp : ℕ)
  | deleteExpiredMessageRecords (maxAgeMs now : ℤ)
  | clearAllMessageRecords
  | deleteMessageRecordsForSession (sessionId : String)
  | rewriteMessageRecords (rewrite : MessageRecord → Option String)
  | getMetadata (key : String)
  | setMetadata (key value : String)
  | deleteMetadata (key : String)
  | listMetadataKeys (query : MetadataKeyQuery)
  | compareAndSetMetadata (key : String) (expected value : Option String)

inductive Output (T : StoredTypes) where
  | unit
  | identityKeyChange (change : IdentityKeyChange)
  | contact (record : Option T.Contact)
  | flag (value : Bool)
  | count (value : ℕ)
  | preKey (key : Option PreKey)
  | preKeys (keys : List PreKey)
  | kyberPreKey (key : Option T.KyberPreKey)
  | deletedPreKeys (deleted : DeletedPreKeys)
  | session (record : Option Sesame.SessionRecord)
  | sessions (records : List Sesame.SessionRecord)
  | user (record : Option Sesame.UserRecord)
  | device (record : Option Sesame.DeviceRecord)
  | deviceIds (ids : List ℕ)
  | senderKeys (states : Option (List SenderKeyState))
  | senderKey (state : Option SenderKeyState)
  | senderKeyStates (states : List SenderKeyState)
  | text (value : Option String)
  | texts (values : List String)
  | message (record : Option MessageRecord)

def Operation.run : Operation T → StoreM T K (Output T)
  | saveContactIdentity userId identity identityType commitment now => .identityKeyChange <$>
      KeyValue.saveContactIdentity L rules userId identity identityType commitment now
  | getContactIdentity userId identityType => .contact <$> readContactRecord L userId identityType
  | isTrustedIdentity userId identity identityType =>
    .flag <$> KeyValue.isTrustedIdentity L rules userId identity identityType
  | acceptContactIdentityRotation userId identity identityType commitment now =>
    (.contact ∘ some) <$> KeyValue.acceptContactIdentityRotation L rules userId identity
      identityType commitment now
  | verifyContactIdentity userId identity identityType commitment now =>
    (.contact ∘ some) <$> KeyValue.verifyContactIdentity L rules userId identity identityType
      commitment now
  | storeEcSignedPreKey signedPreKey identityType now =>
    (fun _ => .unit) <$> KeyValue.storeEcSignedPreKey L rules signedPreKey identityType now
  | getEcSignedPreKey keyId identityType =>
    .preKey <$> KeyValue.getEcSignedPreKey L keyId identityType
  | getPreKeys kind identityType => .preKeys <$> KeyValue.getPreKeys L kind identityType
  | removeEcSignedPreKey keyId identityType =>
    (fun _ => .unit) <$> KeyValue.removeEcSignedPreKey L keyId identityType
  | storeEcOneTimePreKeys prekeys identityType =>
    (fun _ => .unit) <$> KeyValue.storeEcOneTimePreKeys L prekeys identityType
  | removeEcOneTimePreKey keyId identityType =>
    (fun _ => .unit) <$> KeyValue.removeEcOneTimePreKey L keyId identityType
  | storeKemOneTimePreKeys prekeys identityType =>
    (fun _ => .unit) <$> KeyValue.storeKemOneTimePreKeys L prekeys identityType
  | removeKemOneTimePreKey keyId identityType =>
    (fun _ => .unit) <$> KeyValue.removeKemOneTimePreKey L keyId identityType
  | storeKyberPreKey kyberPreKey identityType now =>
    (fun _ => .unit) <$> KeyValue.storeKyberPreKey L rules kyberPreKey identityType now
  | getKyberPreKey identityType => .kyberPreKey <$> KeyValue.getKyberPreKey L rules identityType
  | getKyberPreKeyById keyId identityType =>
    .kyberPreKey <$> KeyValue.getKyberPreKeyById L rules keyId identityType
  | markKyberPreKeyUsed use identityType =>
    (fun _ => .unit) <$> KeyValue.markKyberPreKeyUsed L rules use identityType
  | getKyberPreKeyMaxId identityType => .count <$> KeyValue.getKyberPreKeyMaxId L rules identityType
  | deleteAllPreKeys identityType =>
    .deletedPreKeys <$> KeyValue.deleteAllPreKeys L rules identityType
  | storeSessionRecord userId deviceId record =>
    (fun _ => .unit) <$> KeyValue.storeSessionRecord L rules userId deviceId record
  | getSessionRecord userId deviceId =>
    .session <$> KeyValue.getSessionRecord L rules userId deviceId
  | commitSessionTrust commit now =>
    (fun _ => .unit) <$> KeyValue.commitSessionTrust L rules commit now
  | deleteSessionRecord userId deviceId =>
    (fun _ => .unit) <$> KeyValue.deleteSessionRecord L userId deviceId
  | archiveCurrentSession userId deviceId newSession now =>
    (fun _ => .unit) <$> KeyValue.archiveCurrentSession L rules userId deviceId newSession now
  | getSessionsForUser userId => .sessions <$> KeyValue.getSessionsForUser L rules userId
  | hasSession userId deviceId => .flag <$> KeyValue.hasSession L rules userId deviceId
  | getSessionCount => .count <$> KeyValue.getSessionCount L
  | clearAllSessions => (fun _ => .unit) <$> KeyValue.clearAllSessions L
  | getUserRecord userId now => .user <$> KeyValue.getUserRecord L rules userId now
  | setUserRecord userId record => (fun _ => .unit) <$> KeyValue.setUserRecord L userId record
  | getDeviceRecord userId deviceId now =>
    .device <$> KeyValue.getDeviceRecord L rules userId deviceId now
  | setDeviceRecord userId deviceId record now =>
    (fun _ => .unit) <$> KeyValue.setDeviceRecord L userId deviceId record now
  | deleteDeviceRecord userId deviceId now =>
    (fun _ => .unit) <$> KeyValue.deleteDeviceRecord L userId deviceId now
  | getAllUserIds => .texts <$> KeyValue.getAllUserIds L
  | getSesameDeviceIds userId => .deviceIds <$> KeyValue.getSesameDeviceIds L userId
  | getDeviceSession userId deviceId now =>
    .session <$> KeyValue.getDeviceSession L rules userId deviceId now
  | setDeviceSession userId deviceId session now =>
    (fun _ => .unit) <$> KeyValue.setDeviceSession L rules userId deviceId session now
  | deleteStaleRecords maxLatency now =>
    .count <$> KeyValue.deleteStaleRecords L rules maxLatency now
  | cleanupExpiredSessions maxRecv now =>
    .count <$> KeyValue.cleanupExpiredSessions L rules maxRecv now
  | storeSenderKeyRecord place states receive =>
    (fun _ => .unit) <$> KeyValue.storeSenderKeyRecord L place states receive
  | getSenderKeyRecord place => .senderKeys <$> KeyValue.getSenderKeyRecord L place
  | getSenderKey place => .senderKey <$> KeyValue.getSenderKey L place
  | deleteSenderKey place => (fun _ => .unit) <$> KeyValue.deleteSenderKey L place
  | resolveGroupForSenderKeyId senderKeyId userId deviceId =>
    .text <$> KeyValue.resolveGroupForSenderKeyId L senderKeyId userId deviceId
  | getAllSenderKeysForGroup groupId =>
    .senderKeyStates <$> KeyValue.getAllSenderKeysForGroup L groupId
  | deleteAllSenderKeysForGroup groupId =>
    .count <$> KeyValue.deleteAllSenderKeysForGroup L groupId
  | storeSkippedSenderKey sender senderKeyId chainIndex messageKey =>
    (fun _ => .unit) <$>
      KeyValue.storeSkippedSenderKey L sender senderKeyId chainIndex messageKey
  | getSkippedSenderKey sender senderKeyId chainIndex =>
    .text <$> KeyValue.getSkippedSenderKey L sender senderKeyId chainIndex
  | deleteSkippedSenderKey sender senderKeyId chainIndex =>
    (fun _ => .unit) <$> KeyValue.deleteSkippedSenderKey L sender senderKeyId chainIndex
  | countSkippedSenderKeys sender => .count <$> KeyValue.countSkippedSenderKeys L sender
  | deleteOldestSkippedSenderKeys sender count =>
    .count <$> KeyValue.deleteOldestSkippedSenderKeys L sender count
  | storeMessageRecord record now =>
    (fun _ => .unit) <$> KeyValue.storeMessageRecord L record now
  | getMessageRecord sessionId timestamp =>
    .message <$> KeyValue.getMessageRecord L sessionId timestamp
  | deleteMessageRecord sessionId timestamp =>
    (fun _ => .unit) <$> KeyValue.deleteMessageRecord L sessionId timestamp
  | deleteExpiredMessageRecords maxAgeMs now =>
    .count <$> KeyValue.deleteExpiredMessageRecords L maxAgeMs now
  | clearAllMessageRecords => .count <$> KeyValue.clearAllMessageRecords L
  | deleteMessageRecordsForSession sessionId =>
    .count <$> KeyValue.deleteMessageRecordsForSession L sessionId
  | rewriteMessageRecords rewrite => .count <$> KeyValue.rewriteMessageRecords L rewrite
  | getMetadata key => .text <$> KeyValue.getMetadata L key
  | setMetadata key value => (fun _ => .unit) <$> KeyValue.setMetadata L key value
  | deleteMetadata key => (fun _ => .unit) <$> KeyValue.deleteMetadata L key
  | listMetadataKeys query => .texts <$> KeyValue.listMetadataKeys L rules query
  | compareAndSetMetadata key expected value =>
    .flag <$> KeyValue.compareAndSetMetadata L key expected value

def runOperations : List (Operation T) → OrderedMap K (Row T K) →
    List (Except String (Output T)) × OrderedMap K (Row T K)
  | [], rows => ([], rows)
  | operation :: operations, rows =>
    match operation.run L rules rows with
    | .ok output rows =>
      let rest := runOperations operations rows
      (.ok output :: rest.1, rest.2)
    | .error error rows =>
      let rest := runOperations operations rows
      (.error error :: rest.1, rest.2)

end SignalProtocol.KeyValue

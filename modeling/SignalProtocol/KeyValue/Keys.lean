import SignalProtocol.Library.JoinedText

/-! # The keys of the key-value store

Every record of the store stands under one text, which joins a prefix and the identifiers of the
record. -/

namespace SignalProtocol.KeyValue

abbrev KeyText := List Char

inductive IdentityType where
  | aci
  | pni
  deriving DecidableEq

def IdentityType.text : IdentityType → KeyText
  | aci => "aci".toList
  | pni => "pni".toList

def identityKeyPrefix : KeyText := "@signal:identity:keyPair:".toList
def registrationIdPrefix : KeyText := "@signal:metadata:registrationId:".toList
def metadataPrefix : KeyText := "@signal:metadata:value:".toList
def contactPrefix : KeyText := "@signal:contacts:".toList
def contactV1Prefix : KeyText := "@signal:contacts:v1:".toList
def prekeyPrefix : KeyText := "@signal:prekeys:".toList
def sessionPrefix : KeyText := "@signal:sessions:".toList
def sesameUserPrefix : KeyText := "@signal:sesame:user:".toList
def senderKeyRecordPrefix : KeyText := "@signal:sender-key-record:".toList
def senderKeyIdIndexPrefix : KeyText := "@signal:sender-key-id:".toList
def skippedSenderKeyPrefix : KeyText := "@signal:skipped-sender-key:".toList
def messageRecordPrefix : KeyText := "@signal:message-record:".toList

/-- `value.replace(/%/g, '%25').replace(/:/g, '%3A')`. -/
def escapeKeyComponent (value : String) : KeyText :=
  (value.toList.flatMap fun char => if char = '%' then "%25".toList else [char]).flatMap
    fun char => if char = ':' then "%3A".toList else [char]

/-- Replace every `%` with these two characters behind it. -/
def replaceEscape (first second replacement : Char) : KeyText → KeyText
  | '%' :: next :: after :: rest =>
    if next = first ∧ after = second then
      replacement :: replaceEscape first second replacement rest
    else '%' :: replaceEscape first second replacement (next :: after :: rest)
  | char :: rest => char :: replaceEscape first second replacement rest
  | [] => []

/-- `value.replace(/%3A/g, ':').replace(/%25/g, '%')`. -/
def unescapeKeyComponent (value : KeyText) : String :=
  String.ofList (replaceEscape '2' '5' '%' (replaceEscape '3' 'A' ':' value))

def decimal (number : ℕ) : KeyText := Nat.toDigits 10 number

/-- `Number(text)`, for the digits that `decimal` writes. -/
def numberOf (text : KeyText) : Option ℕ :=
  if text ≠ [] ∧ text.all Char.isDigit then some (Nat.ofDigitChars 10 text 0) else none

def serializeAddress (userId : String) (deviceId : ℕ) : KeyText :=
  userId.toList ++ '.' :: decimal deviceId

def getContactStorageKey (userId : String) (identityType : IdentityType) : KeyText :=
  contactV1Prefix ++ (userId.toList ++ ':' :: identityType.text)

def obsoleteContactKey (userId : String) : KeyText := contactPrefix ++ userId.toList

def getMetadataStorageKey (key : String) : KeyText := metadataPrefix ++ key.toList

inductive PreKeyKind where
  | signedAll
  | oneTime
  | kyber
  | kemOneTime
  deriving DecidableEq

def PreKeyKind.text : PreKeyKind → KeyText
  | signedAll => "signed-all".toList
  | oneTime => "one-time".toList
  | kyber => "kyber".toList
  | kemOneTime => "kem-one-time".toList

/-- `getSignedPreKeyStorageKey` and its three siblings. -/
def getPreKeyStorageKey (kind : PreKeyKind) (identityType : IdentityType) : KeyText :=
  prekeyPrefix ++ (kind.text ++ ':' :: identityType.text)

def kyberUsagePrefix (identityType : IdentityType) : KeyText :=
  prekeyPrefix ++ ("kyber-usage".toList ++ ':' :: (identityType.text ++ [':']))

def getSessionStorageKey (userId : String) (deviceId : ℕ) : KeyText :=
  sessionPrefix ++ serializeAddress userId deviceId

def getSesameUserStorageKey (userId : String) : KeyText := sesameUserPrefix ++ userId.toList

def getSenderKeyRecordGroupPrefix (groupId : String) : KeyText :=
  senderKeyRecordPrefix ++ (escapeKeyComponent groupId ++ [':'])

def getSenderKeyRecordStorageKey (groupId userId : String) (deviceId : ℕ) : KeyText :=
  getSenderKeyRecordGroupPrefix groupId ++ (escapeKeyComponent userId ++ ':' :: decimal deviceId)

def getSkippedSenderKeyGroupPrefix (groupId : String) : KeyText :=
  skippedSenderKeyPrefix ++ (escapeKeyComponent groupId ++ [':'])

def getSkippedSenderKeyPrefix (groupId senderId : String) (senderDeviceId : ℕ) : KeyText :=
  getSkippedSenderKeyGroupPrefix groupId ++
    (escapeKeyComponent senderId ++ ':' :: (decimal senderDeviceId ++ [':']))

def getSkippedSenderKeyStorageKey (groupId senderId : String) (senderDeviceId : ℕ)
    (senderKeyId : String) (chainIndex : ℕ) : KeyText :=
  getSkippedSenderKeyPrefix groupId senderId senderDeviceId ++
    (escapeKeyComponent senderKeyId ++ ':' :: decimal chainIndex)

def getSenderKeyIdPointerKey (senderKeyId userId : String) (deviceId : ℕ) : KeyText :=
  senderKeyIdIndexPrefix ++
    (escapeKeyComponent senderKeyId ++ ':' :: (decimal deviceId ++ ':' :: escapeKeyComponent userId))

def getMessageRecordSessionPrefix (sessionId : String) : KeyText :=
  messageRecordPrefix ++ (escapeKeyComponent sessionId ++ [':'])

def getMessageRecordStorageKey (sessionId : String) (timestamp : ℕ) : KeyText :=
  getMessageRecordSessionPrefix sessionId ++ decimal timestamp

structure SenderKeyPlace where
  groupId : String
  userId : String
  deviceId : ℕ
  deriving DecidableEq

def parseSenderKeyRecordStorageKey (recordKey : KeyText) : Option SenderKeyPlace :=
  if senderKeyRecordPrefix <+: recordKey then
    match JoinedText.split ':' (recordKey.drop senderKeyRecordPrefix.length) with
    | [groupId, userId, device] =>
      if groupId = [] ∨ userId = [] ∨ device = [] then none
      else (numberOf device).map fun deviceId =>
        ⟨unescapeKeyComponent groupId, unescapeKeyComponent userId, deviceId⟩
    | _ => none
  else none

inductive StorageKey where
  | contact (userId : String) (identityType : IdentityType)
  | obsoleteContact (userId : String)
  | preKeys (kind : PreKeyKind) (identityType : IdentityType)
  | session (userId : String) (deviceId : ℕ)
  | sesameUser (userId : String)
  | senderKeyRecord (place : SenderKeyPlace)
  | senderKeyIdPointer (senderKeyId userId : String) (deviceId : ℕ)
  | skippedSenderKey (groupId senderId : String) (senderDeviceId : ℕ) (senderKeyId : String)
      (chainIndex : ℕ)
  | messageRecord (sessionId : String) (timestamp : ℕ)
  | metadata (key : String)
  deriving DecidableEq

def StorageKey.text : StorageKey → KeyText
  | contact userId identityType => getContactStorageKey userId identityType
  | obsoleteContact userId => obsoleteContactKey userId
  | preKeys kind identityType => getPreKeyStorageKey kind identityType
  | session userId deviceId => getSessionStorageKey userId deviceId
  | sesameUser userId => getSesameUserStorageKey userId
  | senderKeyRecord place =>
    getSenderKeyRecordStorageKey place.groupId place.userId place.deviceId
  | senderKeyIdPointer senderKeyId userId deviceId =>
    getSenderKeyIdPointerKey senderKeyId userId deviceId
  | skippedSenderKey groupId senderId senderDeviceId senderKeyId chainIndex =>
    getSkippedSenderKeyStorageKey groupId senderId senderDeviceId senderKeyId chainIndex
  | messageRecord sessionId timestamp => getMessageRecordStorageKey sessionId timestamp
  | metadata key => getMetadataStorageKey key

structure KeyLayout (K : Type) where
  key : StorageKey → K
  isSession : K → Bool
  sesameUserId? : K → Option String
  metadataKey? : K → Option String
  senderKeyPlace? : K → Option SenderKeyPlace
  inSenderKeyGroup : String → K → Bool
  inSkippedGroup : String → K → Bool
  inSkippedSender : String → String → ℕ → K → Bool
  chainIndex : K → ℕ
  isMessageRecord : K → Bool
  inMessageSession : String → K → Bool
  isKyberUsage : IdentityType → K → Bool

def startsWith (start key : KeyText) : Bool := start.isPrefixOf key

def behind? (start key : KeyText) : Option String :=
  if startsWith start key then some (String.ofList (key.drop start.length)) else none

/-- The layout of `KeyValueSignalProtocolStore`. -/
def textLayout : KeyLayout KeyText where
  key := StorageKey.text
  isSession := startsWith sessionPrefix
  sesameUserId? := behind? sesameUserPrefix
  metadataKey? := behind? metadataPrefix
  senderKeyPlace? := parseSenderKeyRecordStorageKey
  inSenderKeyGroup := fun groupId => startsWith (getSenderKeyRecordGroupPrefix groupId)
  inSkippedGroup := fun groupId => startsWith (getSkippedSenderKeyGroupPrefix groupId)
  inSkippedSender := fun groupId senderId senderDeviceId =>
    startsWith (getSkippedSenderKeyPrefix groupId senderId senderDeviceId)
  chainIndex := fun key => (numberOf (JoinedText.afterLast ':' key)).getD 0
  isMessageRecord := startsWith messageRecordPrefix
  inMessageSession := fun sessionId => startsWith (getMessageRecordSessionPrefix sessionId)
  isKyberUsage := fun identityType => startsWith (kyberUsagePrefix identityType)

def structuredLayout : KeyLayout StorageKey where
  key := id
  isSession
    | .session _ _ => true
    | _ => false
  sesameUserId?
    | .sesameUser userId => some userId
    | _ => none
  metadataKey?
    | .metadata key => some key
    | _ => none
  senderKeyPlace?
    | .senderKeyRecord place => some place
    | _ => none
  inSenderKeyGroup
    | groupId, .senderKeyRecord place => place.groupId = groupId
    | _, _ => false
  inSkippedGroup
    | groupId, .skippedSenderKey group _ _ _ _ => group = groupId
    | _, _ => false
  inSkippedSender
    | groupId, senderId, senderDeviceId, .skippedSenderKey group sender device _ _ =>
      group = groupId ∧ sender = senderId ∧ device = senderDeviceId
    | _, _, _, _ => false
  chainIndex
    | .skippedSenderKey _ _ _ _ chainIndex => chainIndex
    | _ => 0
  isMessageRecord
    | .messageRecord _ _ => true
    | _ => false
  inMessageSession
    | sessionId, .messageRecord session _ => session = sessionId
    | _, _ => false
  isKyberUsage := fun _ _ => false

end SignalProtocol.KeyValue

import SignalProtocol.Proto.Primitives

/-! # Multi-recipient sealed-sender messages

The sent message of version 2: the recipients with their devices and keys, the excluded recipients,
the ephemeral key and the ciphertext. -/

namespace SignalProtocol.SealedSender

open Results

def SEALED_SENDER_V2_SERVICE_ID_VERSION : UInt8 := 0x23

def ACI_MARKER : UInt8 := 0x00

def SERVICE_ID_WIRE_SIZE : ℕ := 17

def UUID_BYTES : ℕ := 16

def ENCRYPTED_KEY_SIZE : ℕ := 32

def AUTH_TAG_SIZE : ℕ := 16

def EPHEMERAL_PUBLIC_SIZE : ℕ := 32

def REG_ID_MASK : ℕ := 0x3fff

def HAS_MORE_DEVICES_FLAG : ℕ := 0x8000

def EXCLUDED_RECIPIENT_DEVICE_ID : UInt8 := 0x00

abbrev ServiceId := List Char

def isHexDigit (char : Char) : Bool := (Rs.hexDigitValue char).isSome

def isUrlSafeChar (char : Char) : Bool :=
  ('A' ≤ char && char ≤ 'Z') || ('a' ≤ char && char ≤ 'z') || ('0' ≤ char && char ≤ '9') ||
    char = '_' || char = '-'

/-- A UUID, with dashes anywhere, or 22 characters of URL-safe base64. -/
def serviceIdToBytes (serviceId : ServiceId) : Except ProtocolError Bytes :=
  let hex := serviceId.filter (· ≠ '-')
  if hex.length = 32 ∧ hex.all isHexDigit then pure (Rs.bytesOfHex hex)
  else if serviceId.length = 22 ∧ serviceId.all isUrlSafeChar then do
    let bytes ← base64ToBytes (urlSafeToBase64 (JsString.ofChars serviceId))
    if bytes.length = UUID_BYTES then pure bytes
    else throw (.error "serviceId must encode exactly 16 bytes as UUID or base64url")
  else throw (.error "serviceId must encode exactly 16 bytes as UUID or base64url")

def uuidText (hex : List Char) : ServiceId :=
  hex.take 8 ++ '-' :: ((hex.drop 8).take 4 ++ '-' :: ((hex.drop 12).take 4 ++
    '-' :: ((hex.drop 16).take 4 ++ '-' :: (hex.drop 20).take 12)))

def bytesToServiceId (bytes : Bytes) : Except ProtocolError ServiceId :=
  if bytes.length ≠ UUID_BYTES then
    throw (.error s!"Expected {UUID_BYTES} bytes for ServiceId, got {bytes.length}")
  else pure (uuidText (Rs.hexText bytes))

structure Device where
  deviceId : ℤ
  registrationId : ℤ

structure SentMessageRecipient where
  serviceId : ServiceId
  devices : List Device
  encryptedMessageKey : Bytes
  authenticationTag : Bytes

structure ExcludedRecipient where
  serviceId : ServiceId

structure DeserializedSentMessage where
  version : UInt8
  recipients : List SentMessageRecipient
  excludedRecipients : List ExcludedRecipient
  ephemeralPublic : Bytes
  messageCiphertext : Bytes

/-- The lower bits of any integer: `& 0xff` of the ID and `& REG_ID_MASK` of the registration
ID. -/
def deviceBytes (isLast : Bool) (device : Device) : Bytes :=
  let regIdWithFlag := (device.registrationId % (REG_ID_MASK + 1)).toNat |||
    if isLast then 0x0000 else HAS_MORE_DEVICES_FLAG
  [UInt8.ofNat (device.deviceId % 256).toNat, UInt8.ofNat (regIdWithFlag >>> 8 &&& 0xff),
    UInt8.ofNat (regIdWithFlag &&& 0xff)]

def deviceListBytes : List Device → Bytes
  | [] => []
  | [device] => deviceBytes true device
  | device :: next :: devices => deviceBytes false device ++ deviceListBytes (next :: devices)

def recipientBytes (recipient : SentMessageRecipient) : Except ProtocolError Bytes :=
  if recipient.devices = [] then
    let serviceId := String.ofList recipient.serviceId
    throw (.error s!"Included recipient {serviceId} must have at least one device")
  else if recipient.encryptedMessageKey.length ≠ ENCRYPTED_KEY_SIZE then
    let got := recipient.encryptedMessageKey.length
    throw (.error s!"encryptedMessageKey must be {ENCRYPTED_KEY_SIZE} bytes, got {got}")
  else if recipient.authenticationTag.length ≠ AUTH_TAG_SIZE then
    let got := recipient.authenticationTag.length
    throw (.error s!"authenticationTag must be {AUTH_TAG_SIZE} bytes, got {got}")
  else do
    let serviceId ← serviceIdToBytes recipient.serviceId
    pure (ACI_MARKER :: serviceId ++ (deviceListBytes recipient.devices ++
      (recipient.encryptedMessageKey ++ recipient.authenticationTag)))

def excludedBytes (excluded : ExcludedRecipient) : Except ProtocolError Bytes := do
  let serviceId ← serviceIdToBytes excluded.serviceId
  pure (ACI_MARKER :: serviceId ++ [EXCLUDED_RECIPIENT_DEVICE_ID])

def serializeSentMessage (recipients : List SentMessageRecipient)
    (excludedRecipients : List ExcludedRecipient) (ephemeralPublic messageCiphertext : Bytes) :
    Except ProtocolError Bytes :=
  if ephemeralPublic.length ≠ EPHEMERAL_PUBLIC_SIZE then
    let got := ephemeralPublic.length
    throw (.error s!"ephemeralPublic must be {EPHEMERAL_PUBLIC_SIZE} bytes, got {got}")
  else do
    let count ← Proto.encodeVarint (recipients.length + excludedRecipients.length)
    let included ← recipients.mapM recipientBytes
    let excluded ← excludedRecipients.mapM excludedBytes
    pure (SEALED_SENDER_V2_SERVICE_ID_VERSION :: count ++ (included.flatten ++
      (excluded.flatten ++ (ephemeralPublic ++ messageCiphertext))))

structure Cursor where
  offset : ℕ
  reads : List (ℕ × ℕ)

def Cursor.start : Cursor := ⟨0, []⟩

def Cursor.read (cursor : Cursor) (count : ℕ) : Cursor where
  offset := cursor.offset + count
  reads := (cursor.offset, count) :: cursor.reads

abbrev Reader := EStateM ProtocolError Cursor

def byteAt (data : Bytes) (offset : ℕ) : UInt8 := data.getD offset 0

def checkLeft (count : ℕ) (message : String) (data : Bytes) : Reader PUnit := do
  let cursor ← get
  if data.length < cursor.offset + count then throw (.error message) else pure ⟨⟩

def readSlice (count : ℕ) (data : Bytes) : Reader Bytes := do
  let cursor ← get
  modify fun cursor => cursor.read count
  pure ((data.drop cursor.offset).take count)

def readVarint (data : Bytes) : Reader ℕ := fun cursor =>
  match Proto.decodeVarint (data.drop cursor.offset) with
  | .ok (value, rest) => .ok value (cursor.read ((data.drop cursor.offset).length - rest.length))
  | .error error => .error error (cursor.read 5)

/-- `devices.push` before the rest of the loop. -/
def consDevice (device : Device) :
    EStateM.Result ProtocolError Cursor (List Device) →
      EStateM.Result ProtocolError Cursor (List Device)
  | .ok devices last => .ok (device :: devices) last
  | .error error last => .error error last

def readDevices (data : Bytes) (cursor : Cursor) :
    EStateM.Result ProtocolError Cursor (List Device) :=
  if data.length < cursor.offset + 3 then .error (.error "Truncated device entry") cursor
  else
    let deviceId := byteAt data cursor.offset
    let regIdWithFlag := (byteAt data (cursor.offset + 1)).toNat <<< 8 |||
      (byteAt data (cursor.offset + 2)).toNat
    let device : Device :=
      { deviceId := deviceId.toNat
        registrationId := (regIdWithFlag &&& REG_ID_MASK : ℕ) }
    if regIdWithFlag &&& HAS_MORE_DEVICES_FLAG ≠ 0 then
      consDevice device (readDevices data ((cursor.read 1).read 2))
    else .ok [device] ((cursor.read 1).read 2)
termination_by data.length - cursor.offset
decreasing_by
  simp only [Cursor.read]
  omega

structure ParsedRecipients where
  recipients : List SentMessageRecipient := []
  excludedRecipients : List ExcludedRecipient := []

def readRecipient (data : Bytes) (parsed : ParsedRecipients) : Reader ParsedRecipients := do
  checkLeft SERVICE_ID_WIRE_SIZE "Truncated ServiceId" data
  let _ ← readSlice 1 data
  let uuidBytes ← readSlice UUID_BYTES data
  let serviceId ← fromResult (bytesToServiceId uuidBytes)
  checkLeft 1 "Truncated device list" data
  let cursor ← get
  -- The first device byte is only looked at here, and read with the field it begins.
  if byteAt data cursor.offset = EXCLUDED_RECIPIENT_DEVICE_ID then do
    let _ ← readSlice 1 data
    pure { parsed with excludedRecipients := parsed.excludedRecipients ++ [⟨serviceId⟩] }
  else do
    let devices ← readDevices data
    checkLeft (ENCRYPTED_KEY_SIZE + AUTH_TAG_SIZE) "Truncated key material" data
    let encryptedMessageKey ← readSlice ENCRYPTED_KEY_SIZE data
    let authenticationTag ← readSlice AUTH_TAG_SIZE data
    let recipient : SentMessageRecipient :=
      { serviceId, devices, encryptedMessageKey, authenticationTag }
    pure { parsed with recipients := parsed.recipients ++ [recipient] }

def readRecipients (data : Bytes) : ℕ → ParsedRecipients → Reader ParsedRecipients
  | 0, parsed => pure parsed
  | count + 1, parsed => do
      let next ← readRecipient data parsed
      readRecipients data count next

def hexText (byte : UInt8) : String := String.ofList (Rs.hexByte byte)

def deserializeSentMessage (data : Bytes) : Reader DeserializedSentMessage := do
  checkLeft 1 "Empty sealed sender V2 message" data
  let cursor ← get
  let version := byteAt data cursor.offset
  let _ ← readSlice 1 data
  if version ≠ SEALED_SENDER_V2_SERVICE_ID_VERSION then
    let expected := SEALED_SENDER_V2_SERVICE_ID_VERSION
    throw (.error
      ("Unexpected version byte: 0x" ++ hexText version ++ ", expected 0x" ++ hexText expected))
  else do
    let recipientCount ← readVarint data
    let parsed ← readRecipients data recipientCount {}
    checkLeft EPHEMERAL_PUBLIC_SIZE "Truncated ephemeral public key" data
    let ephemeralPublic ← readSlice EPHEMERAL_PUBLIC_SIZE data
    let cursor ← get
    let messageCiphertext ← readSlice (data.length - cursor.offset) data
    pure {
      version
      recipients := parsed.recipients
      excludedRecipients := parsed.excludedRecipients
      ephemeralPublic
      messageCiphertext }

end SignalProtocol.SealedSender

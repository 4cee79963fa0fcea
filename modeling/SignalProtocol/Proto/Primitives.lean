import SignalProtocol.Spqr.Ratchet
import SignalProtocol.Platform.Text

/-! # Protobuf primitives

Varints, fields and the reader of the hand-written codecs. Offsets are modelled by the bytes that
are still unread. -/

namespace SignalProtocol.Proto

open Spqr (varintBytes)

def wireTypeVarint : ℕ := 0

def wireTypeFixed64 : ℕ := 1

def wireTypeLengthDelimited : ℕ := 2

def wireTypeFixed32 : ℕ := 5

def uint32Max : ℕ := 0xffffffff

def uint64Max : ℕ := 2 ^ 64 - 1

def maxVarint64Bytes : ℕ := 10

def maxFieldNumber : ℕ := 536870911

def encodeVarint (value : ℕ) : Except ProtocolError Bytes :=
  if uint32Max < value then throw (.error "Varint value exceeds uint32 range")
  else pure (varintBytes (maxVarint64Bytes - 1) value)

/-- The loop of `encodeVarint64`, over a `bigint`. -/
def encodeVarint64Loop (value : ℕ) : Bytes :=
  if 0x7f < value then
    UInt8.ofNat ((value &&& 0x7f) ||| 0x80) :: encodeVarint64Loop (value >>> 7)
  else [UInt8.ofNat value]
termination_by value
decreasing_by
  rw [Nat.shiftRight_eq_div_pow]
  omega

def encodeVarint64 (value : ℕ) : Except ProtocolError Bytes :=
  if uint64Max < value then throw (.error "Varint value exceeds uint64 range")
  else pure (encodeVarint64Loop value)

def encodeTag (fieldNumber wireType : ℕ) : Except ProtocolError Bytes :=
  encodeVarint (fieldNumber <<< 3 ||| wireType)

def encodeUint32Field (fieldNumber value : ℕ) : Except ProtocolError Bytes := do
  let tag ← encodeTag fieldNumber wireTypeVarint
  let val ← encodeVarint value
  pure (tag ++ val)

def encodeBytesField (fieldNumber : ℕ) (data : Bytes) : Except ProtocolError Bytes := do
  let tag ← encodeTag fieldNumber wireTypeLengthDelimited
  let len ← encodeVarint data.length
  pure (tag ++ len ++ data)

def encodeOptional {α : Type} (encode : α → Except ProtocolError Bytes) :
    Option α → Except ProtocolError Bytes
  | some value => encode value
  | none => pure []

/-- The loop of `decodeVarint64`, with the bytes read so far. -/
def decodeVarint64Loop (bytesRead shift value : ℕ) : Bytes → Except ProtocolError (ℕ × Bytes)
  | [] => throw (.error "Varint truncated")
  | byte :: rest =>
    let bytesRead := bytesRead + 1
    if bytesRead = maxVarint64Bytes ∧ 1 < byte.toNat &&& 0x7f then
      throw (.error "Varint value exceeds uint64 range")
    else
      let value := value ||| ((byte.toNat &&& 0x7f) <<< shift)
      if byte.toNat &&& 0x80 = 0 then
        if 1 < bytesRead ∧ byte = 0 then throw (.error "Varint is not canonically encoded")
        else pure (value, rest)
      else if maxVarint64Bytes ≤ bytesRead then throw (.error "Varint too long")
      else decodeVarint64Loop bytesRead (shift + 7) value rest

def decodeVarint64 (bytes : Bytes) : Except ProtocolError (ℕ × Bytes) :=
  decodeVarint64Loop 0 0 0 bytes

/-- `decodeVarint64` at an offset: the value and the number of bytes that it takes. -/
def decodeVarint64At (bytes : Bytes) (offset : ℕ) : Except ProtocolError (ℕ × ℕ) := do
  let read ← decodeVarint64 (bytes.drop offset)
  pure (read.1, (bytes.drop offset).length - read.2.length)

/-- The loop of `decodeVarint`, with the bytes read so far. The shifts are of 32-bit integers. -/
def decodeVarintLoop (bytesRead shift value : ℕ) : Bytes → Except ProtocolError (ℕ × Bytes)
  | [] => pure (value, [])
  | byte :: rest =>
    let value := value ||| ((byte.toNat &&& 0x7f) <<< shift) % 2 ^ 32
    if byte.toNat &&& 0x80 = 0 then pure (value, rest)
    else if 5 ≤ bytesRead + 1 then throw (.error "Varint too long")
    else decodeVarintLoop (bytesRead + 1) (shift + 7) value rest

def decodeVarint (bytes : Bytes) : Except ProtocolError (ℕ × Bytes) := decodeVarintLoop 0 0 0 bytes

structure FieldTag where
  fieldNumber : ℕ
  wireType : ℕ

def readTag (bytes : Bytes) : Except ProtocolError (FieldTag × Bytes) := do
  let tag ← decodeVarint64 bytes
  let number := tag.1 >>> 3
  if number = 0 ∨ maxFieldNumber < number then
    throw (.error s!"Invalid protobuf field number: {number}")
  else pure (⟨number, tag.1 &&& 0x07⟩, tag.2)

def expectWireType (wireType expected : ℕ) : Except ProtocolError Unit :=
  if wireType ≠ expected then
    throw (.error s!"Expected wire type {expected}, got {wireType}")
  else pure ()

def readLengthDelimited (bytes : Bytes) : Except ProtocolError (Bytes × Bytes) := do
  let length ← decodeVarint64 bytes
  if length.2.length < length.1 then
    throw (.error "Length-delimited field extends past the end of the message")
  else pure (length.2.take length.1, length.2.drop length.1)

def readUint32 (wireType : ℕ) (bytes : Bytes) : Except ProtocolError (ℕ × Bytes) := do
  expectWireType wireType wireTypeVarint
  let value ← decodeVarint64 bytes
  if uint32Max < value.1 then throw (.error "Varint value exceeds uint32 range")
  else pure value

def readBytes (wireType : ℕ) (bytes : Bytes) : Except ProtocolError (Bytes × Bytes) := do
  expectWireType wireType wireTypeLengthDelimited
  readLengthDelimited bytes

def advance (count : ℕ) (message : String) (bytes : Bytes) : Except ProtocolError Bytes :=
  if bytes.length < count then throw (.error message) else pure (bytes.drop count)

def skipField (wireType : ℕ) (bytes : Bytes) : Except ProtocolError Bytes :=
  if wireType = wireTypeVarint then do
    let value ← decodeVarint64 bytes
    pure value.2
  else if wireType = wireTypeFixed64 then advance 8 "Fixed64 field truncated" bytes
  else if wireType = wireTypeLengthDelimited then do
    let payload ← readLengthDelimited bytes
    pure payload.2
  else if wireType = wireTypeFixed32 then advance 4 "Fixed32 field truncated" bytes
  else throw (.error s!"Unsupported wire type: {wireType}")

inductive FieldRead (σ : Type) where
  | uint32 (store : σ → ℕ → σ)
  | bytes (store : σ → Bytes → σ)
  | skip

variable {σ : Type}

def readField (wireType : ℕ) (state : σ) (bytes : Bytes) :
    FieldRead σ → Except ProtocolError (σ × Bytes)
  | .uint32 store => do
      let value ← readUint32 wireType bytes
      pure (store state value.1, value.2)
  | .bytes store => do
      let value ← readBytes wireType bytes
      pure (store state value.1, value.2)
  | .skip => do
      let rest ← skipField wireType bytes
      pure (state, rest)

/-- The loop of a message decoder. Every round reads at least the byte of a tag, so as many rounds
as bytes are enough. -/
def readFields (fields : ℕ → FieldRead σ) : ℕ → σ → Bytes → Except ProtocolError σ
  | _, state, [] => pure state
  | 0, _, _ :: _ => throw (.error "Varint truncated")
  | rounds + 1, state, byte :: bytes => do
      let tag ← readTag (byte :: bytes)
      let next ← readField tag.1.wireType state tag.2 (fields tag.1.fieldNumber)
      readFields fields rounds next.1 next.2

def readMessage (fields : ℕ → FieldRead σ) (init : σ) (bytes : Bytes) : Except ProtocolError σ :=
  readFields fields bytes.length init bytes

/-! ## The address binding of a message

Field 6 of `SignalProtocolMessage`: the sender and the recipient. -/

structure ProtocolAddress where
  userId : JsString
  deviceId : ℤ
  deriving DecidableEq

structure AddressPair where
  senderAddress : ProtocolAddress
  recipientAddress : ProtocolAddress
  deriving DecidableEq

def addressBindingFormatVersion : UInt8 := 1

def encodeUint32BE (value : ℤ) : Except ProtocolError Bytes :=
  if value < 0 ∨ 0xffffffff < value then
    throw (.error s!"deviceId must be a uint32, got {value}")
  else pure (Spqr.uint32Bytes value.toNat)

def readUint32BE : Bytes → Except ProtocolError (ℕ × Bytes)
  | first :: second :: third :: fourth :: rest =>
    pure (((first.toNat * 2 ^ 8 + second.toNat) * 2 ^ 8 + third.toNat) * 2 ^ 8 + fourth.toNat, rest)
  | _ => throw (.error "Address binding truncated while reading deviceId")

def encodeAddress (address : ProtocolAddress) : Except ProtocolError Bytes :=
  let userIdBytes := JsString.encode address.userId
  if userIdBytes.length = 0 then throw (.error "Address binding userId cannot be empty")
  else do
    let length ← encodeVarint userIdBytes.length
    let deviceId ← encodeUint32BE address.deviceId
    pure (length ++ userIdBytes ++ deviceId)

def decodeAddress (bytes : Bytes) : Except ProtocolError (ProtocolAddress × Bytes) := do
  let userIdLength ← decodeVarint bytes
  if userIdLength.1 = 0 then throw (.error "Address binding userId cannot be empty")
  else if userIdLength.2.length < userIdLength.1 then
    throw (.error "Address binding truncated while reading userId")
  else
    let userId := JsString.ofString (utf8Decode (userIdLength.2.take userIdLength.1))
    let deviceId ← readUint32BE (userIdLength.2.drop userIdLength.1)
    pure (⟨userId, deviceId.1⟩, deviceId.2)

def serializeSignalProtocolMessageAddresses (addresses : AddressPair) :
    Except ProtocolError Bytes := do
  let sender ← encodeAddress addresses.senderAddress
  let recipient ← encodeAddress addresses.recipientAddress
  pure (addressBindingFormatVersion :: (sender ++ recipient))

def deserializeSignalProtocolMessageAddresses : Bytes → Except ProtocolError AddressPair
  | [] => throw (.error "SignalProtocolMessage address binding is missing")
  | version :: bytes =>
    if version ≠ addressBindingFormatVersion then
      throw (.error s!"Unsupported SignalProtocolMessage address binding version: {version}")
    else do
      let sender ← decodeAddress bytes
      let recipient ← decodeAddress sender.2
      if recipient.2 ≠ [] then
        throw (.error "SignalProtocolMessage address binding has trailing bytes")
      else pure ⟨sender.1, recipient.1⟩

/-! ## SenderKeyMessage -/

structure SenderKeyMessageFields where
  distributionUuid : Option Bytes
  chainId : Option ℕ
  iteration : ℕ
  ciphertext : Bytes

def encodeSenderKeyMessage (msg : SenderKeyMessageFields) : Except ProtocolError Bytes := do
  let distributionUuid ← encodeOptional (encodeBytesField 1) msg.distributionUuid
  let chainId ← encodeOptional (encodeUint32Field 2) msg.chainId
  let iteration ← encodeUint32Field 3 msg.iteration
  let ciphertext ← encodeBytesField 4 msg.ciphertext
  pure (distributionUuid ++ chainId ++ iteration ++ ciphertext)

/-- The local variables of `decodeSenderKeyMessage`. -/
structure SenderKeyWire where
  distributionUuid : Option Bytes := none
  chainId : Option ℕ := none
  iteration : Option ℕ := none
  ciphertext : Option Bytes := none

def senderKeyMessageField : ℕ → FieldRead SenderKeyWire
  | 1 => .bytes fun wire value => { wire with distributionUuid := value }
  | 2 => .uint32 fun wire value => { wire with chainId := value }
  | 3 => .uint32 fun wire value => { wire with iteration := value }
  | 4 => .bytes fun wire value => { wire with ciphertext := value }
  | _ => .skip

def requireDecoded {α : Type} (field typeName : String) : Option α → Except ProtocolError α
  | some value => pure value
  | none => throw (.error s!"Malformed {typeName}: missing {field}")

def decodeSenderKeyMessage (bytes : Bytes) : Except ProtocolError SenderKeyMessageFields := do
  let wire ← readMessage senderKeyMessageField {} bytes
  let iteration ← requireDecoded "iteration" "SenderKeyMessage" wire.iteration
  let ciphertext ← requireDecoded "ciphertext" "SenderKeyMessage" wire.ciphertext
  pure {
    distributionUuid := wire.distributionUuid.filter fun uuid => !uuid.isEmpty
    chainId := wire.chainId
    iteration
    ciphertext }

def senderKeyMessageCurrentVersion : ℕ := 4

def senderKeyVersionByte : UInt8 :=
  UInt8.ofNat (senderKeyMessageCurrentVersion <<< 4 ||| senderKeyMessageCurrentVersion)

def signatureLen : ℕ := 64

def frameSenderKeyMessage (protobufBytes signature : Bytes) : Except ProtocolError Bytes :=
  if signature.length ≠ signatureLen then
    throw (.error s!"Expected {signatureLen}-byte signature, got {signature.length}")
  else pure (senderKeyVersionByte :: protobufBytes ++ signature)

structure SenderKeyEnvelope where
  version : ℕ
  protobufBytes : Bytes
  signature : Bytes

def parseSenderKeyMessage (bytes : Bytes) : Except ProtocolError SenderKeyEnvelope :=
  if bytes.length < 1 + signatureLen + 1 then
    throw (.error (s!"SenderKeyMessage too short: {bytes.length} bytes " ++
      s!"(minimum {1 + signatureLen + 1})"))
  else if bytes.head! ≠ senderKeyVersionByte then
    throw (.error "Unsupported SenderKeyMessage version")
  else
    pure {
      version := bytes.head!.toNat >>> 4
      protobufBytes := (bytes.take (bytes.length - signatureLen)).drop 1
      signature := bytes.drop (bytes.length - signatureLen) }

/-! ## SignalProtocolMessage and PreKeySignalProtocolMessage -/

def maxSignalProtocolWireMessageBytes : ℕ := 16 * 1024 * 1024

def assertWireMessageSize (bytes : Bytes) (label : String) : Except ProtocolError Unit :=
  if maxSignalProtocolWireMessageBytes < bytes.length then
    throw (.error s!"{label} exceeds {maxSignalProtocolWireMessageBytes}-byte input limit")
  else pure ()

def exactly (length : ℕ) (message : String) :
    Option Bytes → Except ProtocolError Bytes
  | some value => if value.length = length then pure value else throw (.error message)
  | none => throw (.error message)

def nonEmpty (message : String) : Option Bytes → Except ProtocolError Bytes
  | some value => if value.isEmpty then throw (.error message) else pure value
  | none => throw (.error message)

def present (value : Option Bytes) : Option Bytes := value.filter fun bytes => !bytes.isEmpty

structure SignalProtocolMessageFields where
  ratchetKey : Bytes
  counter : ℕ
  previousCounter : ℕ
  ciphertext : Bytes
  pqRatchet : Option Bytes
  addresses : Bytes
  recipientIdentityType : Option ℕ
  deriving DecidableEq

def assertRecipientIdentityType (recipientIdentityType : Option ℕ) : Except ProtocolError Unit :=
  match recipientIdentityType with
  | some type =>
    if type ≠ 1 ∧ type ≠ 2 then
      throw (.error "SignalProtocolMessage recipientIdentityType must be ACI=1 or PNI=2")
    else pure ()
  | none => pure ()

def encodeSignalProtocolMessage (msg : SignalProtocolMessageFields) :
    Except ProtocolError Bytes := do
  if msg.addresses.isEmpty then
    throw (.error "SignalProtocolMessage addresses field is required")
  assertRecipientIdentityType msg.recipientIdentityType
  let ratchetKey ← encodeBytesField 1 msg.ratchetKey
  let counter ← encodeUint32Field 2 msg.counter
  let previousCounter ← encodeUint32Field 3 msg.previousCounter
  let ciphertext ← encodeBytesField 4 msg.ciphertext
  let pqRatchet ← encodeOptional (encodeBytesField 5) msg.pqRatchet
  let addresses ← encodeBytesField 6 msg.addresses
  let recipientIdentityType ← encodeOptional (encodeUint32Field 100) msg.recipientIdentityType
  pure (ratchetKey ++ counter ++ previousCounter ++ ciphertext ++ pqRatchet ++ addresses ++
    recipientIdentityType)

/-- The local variables of `decodeSignalProtocolMessage`. -/
structure SignalWire where
  ratchetKey : Option Bytes := none
  counter : Option ℕ := none
  previousCounter : Option ℕ := none
  ciphertext : Option Bytes := none
  pqRatchet : Option Bytes := none
  addresses : Option Bytes := none
  recipientIdentityType : Option ℕ := none

def signalMessageField : ℕ → FieldRead SignalWire
  | 1 => .bytes fun wire value => { wire with ratchetKey := value }
  | 2 => .uint32 fun wire value => { wire with counter := value }
  | 3 => .uint32 fun wire value => { wire with previousCounter := value }
  | 4 => .bytes fun wire value => { wire with ciphertext := value }
  | 5 => .bytes fun wire value => { wire with pqRatchet := value }
  | 6 => .bytes fun wire value => { wire with addresses := value }
  | 100 => .uint32 fun wire value => { wire with recipientIdentityType := value }
  | _ => .skip

def checkSignalWire (wire : SignalWire) : Except ProtocolError SignalProtocolMessageFields := do
  let addresses ← nonEmpty "Missing required field: addresses" wire.addresses
  let ratchetKey ←
    exactly 33 "SignalProtocolMessage ratchetKey must contain exactly 33 bytes" wire.ratchetKey
  let ciphertext ← nonEmpty "SignalProtocolMessage ciphertext must not be empty" wire.ciphertext
  assertRecipientIdentityType wire.recipientIdentityType
  pure {
    ratchetKey
    counter := wire.counter.getD 0
    previousCounter := wire.previousCounter.getD 0
    ciphertext
    pqRatchet := present wire.pqRatchet
    addresses
    recipientIdentityType := wire.recipientIdentityType }

def decodeSignalProtocolMessage (bytes : Bytes) :
    Except ProtocolError SignalProtocolMessageFields := do
  assertWireMessageSize bytes "SignalProtocolMessage"
  let wire ← readMessage signalMessageField {} bytes
  checkSignalWire wire

structure PreKeySignalProtocolMessageFields where
  ecOneTimePreKeyId : Option ℕ
  baseKey : Bytes
  identityKey : Bytes
  message : Bytes
  registrationId : ℕ
  ecSignedPreKeyId : ℕ
  kemLastResortPreKeyId : Option ℕ
  kemLastResortCiphertext : Option Bytes
  kemOneTimePreKeyId : Option ℕ
  kemOneTimeCiphertext : Option Bytes
  recipientIdentityType : ℕ
  deriving DecidableEq

def encodePreKeySignalProtocolMessage (msg : PreKeySignalProtocolMessageFields) :
    Except ProtocolError Bytes := do
  if msg.recipientIdentityType ≠ 1 ∧ msg.recipientIdentityType ≠ 2 then
    throw (.error "PreKeySignalProtocolMessage recipientIdentityType must be ACI=1 or PNI=2")
  let oneTimePreKeyId ← encodeOptional (encodeUint32Field 1) msg.ecOneTimePreKeyId
  let baseKey ← encodeBytesField 2 msg.baseKey
  let identityKey ← encodeBytesField 3 msg.identityKey
  let message ← encodeBytesField 4 msg.message
  let registrationId ← encodeUint32Field 5 msg.registrationId
  let signedPreKeyId ← encodeUint32Field 6 msg.ecSignedPreKeyId
  let kyberPreKeyId ← encodeOptional (encodeUint32Field 7) msg.kemLastResortPreKeyId
  let kyberCiphertext ← encodeOptional (encodeBytesField 8) msg.kemLastResortCiphertext
  let kemOneTimePreKeyId ← encodeOptional (encodeUint32Field 100) msg.kemOneTimePreKeyId
  let kemOneTimeCiphertext ← encodeOptional (encodeBytesField 101) msg.kemOneTimeCiphertext
  let recipientIdentityType ← encodeUint32Field 102 msg.recipientIdentityType
  pure (oneTimePreKeyId ++ baseKey ++ identityKey ++ message ++ registrationId ++
    signedPreKeyId ++ kyberPreKeyId ++ kyberCiphertext ++ kemOneTimePreKeyId ++
    kemOneTimeCiphertext ++ recipientIdentityType)

/-- The `wireMessage` of `decodePreKeySignalProtocolMessage`. -/
structure PreKeyWire where
  oneTimePreKeyId : Option ℕ := none
  baseKey : Option Bytes := none
  identityKey : Option Bytes := none
  message : Option Bytes := none
  registrationId : Option ℕ := none
  signedPreKeyId : Option ℕ := none
  kyberPreKeyId : Option ℕ := none
  kyberCiphertext : Option Bytes := none
  kemOneTimePreKeyId : Option ℕ := none
  kemOneTimeCiphertext : Option Bytes := none
  recipientIdentityType : Option ℕ := none

def preKeyMessageField : ℕ → FieldRead PreKeyWire
  | 1 => .uint32 fun wire value => { wire with oneTimePreKeyId := value }
  | 2 => .bytes fun wire value => { wire with baseKey := value }
  | 3 => .bytes fun wire value => { wire with identityKey := value }
  | 4 => .bytes fun wire value => { wire with message := value }
  | 5 => .uint32 fun wire value => { wire with registrationId := value }
  | 6 => .uint32 fun wire value => { wire with signedPreKeyId := value }
  | 7 => .uint32 fun wire value => { wire with kyberPreKeyId := value }
  | 8 => .bytes fun wire value => { wire with kyberCiphertext := value }
  | 100 => .uint32 fun wire value => { wire with kemOneTimePreKeyId := value }
  | 101 => .bytes fun wire value => { wire with kemOneTimeCiphertext := value }
  | 102 => .uint32 fun wire value => { wire with recipientIdentityType := value }
  | _ => .skip

def required (message : String) : Option ℕ → Except ProtocolError ℕ
  | some value => pure value
  | none => throw (.error message)

def requiredIdentityType (message : String) : Option ℕ → Except ProtocolError ℕ
  | some value => if value ≠ 1 ∧ value ≠ 2 then throw (.error message) else pure value
  | none => throw (.error message)

def checkPreKeyWire (wire : PreKeyWire) :
    Except ProtocolError PreKeySignalProtocolMessageFields := do
  let baseKey ←
    exactly 33 "PreKeySignalProtocolMessage baseKey must contain exactly 33 bytes" wire.baseKey
  let identityKey ←
    exactly 67 "PreKeySignalProtocolMessage identityKey must contain exactly 67 bytes"
      wire.identityKey
  let message ← nonEmpty "PreKeySignalProtocolMessage message must not be empty" wire.message
  let registrationId ← required "Missing required field: registrationId" wire.registrationId
  let signedPreKeyId ← required "Missing required field: signedPreKeyId" wire.signedPreKeyId
  let recipientIdentityType ←
    requiredIdentityType
      "PreKeySignalProtocolMessage recipientIdentityType must be ACI=1 or PNI=2"
      wire.recipientIdentityType
  pure {
    ecOneTimePreKeyId := wire.oneTimePreKeyId
    baseKey
    identityKey
    message
    registrationId
    ecSignedPreKeyId := signedPreKeyId
    kemLastResortPreKeyId := wire.kyberPreKeyId
    kemLastResortCiphertext := present wire.kyberCiphertext
    kemOneTimePreKeyId := wire.kemOneTimePreKeyId
    kemOneTimeCiphertext := present wire.kemOneTimeCiphertext
    recipientIdentityType }

def decodePreKeySignalProtocolMessage (bytes : Bytes) :
    Except ProtocolError PreKeySignalProtocolMessageFields := do
  assertWireMessageSize bytes "PreKeySignalProtocolMessage"
  let wire ← readMessage preKeyMessageField {} bytes
  checkPreKeyWire wire

/-! ## Envelopes of the session messages

The frames of the two messages, and how `SessionCipher.decrypt` reads a frame. -/

def ciphertextMessageCurrentVersion : ℕ := 4

def macLength : ℕ := 8

/-- `makeVersionByte` at its default, the current version. -/
def makeVersionByte : UInt8 :=
  UInt8.ofNat ((ciphertextMessageCurrentVersion <<< 4 ||| ciphertextMessageCurrentVersion) &&& 0xff)

def frameSignalProtocolMessage (protobufBytes macBytes : Bytes) : Except ProtocolError Bytes :=
  if macBytes.length ≠ macLength then
    throw (.error s!"MAC must be exactly {macLength} bytes, got {macBytes.length}")
  else pure (makeVersionByte :: protobufBytes ++ macBytes)

structure SignalEnvelope where
  version : ℕ
  protobufBytes : Bytes
  mac : Bytes

def parseSignalProtocolMessageEnvelope (bytes : Bytes) : Except ProtocolError SignalEnvelope :=
  let minLength := 1 + macLength
  if bytes.length < minLength then
    throw (.error (s!"SignalProtocolMessage too short: expected at least {minLength} bytes, " ++
      s!"got {bytes.length}"))
  else
    pure {
      version := bytes.head!.toNat >>> 4
      protobufBytes := (bytes.take (bytes.length - macLength)).drop 1
      mac := bytes.drop (bytes.length - macLength) }

def framePreKeySignalProtocolMessage (protobufBytes : Bytes) : Bytes :=
  makeVersionByte :: protobufBytes

structure PreKeyEnvelope where
  version : ℕ
  protobufBytes : Bytes

def parsePreKeySignalProtocolMessageEnvelope : Bytes → Except ProtocolError PreKeyEnvelope
  | [] =>
    throw (.error "PreKeySignalProtocolMessage too short: expected at least 1 byte, got 0")
  | version :: protobufBytes => pure { version := version.toNat >>> 4, protobufBytes }

structure ProtobufMacContext where
  serializedForMac : Bytes
  mac : Bytes
  addresses : Bytes
  deriving DecidableEq

def createProtobufMacContext (framedMessage envelopeMac addresses : Bytes) :
    Except ProtocolError ProtobufMacContext :=
  if envelopeMac.length = 0 ∨ framedMessage.length ≤ envelopeMac.length then
    throw (.encryption .invalidCiphertext
      "Invalid protobuf SignalProtocolMessage envelope for MAC context")
  else if addresses.length = 0 then
    throw (.encryption .invalidCiphertext
      "SignalProtocolMessage address binding is required for MAC context")
  else
    pure {
      serializedForMac := framedMessage.take (framedMessage.length - envelopeMac.length)
      mac := envelopeMac
      addresses }

/-- What `decrypt` has read from a frame before it turns to the session. -/
inductive WireMessage where
  | ratchet (signalFields : SignalProtocolMessageFields) (macContext : ProtobufMacContext)
  | preKey (preKeyFields : PreKeySignalProtocolMessageFields)
      (signalFields : SignalProtocolMessageFields) (macContext : ProtobufMacContext)
  deriving DecidableEq

def isBinaryPreKey (framedBytes : Bytes) : Bool :=
  framedBytes[1]? = some 0x08 ∨ framedBytes[1]? = some 0x12

def assertMacBoundIdentityType (signalFields : SignalProtocolMessageFields)
    (preKeyFields : PreKeySignalProtocolMessageFields) : Except ProtocolError Unit :=
  if signalFields.recipientIdentityType ≠ some preKeyFields.recipientIdentityType then
    throw (.encryption .invalidCiphertext
      "PreKeySignalProtocolMessage recipient identity namespace is not MAC-bound")
  else pure ()

def readPreKeyFrame (framedBytes : Bytes) : Except ProtocolError WireMessage := do
  let outer ← parsePreKeySignalProtocolMessageEnvelope framedBytes
  let preKeyFields ← decodePreKeySignalProtocolMessage outer.protobufBytes
  let inner ← parseSignalProtocolMessageEnvelope preKeyFields.message
  let signalFields ← decodeSignalProtocolMessage inner.protobufBytes
  assertMacBoundIdentityType signalFields preKeyFields
  let macContext ←
    createProtobufMacContext preKeyFields.message inner.mac signalFields.addresses
  pure (.preKey preKeyFields signalFields macContext)

def readSignalFrame (framedBytes : Bytes) : Except ProtocolError WireMessage := do
  let envelope ← parseSignalProtocolMessageEnvelope framedBytes
  let signalFields ← decodeSignalProtocolMessage envelope.protobufBytes
  let macContext ← createProtobufMacContext framedBytes envelope.mac signalFields.addresses
  pure (.ratchet signalFields macContext)

def asMalformed {α : Type} : Except ProtocolError α → Except ProtocolError α
  | .error (.encryption code message) => .error (.encryption code message)
  | .error _ => .error (.encryption .invalidCiphertext "Malformed message")
  | .ok value => .ok value

/-- The parse of `SessionCipher.decrypt`, up to the decoded fields and the MAC context. -/
def readFrame (framedBytes : Bytes) : Except ProtocolError WireMessage :=
  asMalformed <|
    if isBinaryPreKey framedBytes then readPreKeyFrame framedBytes
    else readSignalFrame framedBytes

end SignalProtocol.Proto

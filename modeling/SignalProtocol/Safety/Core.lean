import SignalProtocol.Keys.ContactIdentity
import SignalProtocol.Proto.Primitives
import SignalProtocol.Platform.Url

/-! # Safety numbers

The fingerprints of the two sides, their order, and the texts and the scannable code that are made
from them. -/

namespace SignalProtocol.Safety

open Keys Proto

def fingerprintIterations : ℕ := 5200

def compositeFingerprintVersion : ℕ := 4

def compositeFingerprintDomain : Bytes :=
  stringToBytes "signal-protocol-js composite safety number v1"

def scannableFingerprintBytes : ℕ := 32

inductive IdentityType where
  | aci
  | pni

structure SafetyCrypto where
  sha256 : Bytes → Bytes
  sha512 : Bytes → Bytes

structure IndividualFingerprint where
  scannable : Bytes
  full : Bytes

structure FingerprintPair where
  localFingerprint : IndividualFingerprint
  remoteFingerprint : IndividualFingerprint
  firstFingerprint : IndividualFingerprint
  displayable : List Char
  hex : List Char

def bytesToNumber (bytes : Bytes) : ℕ :=
  bytes.foldl (fun result byte => result * 256 + byte.toNat) 0

def fiveDigits (num : ℕ) : List Char := (Nat.toDigits 10 num).leftpad 5 '0'

def generateNumericFromFingerprint (hash : Bytes) (digitCount : ℕ) : List Char :=
  let chunksNeeded := (digitCount + 4) / 5
  ((List.range chunksNeeded).foldl (fun result i =>
    if result.length < digitCount then
      result ++ fiveDigits (bytesToNumber ((hash.drop (i * 5)).take 5) % 100000)
    else result) []).take digitCount

def inGroupsOfFive (text : List Char) : List Char := [' '].intercalate (text.toChunks 5)

def formatNumeric (numeric : List Char) : List Char := inGroupsOfFive numeric

def fingerprintEmojis : List Char :=
  "😀😃😄😁😆😅🤣😂🙂🙃😉😊😇🥰😍🤩😘😗😚😙🥲😋😛😜🤪😝🤑🤗🤭🤫🤔🤐🤨😐😑😶😏😒🙄😬🤥😌😔😪🤤😴😷🤒🤕🤢🤮🤧🥵🥶😵🤯🤠🥳😎🤓🧐😕😟🙁".toList

def generateEmojiFingerprint (hash : Bytes) : List Char :=
  (hash.take 30).map fun byte =>
    fingerprintEmojis.getD (byte.toNat % fingerprintEmojis.length) ' '

def formatEmojis (emojis : List Char) : List Char := inGroupsOfFive emojis

def hexDigit (value : ℕ) : Char := "0123456789abcdef".toList.getD value '0'

def bytesToHex (bytes : Bytes) : List Char :=
  bytes.flatMap fun byte => [hexDigit (byte.toNat / 16), hexDigit (byte.toNat % 16)]

def compareBytes : Bytes → Bytes → ℤ
  | left :: lefts, right :: rights =>
    let difference : ℤ := left.toNat - right.toNat
    if difference ≠ 0 then difference else compareBytes lefts rights
  | lefts, rights => lefts.length - rights.length

def fingerprintOrder (localFingerprint remoteFingerprint : IndividualFingerprint) : ℤ :=
  let localDigits := generateNumericFromFingerprint localFingerprint.full 30
  let remoteDigits := generateNumericFromFingerprint remoteFingerprint.full 30
  let order := compareBytes (localDigits.flatMap String.utf8EncodeChar)
    (remoteDigits.flatMap String.utf8EncodeChar)
  if order ≠ 0 then order else compareBytes localFingerprint.full remoteFingerprint.full

def orderFingerprintPair (localFingerprint remoteFingerprint : IndividualFingerprint) :
    FingerprintPair :=
  let localDigits := generateNumericFromFingerprint localFingerprint.full 30
  let remoteDigits := generateNumericFromFingerprint remoteFingerprint.full 30
  if fingerprintOrder localFingerprint remoteFingerprint ≤ 0 then {
    localFingerprint
    remoteFingerprint
    firstFingerprint := localFingerprint
    displayable := formatNumeric (localDigits ++ remoteDigits)
    hex := bytesToHex localFingerprint.scannable ++ bytesToHex remoteFingerprint.scannable }
  else {
    localFingerprint
    remoteFingerprint
    firstFingerprint := remoteFingerprint
    displayable := formatNumeric (remoteDigits ++ localDigits)
    hex := bytesToHex remoteFingerprint.scannable ++ bytesToHex localFingerprint.scannable }

def encodeUint32BE (value : ℕ) : Bytes :=
  [UInt8.ofNat (value >>> 24), UInt8.ofNat (value >>> 16), UInt8.ofNat (value >>> 8),
    UInt8.ofNat value]

def identityTypeByte : IdentityType → UInt8
  | .aci => 0x01
  | .pni => 0x02

def encodeCompositeSafetyIdentifier (userId : JsString) (identityType : IdentityType) :
    Except ProtocolError Bytes :=
  let userIdBytes := JsString.encode userId
  if userIdBytes = [] then throw (.error "Safety-number userId cannot be empty")
  else pure (identityTypeByte identityType :: encodeUint32BE userIdBytes.length ++ userIdBytes)

section

variable (crypto : SafetyCrypto)

def deriveIdentityCommitment (identity : CompositeIdentityV1) : Except ProtocolError Bytes := do
  let encoded ← encodeCompositeIdentityV1 identity
  pure (crypto.sha256 (domainBytes ++ encoded))

def hashRound (commitment hash : Bytes) : Bytes := crypto.sha512 (hash ++ commitment)

def computeCompositeIndividualFingerprint (identity : CompositeIdentityV1) (userId : JsString)
    (identityType : IdentityType) (iterations : ℕ := fingerprintIterations) :
    Except ProtocolError IndividualFingerprint := do
  let commitment ← deriveIdentityCommitment crypto identity
  let identifier ← encodeCompositeSafetyIdentifier userId identityType
  let hash := (hashRound crypto commitment)^[iterations]
    (compositeFingerprintDomain ++ identifier ++ commitment)
  pure { scannable := hash.take scannableFingerprintBytes, full := hash }

def computeCompositeFingerprintPair (localIdentity remoteIdentity : CompositeIdentityV1)
    (localId remoteId : JsString) (identityType : IdentityType)
    (iterations : ℕ := fingerprintIterations) : Except ProtocolError FingerprintPair := do
  let localFingerprint ← computeCompositeIndividualFingerprint crypto localIdentity localId
    identityType iterations
  let remoteFingerprint ← computeCompositeIndividualFingerprint crypto remoteIdentity remoteId
    identityType iterations
  pure (orderFingerprintPair localFingerprint remoteFingerprint)

end

structure CombinedFingerprints where
  version : ℕ
  localFingerprint : Bytes
  remoteFingerprint : Bytes

/-- `message LogicalFingerprint { optional bytes content = 1; }`. -/
def encodeLogicalFingerprint (content : Bytes) : Except ProtocolError Bytes :=
  encodeBytesField 1 content

def encodeCombinedFingerprints (data : CombinedFingerprints) : Except ProtocolError Bytes := do
  let version ← encodeUint32Field 1 data.version
  let localFp ← encodeLogicalFingerprint data.localFingerprint
  let localField ← encodeBytesField 2 localFp
  let remoteFp ← encodeLogicalFingerprint data.remoteFingerprint
  let remoteField ← encodeBytesField 3 remoteFp
  pure (version ++ localField ++ remoteField)

def decodeLogicalFingerprint (buffer : Bytes) : Except ProtocolError Bytes := do
  let (tag, rest) ← decodeVarint buffer
  if tag >>> 3 ≠ 1 ∨ tag &&& 0x07 ≠ wireTypeLengthDelimited then
    throw (.error (
      s!"Invalid LogicalFingerprint tag: expected field 1 wire type {wireTypeLengthDelimited}, " ++
        s!"got field {tag >>> 3} wire type {tag &&& 0x07}"))
  else do
    let (length, rest) ← decodeVarint rest
    let content := rest.take length
    if content.length ≠ length then
      throw (.error
        s!"Truncated LogicalFingerprint: expected {length} bytes, got {content.length}")
    else pure content

structure FingerprintFields where
  version : Option ℕ := none
  localFingerprint : Option Bytes := none
  remoteFingerprint : Option Bytes := none

def skipUnknownField (wireType : ℕ) (bytes : Bytes) : Except ProtocolError Bytes :=
  if wireType = wireTypeVarint then do
    let (_, rest) ← decodeVarint bytes
    pure rest
  else if wireType = wireTypeLengthDelimited then do
    let (length, rest) ← decodeVarint bytes
    pure (rest.drop length)
  else throw (.error s!"Unsupported wire type: {wireType}")

def invalidWireType (name : String) (expected wireType : ℕ) : ProtocolError :=
  .error s!"Invalid wire type for {name}: expected {expected}, got {wireType}"

def readFingerprint (name : String) (wireType : ℕ) (bytes : Bytes) :
    Except ProtocolError (Bytes × Bytes) :=
  if wireType ≠ wireTypeLengthDelimited then
    throw (invalidWireType name wireTypeLengthDelimited wireType)
  else do
    let (length, rest) ← decodeVarint bytes
    let content ← decodeLogicalFingerprint (rest.take length)
    pure (content, rest.drop length)

def readCombinedField (fieldNumber wireType : ℕ) (fields : FingerprintFields) (bytes : Bytes) :
    Except ProtocolError (FingerprintFields × Bytes) :=
  match fieldNumber with
  | 1 =>
    if wireType ≠ wireTypeVarint then throw (invalidWireType "version" wireTypeVarint wireType)
    else do
      let (version, rest) ← decodeVarint bytes
      pure ({ fields with version := some version }, rest)
  | 2 => do
      let (content, rest) ← readFingerprint "local_fingerprint" wireType bytes
      pure ({ fields with localFingerprint := some content }, rest)
  | 3 => do
      let (content, rest) ← readFingerprint "remote_fingerprint" wireType bytes
      pure ({ fields with remoteFingerprint := some content }, rest)
  | _ => do
      let rest ← skipUnknownField wireType bytes
      pure (fields, rest)

def readCombinedFields : ℕ → FingerprintFields → Bytes → Except ProtocolError FingerprintFields
  | _, fields, [] => pure fields
  | 0, fields, _ => pure fields
  | bound + 1, fields, bytes => do
      let (tag, rest) ← decodeVarint bytes
      let (fields, rest) ← readCombinedField (tag >>> 3) (tag &&& 0x7) fields rest
      readCombinedFields bound fields rest

def requiredField {α : Type} (name : String) : Option α → Except ProtocolError α
  | some value => pure value
  | none => throw (.error s!"Missing {name} field in CombinedFingerprints")

def decodeCombinedFingerprints (data : Bytes) : Except ProtocolError CombinedFingerprints := do
  let fields ← readCombinedFields data.length {} data
  let version ← requiredField "version" fields.version
  let localFingerprint ← requiredField "local_fingerprint" fields.localFingerprint
  let remoteFingerprint ← requiredField "remote_fingerprint" fields.remoteFingerprint
  pure { version, localFingerprint, remoteFingerprint }

inductive CompareResult where
  | matched
  | noMatch
  | versionMismatch
  deriving DecidableEq

structure ScannableFingerprint where
  version : ℕ
  localFingerprint : Bytes
  remoteFingerprint : Bytes
  local_length : localFingerprint.length = scannableFingerprintBytes
  remote_length : remoteFingerprint.length = scannableFingerprintBytes

namespace ScannableFingerprint

def create (localFingerprint remoteFingerprint : Bytes) (version : ℕ) :
    Except ProtocolError ScannableFingerprint :=
  if hlocal : localFingerprint.length = scannableFingerprintBytes then
    if hremote : remoteFingerprint.length = scannableFingerprintBytes then
      pure ⟨version, localFingerprint, remoteFingerprint, hlocal, hremote⟩
    else throw (.error (s!"Remote fingerprint must be {scannableFingerprintBytes} bytes, " ++
      s!"got {remoteFingerprint.length}"))
  else throw (.error (s!"Local fingerprint must be {scannableFingerprintBytes} bytes, " ++
    s!"got {localFingerprint.length}"))

def toBuffer (scannable : ScannableFingerprint) : Except ProtocolError Bytes :=
  encodeCombinedFingerprints
    ⟨scannable.version, scannable.localFingerprint, scannable.remoteFingerprint⟩

def toBase64 (scannable : ScannableFingerprint) : Except ProtocolError JsString := do
  let buffer ← scannable.toBuffer
  pure (JsString.ofString (bytesToBase64 buffer))

def compare (scannable : ScannableFingerprint) (scannedData : Bytes) : CompareResult :=
  match decodeCombinedFingerprints scannedData with
  | .error _ => .noMatch
  | .ok decoded =>
    if decoded.version ≠ scannable.version then .versionMismatch
    else if constantTimeEqual decoded.localFingerprint scannable.remoteFingerprint ∧
        constantTimeEqual decoded.remoteFingerprint scannable.localFingerprint then .matched
    else .noMatch

end ScannableFingerprint

structure SafetyNumber where
  numeric : List Char
  emojis : List Char
  hex : List Char
  qrData : JsString
  scannable : ScannableFingerprint

def generateCompositeSafetyNumber (crypto : SafetyCrypto)
    (localIdentity remoteIdentity : CompositeIdentityV1)
    (localIdentifier remoteIdentifier : JsString) (identityType : IdentityType) :
    Except ProtocolError SafetyNumber := do
  let pair ← computeCompositeFingerprintPair crypto localIdentity remoteIdentity localIdentifier
    remoteIdentifier identityType
  let scannable ← ScannableFingerprint.create pair.localFingerprint.scannable
    pair.remoteFingerprint.scannable compositeFingerprintVersion
  let qrData ← scannable.toBase64
  pure {
    numeric := pair.displayable
    emojis := formatEmojis (generateEmojiFingerprint pair.firstFingerprint.full)
    hex := pair.hex
    qrData
    scannable }

/-! ## Verification links

The links that carry the data of a scannable code, and what a scanner reads from a text. -/

open Url

structure VerifyLinkConfig where
  baseUrl : JsString
  schemeUrl : JsString

def defaultVerifyLinkConfig : VerifyLinkConfig where
  baseUrl := units "https://verify.open-e2ee.dev/safety-number"
  schemeUrl := units "signalprotocol://verify"

inductive ContextType where
  | dm
  | dynamic
  deriving DecidableEq

def ContextType.text : ContextType → JsString
  | dm => units "dm"
  | dynamic => units "dynamic"

structure VerifyUrlParams where
  generatorUserId : JsString
  otherUserId : JsString
  contextType : ContextType
  contextId : JsString
  qrData : JsString

def encodeParams (params : VerifyUrlParams) : JsString :=
  encodeQuery [
    (units "g", params.generatorUserId),
    (units "u", params.otherUserId),
    (units "t", params.contextType.text),
    (units "c", params.contextId),
    (units "d", base64ToUrlSafe params.qrData)]

def generateVerifyUrl (params : VerifyUrlParams)
    (config : VerifyLinkConfig := defaultVerifyLinkConfig) : JsString :=
  config.baseUrl ++ unit '?' :: encodeParams params

def generateVerifySchemeUrl (params : VerifyUrlParams)
    (config : VerifyLinkConfig := defaultVerifyLinkConfig) : JsString :=
  config.schemeUrl ++ unit '?' :: encodeParams params

def rootPath (pathname : JsString) : JsString := if pathname = [] then units "/" else pathname

def matchesTarget (candidate : ParsedUrl) (target : JsString) : Bool :=
  match parseUrl target with
  | .error _ => false
  | .ok expected =>
    candidate.protocol = expected.protocol ∧ candidate.host = expected.host ∧
      rootPath candidate.pathname = rootPath expected.pathname

def asVerifyTarget (data : JsString) (config : VerifyLinkConfig) : Option ParsedUrl :=
  match parseUrl data with
  | .error _ => none
  | .ok candidate =>
    if matchesTarget candidate config.baseUrl || matchesTarget candidate config.schemeUrl then
      some candidate
    else none

def isVerifyUrl (data : JsString) (config : VerifyLinkConfig := defaultVerifyLinkConfig) : Bool :=
  (asVerifyTarget data config).isSome

/-- The value of a required parameter that is there once. -/
def singleValue (target : ParsedUrl) (name : String) : Option JsString :=
  match queryValues target (units name) with
  | .ok [value] => if value = [] then none else some value
  | _ => none

def parseContextType (text : JsString) : Option ContextType :=
  if text = units "dm" then some .dm else if text = units "dynamic" then some .dynamic else none

def parseVerifyUrl (url : JsString) (config : VerifyLinkConfig := defaultVerifyLinkConfig) :
    Option VerifyUrlParams := do
  let target ← asVerifyTarget url config
  let generatorUserId ← singleValue target "g"
  let otherUserId ← singleValue target "u"
  let contextType ← singleValue target "t"
  let contextId ← singleValue target "c"
  let qrData ← singleValue target "d"
  let contextType ← parseContextType contextType
  pure { generatorUserId, otherUserId, contextType, contextId, qrData := urlSafeToBase64 qrData }

def isUrlSafeUnit (code : UInt16) : Bool := isAlphanumeric code || code ∈ units "-_"

def isBase64Unit (code : UInt16) : Bool := isAlphanumeric code || code ∈ units "+/="

def extractQrData (scannedData : JsString)
    (config : VerifyLinkConfig := defaultVerifyLinkConfig) : Option JsString :=
  if isVerifyUrl scannedData config then
    (parseVerifyUrl scannedData config).map VerifyUrlParams.qrData
  else if scannedData.all isUrlSafeUnit ∧ 10 ≤ scannedData.length then
    some (urlSafeToBase64 scannedData)
  else if scannedData.all isBase64Unit ∧ 10 ≤ scannedData.length then some scannedData
  else none

end SignalProtocol.Safety

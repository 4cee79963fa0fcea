import SignalProtocol.Braid.StateMachine

/-! # SPQR wire format

`VERSION(1) | VARINT(epoch) | VARINT(chain_index) | MSG_TYPE(1) | payload`. -/

namespace SignalProtocol.Spqr

open Braid Rs

def versionV1 : ℕ := 0x01

def directCiphertext : ℕ := 0x80

def directPublicKey : ℕ := 0x81

def directBoth : ℕ := 0x82

def mlkem768CiphertextSize : ℕ := 1088

def mlkem768PublicKeySize : ℕ := 1184

def braidChunkSize : ℕ := 32

def maxUint32 : ℕ := 0xffffffff

def maxUint64 : ℕ := 2 ^ 64 - 1

def maxSafeInteger : ℕ := 2 ^ 53 - 1

def maxVarintU64Bytes : ℕ := 10

inductive WireMode where
  | none
  | braid
  | direct
  deriving DecidableEq

structure SPQRWireMessage where
  epoch : Option ℕ := none
  chainIndex : Option ℕ := none
  mode : WireMode
  braidMsgType : Option MessageType := none
  braidChunkIndex : Option ℕ := none
  braidChunkData : Option Bytes := none
  kyberCiphertext : Option Bytes := none
  kyberPublicKey : Option Bytes := none
  deriving DecidableEq

def messageTypeValue : MessageType → ℕ
  | .none => 0
  | .hdr => 1
  | .ek => 2
  | .ekCt1Ack => 3
  | .ct1Ack => 4
  | .ct1 => 5
  | .ct2 => 6

def messageTypeOfValue : ℕ → Option MessageType
  | 0 => some .none
  | 1 => some .hdr
  | 2 => some .ek
  | 3 => some .ekCt1Ack
  | 4 => some .ct1Ack
  | 5 => some .ct1
  | 6 => some .ct2
  | _ => none

def assertUint64 (name : String) (value min : ℕ) : Except ProtocolError Unit :=
  if value < min ∨ maxUint64 < value then
    throw (.error s!"Invalid SPQR {name}: {value} (expected {min}-{maxUint64})")
  else pure ()

def assertUint32 (name : String) (value min max : ℕ) : Except ProtocolError Unit :=
  if value < min ∨ max < value then
    throw (.error s!"Invalid SPQR {name}: {value} (expected {min}-{max})")
  else pure ()

def bigintToSafeNumber (name : String) (value : ℕ) : Except ProtocolError ℕ :=
  if maxSafeInteger < value then
    throw (.error
      s!"Invalid SPQR {name}: {value} exceeds JavaScript safe integer range for local state")
  else pure value

/-- The loop of `encodeVarintLEB128`, with a bound on its continuation bytes. -/
def varintBytes : ℕ → ℕ → Bytes
  | 0, value => [UInt8.ofNat value]
  | continuations + 1, value =>
    if 0x80 ≤ value then
      UInt8.ofNat ((value &&& 0x7f) ||| 0x80) :: varintBytes continuations (value >>> 7)
    else [UInt8.ofNat value]

def encodeVarintLEB128 (value : ℕ) : Except ProtocolError Bytes := do
  assertUint64 "varint" value 0
  pure (varintBytes (maxVarintU64Bytes - 1) value)

/-- The loop of `decodeVarintLEB128Bigint`: the bytes that may still be read, the position of the
next seven bits and the value so far. -/
def decodeVarintLoop : ℕ → ℕ → ℕ → Bytes → Except ProtocolError (ℕ × Bytes)
  | 0, _, _, _ => throw (.error "Varint too long (> 10 bytes for uint64)")
  | _ + 1, _, _, [] => throw (.error "Unexpected end of varint")
  | bytesLeft + 1, shift, result, byte :: rest =>
    let result := result ||| ((byte.toNat &&& 0x7f) <<< shift)
    if byte.toNat &&& 0x80 = 0 then
      if maxUint64 < result then throw (.error "Varint too large (> uint64)")
      else pure (result, rest)
    else decodeVarintLoop bytesLeft (shift + 7) result rest

def decodeVarintLEB128Bigint (bytes : Bytes) : Except ProtocolError (ℕ × Bytes) :=
  decodeVarintLoop maxVarintU64Bytes 0 0 bytes

def decodeVarintLEB128 (bytes : Bytes) : Except ProtocolError (ℕ × Bytes) := do
  let decoded ← decodeVarintLEB128Bigint bytes
  if maxUint32 < decoded.1 then throw (.error "Varint too large for uint32")
  else pure decoded

def spqrInternalEpochToWireEpoch (epoch : ℕ) : Except ProtocolError ℕ := do
  assertUint32 "internal epoch" epoch 0 (maxUint32 - 1)
  pure (epoch + 1)

def spqrWireEpochToInternalEpoch (wireEpoch : ℕ) : Except ProtocolError ℕ := do
  assertUint64 "wire epoch" wireEpoch 1
  bigintToSafeNumber "internal epoch" (wireEpoch - 1)

def spqrWireEpochToBigInt (wireEpoch : ℕ) : Except ProtocolError ℕ := do
  assertUint64 "wire epoch" wireEpoch 1
  pure wireEpoch

def braidMessageTypeRequiresChunk (msgType : MessageType) : Bool :=
  msgType ≠ .none ∧ msgType ≠ .ct1Ack

def setBytes (buffer : Bytes) (offset : ℕ) (bytes : Bytes) : Except ProtocolError Bytes :=
  if buffer.length < offset + bytes.length then throw (.error "offset is out of bounds")
  else pure (buffer.take offset ++ bytes ++ buffer.drop (offset + bytes.length))

def encodeBraidPayload (msg : SPQRWireMessage) : Except ProtocolError Bytes := do
  let msgType := msg.braidMsgType.getD .none
  let typeByte := UInt8.ofNat (messageTypeValue msgType)
  if braidMessageTypeRequiresChunk msgType then
    match msg.braidChunkData with
    | none => throw (.error s!"Missing braid chunk for message type: {messageTypeValue msgType}")
    | some chunk =>
      let braidChunkIndex := msg.braidChunkIndex.getD 0
      assertUint64 "varint" braidChunkIndex 0
      assertBraidChunkIndex braidChunkIndex "braid chunk index"
      let index ← encodeVarintLEB128 braidChunkIndex
      if chunk.length ≠ braidChunkSize then
        throw (.error
          s!"Invalid braid chunk length: {chunk.length} (expected {braidChunkSize})")
      else pure (typeByte :: index ++ chunk)
  else
    match msg.braidChunkData with
    | none => pure [typeByte]
    | some _ =>
      throw (.error s!"Unexpected braid chunk for message type: {messageTypeValue msgType}")

def encodeDirectPayload (msg : SPQRWireMessage) : Except ProtocolError Bytes :=
  match msg.kyberCiphertext, msg.kyberPublicKey with
  | some ciphertext, some publicKey => do
      let buffer := List.replicate (mlkem768CiphertextSize + mlkem768PublicKeySize) 0
      let buffer ← setBytes buffer 0 ciphertext
      let buffer ← setBytes buffer mlkem768CiphertextSize publicKey
      pure (UInt8.ofNat directBoth :: buffer)
  | some ciphertext, none => do
      let buffer ← setBytes (List.replicate mlkem768CiphertextSize 0) 0 ciphertext
      pure (UInt8.ofNat directCiphertext :: buffer)
  | none, some publicKey => do
      let buffer ← setBytes (List.replicate mlkem768PublicKeySize 0) 0 publicKey
      pure (UInt8.ofNat directPublicKey :: buffer)
  | none, none => pure [UInt8.ofNat (messageTypeValue .none)]

def encodePayload (msg : SPQRWireMessage) : Except ProtocolError Bytes :=
  match msg.mode with
  | .braid => encodeBraidPayload msg
  | .direct => encodeDirectPayload msg
  | .none => pure [UInt8.ofNat (messageTypeValue .none)]

def encodeSPQRWire (msg : SPQRWireMessage) : Except ProtocolError Bytes :=
  match msg.epoch with
  | none => throw (.error "SPQR wire epoch is required")
  | some epoch => do
      let chainIndex := msg.chainIndex.getD 0
      assertUint64 "wire epoch" epoch 1
      assertUint32 "chain index" chainIndex 0 maxUint32
      let epochBytes ← encodeVarintLEB128 epoch
      let indexBytes ← encodeVarintLEB128 chainIndex
      let payload ← encodePayload msg
      pure (UInt8.ofNat versionV1 :: epochBytes ++ indexBytes ++ payload)

def truncated (payload : String) (size total remaining : ℕ) : ProtocolError :=
  .error
    s!"Truncated {payload}: need {size} bytes at offset {total - remaining}, have {remaining}"

def takePayload (payload : String) (size total : ℕ) (rest : Bytes) :
    Except ProtocolError (Bytes × Bytes) :=
  if rest.length < size then throw (truncated payload size total rest.length)
  else pure (rest.take size, rest.drop size)

def decodeDirectPayload (msg : SPQRWireMessage) (modeByte total : ℕ) (rest : Bytes) :
    Except ProtocolError SPQRWireMessage :=
  if modeByte = directCiphertext then do
    let ciphertext ← takePayload "kyberCiphertext" mlkem768CiphertextSize total rest
    pure { msg with kyberCiphertext := some ciphertext.1 }
  else if modeByte = directPublicKey then do
    let publicKey ← takePayload "kyberPublicKey" mlkem768PublicKeySize total rest
    pure { msg with kyberPublicKey := some publicKey.1 }
  else do
    let ciphertext ← takePayload "kyberCiphertext" mlkem768CiphertextSize total rest
    let publicKey ← takePayload "kyberPublicKey" mlkem768PublicKeySize total ciphertext.2
    pure { msg with kyberCiphertext := some ciphertext.1, kyberPublicKey := some publicKey.1 }

def decodeBraidPayload (msg : SPQRWireMessage) (msgType : MessageType) (total : ℕ)
    (rest : Bytes) : Except ProtocolError SPQRWireMessage :=
  if braidMessageTypeRequiresChunk msgType then
    if rest = [] then
      throw (.error s!"Missing braid chunk for message type: {messageTypeValue msgType}")
    else do
      let index ← decodeVarintLEB128 rest
      assertBraidChunkIndex index.1 "braid chunk index"
      let chunk ← takePayload "braid chunk" braidChunkSize total index.2
      pure { msg with
        braidMsgType := some msgType
        braidChunkIndex := some index.1
        braidChunkData := some chunk.1 }
  -- Trailing bytes after an acknowledgment are ignored.
  else pure { msg with braidMsgType := some msgType }

/-- A byte in hexadecimal with at least two digits. -/
def hexByte (byte : ℕ) : String :=
  let digits := String.ofList (Nat.toDigits 16 byte)
  if byte < 16 then "0" ++ digits else digits

def decodePayload (epoch chainIndex total : ℕ) (modeByte : ℕ) (rest : Bytes) :
    Except ProtocolError SPQRWireMessage :=
  if modeByte = directCiphertext ∨ modeByte = directPublicKey ∨ modeByte = directBoth then
    decodeDirectPayload { epoch, chainIndex, mode := .direct } modeByte total rest
  else
    match messageTypeOfValue modeByte with
    | some .none => pure { epoch, chainIndex, mode := .none }
    | some msgType => decodeBraidPayload { epoch, chainIndex, mode := .braid } msgType total rest
    | none => throw (.error s!"Unknown SPQR mode byte: 0x{hexByte modeByte}")

def decodeSPQRWire (bytes : Bytes) : Except ProtocolError SPQRWireMessage :=
  match bytes with
  | [] => throw (.error "Missing SPQR wire payload: v1 is required")
  | version :: rest =>
    if version = 0 then throw (.error "Unsupported SPQR wire version: 0; v1 is required")
    else if version.toNat ≠ versionV1 then
      throw (.error s!"Unknown SPQR wire version: {version.toNat}")
    else do
      let epoch ← decodeVarintLEB128Bigint rest
      let wireEpoch ← spqrWireEpochToBigInt epoch.1
      let chainIndex ← decodeVarintLEB128 epoch.2
      match chainIndex.2 with
      | [] => throw (.error "Truncated SPQR wire payload: missing mode byte")
      | modeByte :: rest =>
        decodePayload wireEpoch chainIndex.1 bytes.length modeByte.toNat rest

/-! ## SPQR state and key derivations

Keys are the bytes behind the source's base64 texts. -/

open Results

def epochsToKeepPriorToSendEpoch : ℕ := 1

def maxIndex : ℕ := 1000000

def spqrEpochSecretLength : ℕ := 32

structure ResolvedSPQRLimits where
  maxMessageJump : ℕ
  maxOutOfOrderKeys : ℕ
  deriving DecidableEq

def spqrLimitsDefaults : ResolvedSPQRLimits where
  maxMessageJump := 25000
  maxOutOfOrderKeys := 2000

structure ResolvedSPQRInfoStrings where
  chainStart : String
  chainAddEpoch : String
  chainNext : String
  deriving DecidableEq

/-- The pinned reference texts; `chainStart` has two spaces before `Start`. -/
def spqrInfoStrings : ResolvedSPQRInfoStrings where
  chainStart := "Signal PQ Ratchet V1 Chain  Start"
  chainAddEpoch := "Signal PQ Ratchet V1 Chain Add Epoch"
  chainNext := "Signal PQ Ratchet V1 Chain Next"

inductive Direction where
  | a2b
  | b2a
  deriving DecidableEq

inductive SCKAMode where
  | direct
  | braid
  deriving DecidableEq

structure KDFChain where
  chainKey : Bytes
  counter : ℕ
  deriving DecidableEq

structure EpochChains where
  send : KDFChain
  receive : KDFChain
  deriving DecidableEq

structure SCKAState where
  epoch : ℕ
  ourKyberPrivateKey : Option Bytes
  theirKyberPublicKey : Option Bytes
  deriving DecidableEq

inductive VersionStatus where
  | negotiating
  | complete
  deriving DecidableEq

structure SPQRState where
  rootKey : Bytes
  epoch : ℕ
  sendEpoch : Option ℕ
  kdfChains : OrderedMap ℕ EpochChains
  skippedKeys : OrderedMap (ℕ × ℕ) Bytes
  direction : Direction
  sckaState : SCKAState
  mode : SCKAMode
  braidState : Option MLKEMBraidAgentState := none
  /-- The status of the version negotiation; the only version is v1. -/
  versionNegotiation : Option VersionStatus
  infoStrings : Option ResolvedSPQRInfoStrings := none
  limits : Option ResolvedSPQRLimits := none
  needsSendRatchet : Bool := false
  deriving DecidableEq

abbrev SpqrM := EStateM ProtocolError SPQRState

structure KyberKeyPair where
  publicKey : Bytes
  privateKey : Bytes

structure KyberEncapsulation where
  sharedSecret : Bytes
  ciphertext : Bytes

structure SpqrCrypto where
  braid : BraidCrypto
  keygen : Bytes → KyberKeyPair
  encapsulate : Bytes → Bytes → KyberEncapsulation
  decapsulate : Bytes → Bytes → Bytes

section Kyber

variable (crypto : SpqrCrypto)

def kyber768SecretKeyBytes : ℕ := 2400

def invalidKyber (name : String) (expected actual : ℕ) : ProtocolError :=
  .error s!"Invalid Kyber-768 {name}: expected {expected} bytes, got {actual}"

def generateKyber768KeyPair (randomBytes : RandomBytes) : KyberKeyPair :=
  crypto.keygen (randomBytes 64)

def kyber768Encapsulate (publicKey : Bytes) (randomBytes : RandomBytes) :
    Except ProtocolError KyberEncapsulation :=
  if publicKey.length ≠ mlkem768PublicKeySize then
    throw (invalidKyber "public key" mlkem768PublicKeySize publicKey.length)
  else pure (crypto.encapsulate publicKey (randomBytes 32))

def kyber768Decapsulate (ciphertext privateKey : Bytes) : Except ProtocolError Bytes :=
  if ciphertext.length ≠ mlkem768CiphertextSize then
    throw (invalidKyber "ciphertext" mlkem768CiphertextSize ciphertext.length)
  else if privateKey.length ≠ kyber768SecretKeyBytes then
    throw (invalidKyber "private key" kyber768SecretKeyBytes privateKey.length)
  else pure (crypto.decapsulate ciphertext privateKey)

end Kyber

section Kdf

variable (crypto : SpqrCrypto)

def stringToBytes (text : String) : Bytes := text.toUTF8.toList

def uint32Bytes (value : ℕ) : Bytes :=
  (List.range 4).map fun index => UInt8.ofNat (value >>> (8 * (3 - index)))

structure ChainStep where
  chainKey : Bytes
  messageKey : Bytes

structure EpochKeys where
  rootKey : Bytes
  a2bChainKey : Bytes
  b2aChainKey : Bytes

def splitEpochKeys (derived : Bytes) : EpochKeys where
  rootKey := derived.take 32
  a2bChainKey := (derived.drop 32).take 32
  b2aChainKey := (derived.drop 64).take 32

def kdfChainKeySPQR (chainKey : Bytes) (index : ℕ) (infoString : String) :
    Except ProtocolError ChainStep :=
  if chainKey.length ≠ 32 then throw (.error "Chain key must be 32 bytes")
  else if 0xffffffff < index then throw (.error "Index must be 0 to 2^32-1")
  else
    let derived := crypto.braid.hkdf chainKey (List.replicate 32 0)
      (uint32Bytes index ++ stringToBytes infoString) 64
    pure { chainKey := derived.take 32, messageKey := (derived.drop 32).take 32 }

def kdfSpqrInit (rootKey : Bytes) (infoString : String) : Except ProtocolError EpochKeys :=
  if rootKey.length ≠ 32 then throw (.error "Root key must be 32 bytes")
  else pure (splitEpochKeys (crypto.braid.hkdf rootKey [] (stringToBytes infoString) 96))

def kdfSpqrEpoch (kyberSharedSecret currentRootKey : Bytes) (infoString : String) :
    Except ProtocolError EpochKeys :=
  if kyberSharedSecret.length ≠ 32 then throw (.error "Kyber shared secret must be 32 bytes")
  else if currentRootKey.length ≠ 32 then throw (.error "Current root key must be 32 bytes")
  else pure (splitEpochKeys
    (crypto.braid.hkdf kyberSharedSecret currentRootKey (stringToBytes infoString) 96))

end Kdf

/-! ## SPQR operations

Epoch advancement, message keys, and the black-box `spqrSend` and `spqrRecv`. A failing call
keeps what it had already changed. -/

def zeroedChainKey : Bytes := List.replicate 32 0

def SPQRState.resolvedInfoStrings (state : SPQRState) : ResolvedSPQRInfoStrings :=
  state.infoStrings.getD spqrInfoStrings

def SPQRState.resolvedLimits (state : SPQRState) : ResolvedSPQRLimits :=
  state.limits.getD spqrLimitsDefaults

def validateSPQRState : SpqrM PUnit := do
  let state ← get
  if state.rootKey = [] then throw (.encryption .invalidState "Missing SPQR root key")
  else pure ⟨⟩

def isVersionNegotiationComplete (state : SPQRState) : Bool :=
  state.versionNegotiation = some .complete

def isSpqrBootstrapComplete (state : SPQRState) : Bool :=
  match state.mode with
  | .braid => state.braidState.isSome && isVersionNegotiationComplete state
  | .direct =>
    state.sckaState.theirKyberPublicKey.isSome && isVersionNegotiationComplete state

structure SPQRInitOptions where
  initialRootKey : Bytes
  direction : Direction
  ourKyberPrivateKey : Option Bytes := none
  theirKyberPublicKey : Option Bytes := none
  infoStrings : ResolvedSPQRInfoStrings := spqrInfoStrings
  limits : ResolvedSPQRLimits := spqrLimitsDefaults

def orderChains (direction : Direction) (keys : EpochKeys) : EpochChains :=
  match direction with
  | .a2b => { send := ⟨keys.a2bChainKey, 0⟩, receive := ⟨keys.b2aChainKey, 0⟩ }
  | .b2a => { send := ⟨keys.b2aChainKey, 0⟩, receive := ⟨keys.a2bChainKey, 0⟩ }

section

variable (crypto : SpqrCrypto)

def initializeSPQRState (options : SPQRInitOptions) : Except ProtocolError SPQRState := do
  let keys ← kdfSpqrInit crypto options.initialRootKey options.infoStrings.chainStart
  pure {
    rootKey := keys.rootKey
    epoch := 0
    sendEpoch := some 0
    kdfChains := OrderedMap.empty.set 0 (orderChains options.direction keys)
    skippedKeys := ∅
    direction := options.direction
    sckaState := {
      epoch := 0
      ourKyberPrivateKey := options.ourKyberPrivateKey
      theirKyberPublicKey := options.theirKyberPublicKey }
    mode := .direct
    versionNegotiation := some .negotiating
    infoStrings := some options.infoStrings
    limits := some options.limits }

def initializeSPQRDirect (options : SPQRInitOptions) : Except ProtocolError SPQRState := do
  let spqrState ← initializeSPQRState crypto options
  pure { spqrState with needsSendRatchet := true }

def initializeSPQRBraid (options : SPQRInitOptions) : Except ProtocolError SPQRState := do
  let braidState ← match options.direction with
    | .a2b => initAlice crypto.braid options.initialRootKey
    | .b2a => initBob crypto.braid options.initialRootKey
  let keys ← kdfSpqrInit crypto options.initialRootKey options.infoStrings.chainStart
  pure {
    rootKey := keys.rootKey
    epoch := 0
    sendEpoch := some 0
    kdfChains := OrderedMap.empty.set 0 (orderChains options.direction keys)
    skippedKeys := ∅
    direction := options.direction
    sckaState := {
      epoch := 0
      ourKyberPrivateKey := options.ourKyberPrivateKey
      theirKyberPublicKey := options.theirKyberPublicKey }
    mode := .braid
    braidState := some braidState
    versionNegotiation := some .negotiating }

inductive ChainSelection where
  | both
  | receive

def getNextSPQREpoch : SpqrM ℕ := do
  validateSPQRState
  let state ← get
  if maxSafeInteger ≤ state.epoch then
    throw (.encryption .spqrEpochOutOfRange s!"Cannot advance SPQR epoch safely from {state.epoch}")
  else pure (state.epoch + 1)

def candidateChains (state : SPQRState) (keys : EpochKeys) (chains : ChainSelection)
    (nextEpoch : ℕ) : EpochChains :=
  let ordered := orderChains state.direction keys
  match chains with
  | .both => ordered
  | .receive =>
    { send := ((state.kdfChains.get? nextEpoch).map EpochChains.send).getD ⟨zeroedChainKey, 0⟩
      receive := ordered.receive }

def commitEpoch (state : SPQRState) (keys : EpochKeys) (chains : ChainSelection)
    (nextEpoch : ℕ) : SPQRState :=
  { state with
    rootKey := keys.rootKey
    kdfChains := state.kdfChains.set nextEpoch (candidateChains state keys chains nextEpoch)
    epoch := nextEpoch
    sckaState := { state.sckaState with epoch := nextEpoch } }

def addSPQREpochSecret (epochSecret : Bytes) (chains : ChainSelection) (expectedEpoch : ℕ) :
    SpqrM PUnit := do
  let nextEpoch ← getNextSPQREpoch
  let state ← get
  if expectedEpoch ≠ nextEpoch then
    throw (.encryption .invalidState
      s!"SPQR epoch changed before chain-add: expected {expectedEpoch}, got {nextEpoch}")
  else if state.sckaState.epoch ≠ state.epoch then
    throw (.encryption .invalidState
      s!"SCKA epoch {state.sckaState.epoch} does not match SPQR epoch {state.epoch}")
  else if epochSecret.length ≠ spqrEpochSecretLength then
    throw (.encryption .invalidState
      s!"SPQR epoch secret must be {spqrEpochSecretLength} bytes, got {epochSecret.length}")
  else if state.rootKey.length ≠ 32 then
    throw (.encryption .invalidState
      s!"SPQR root key must decode to 32 bytes, got {state.rootKey.length}")
  else
    let keys ← fromResult (kdfSpqrEpoch crypto epochSecret state.rootKey
      state.resolvedInfoStrings.chainAddEpoch)
    set (commitEpoch state keys chains nextEpoch)

def advanceSPQREpochFromRawSecret (rawSharedSecret : Bytes) (chains : ChainSelection) :
    SpqrM PUnit := do
  let nextEpoch ← getNextSPQREpoch
  let epochSecret ← fromResult (kdfOk crypto.braid rawSharedSecret nextEpoch)
  addSPQREpochSecret crypto epochSecret chains nextEpoch

def addSPQRBraidEpoch (outputKey : OutputKey) : SpqrM PUnit := do
  let expectedEpoch ← getNextSPQREpoch
  if outputKey.epoch ≠ expectedEpoch then
    throw (.encryption .invalidState
      s!"Braid output epoch {outputKey.epoch} does not match next SPQR epoch {expectedEpoch}")
  else addSPQREpochSecret crypto outputKey.epochSecret .both expectedEpoch

structure KemPayload where
  ciphertext : Option Bytes := none
  publicKey : Option Bytes := none

def performSPQRRatchetStep (randomBytes : RandomBytes) : SpqrM KemPayload := do
  validateSPQRState
  let newKyberKeyPair := generateKyber768KeyPair crypto randomBytes
  modify fun state => { state with
    sckaState := { state.sckaState with ourKyberPrivateKey := some newKyberKeyPair.privateKey } }
  let state ← get
  match state.sckaState.theirKyberPublicKey with
  | none =>
    throw (.encryption .spqrInvalidCiphertext
      "SPQR ratchet step requires Kyber shared secret from SCKA")
  | some theirKyberPublicKey =>
    let encapsulation ← fromResult (kyber768Encapsulate crypto theirKyberPublicKey randomBytes)
    advanceSPQREpochFromRawSecret crypto encapsulation.sharedSecret .both
    pure {
      ciphertext := some encapsulation.ciphertext
      publicKey := some newKyberKeyPair.publicKey }

def processSPQRReceivedCiphertext (receivedKyberCiphertext : Bytes) : SpqrM PUnit := do
  validateSPQRState
  let state ← get
  if state.mode = .braid then
    throw (.encryption .invalidState
      "Braid mode does not use processSPQRReceivedCiphertext. Use spqrBraidReceive() for chunk-by-chunk processing.")
  else if receivedKyberCiphertext.length ≠ mlkem768CiphertextSize then
    throw (.encryption .spqrInvalidCiphertext
      s!"Invalid ML-KEM-768 ciphertext size: {receivedKyberCiphertext.length} (expected {mlkem768CiphertextSize})")
  else
    match state.sckaState.ourKyberPrivateKey with
    | none =>
      throw (.encryption .spqrInvalidCiphertext
        "No Kyber private key available for decapsulation")
    | some ourKyberPrivateKey =>
      let sharedSecret ← fromResult
        (kyber768Decapsulate crypto receivedKyberCiphertext ourKyberPrivateKey)
      advanceSPQREpochFromRawSecret crypto sharedSecret .receive

structure SPQRKeyResult where
  messageKey : Bytes
  index : ℕ
  epoch : ℕ

def noKdfChain (epoch : ℕ) : ProtocolError :=
  .encryption .spqrEpochOutOfRange s!"No KDF chain for epoch {epoch}"

/-- Move the send epoch: drop the epochs before the retained ones with their held keys, and clear
the send chains below the new epoch. -/
def advanceSendEpoch (epoch : ℕ) (state : SPQRState) : SPQRState :=
  let oldestToKeep := epoch - epochsToKeepPriorToSendEpoch
  { state with
    sendEpoch := some epoch
    kdfChains := (state.kdfChains.filterKeys (oldestToKeep ≤ ·)).mapEntries fun e chains =>
      if e < epoch then { chains with send := ⟨zeroedChainKey, 0⟩ } else chains
    skippedKeys := state.skippedKeys.filterKeys fun name => oldestToKeep ≤ name.1 }

def nextSendKey (epoch : ℕ) : SpqrM SPQRKeyResult := do
  let state ← get
  match state.kdfChains.get? epoch with
  | none => throw (noKdfChain epoch)
  | some chains =>
    if chains.send.chainKey = zeroedChainKey then
      throw (.encryption .invalidState
        s!"SPQR send chain for epoch {epoch} holds no key material")
    else if maxIndex ≤ chains.send.counter then
      throw (.encryption .spqrCounterOverflow
        s!"SPQR index overflow in epoch {epoch} (index: {chains.send.counter})")
    else
      let currentIndex := chains.send.counter + 1
      let result ← fromResult (kdfChainKeySPQR crypto chains.send.chainKey currentIndex
        state.resolvedInfoStrings.chainNext)
      set { state with
        kdfChains := state.kdfChains.set epoch
          { chains with send := ⟨result.chainKey, currentIndex⟩ } }
      pure { messageKey := result.messageKey, index := currentIndex, epoch }

def deriveSPQRSendKey (epochOverride : Option ℕ) : SpqrM (Option SPQRKeyResult) := do
  validateSPQRState
  let state ← get
  if isSpqrBootstrapComplete state then
    let epoch := epochOverride.getD state.epoch
    let previousSendEpoch := state.sendEpoch.getD 0
    if (state.kdfChains.get? epoch).isNone then throw (noKdfChain epoch)
    else if epoch < previousSendEpoch then
      throw (.encryption .spqrEpochOutOfRange "SPQR send epoch decreased")
    else
      if previousSendEpoch < epoch then modify (advanceSendEpoch epoch)
      let result ← nextSendKey crypto epoch
      pure (some result)
  else pure none

def isBelowTrimHorizon (state : SPQRState) (epoch index : ℕ) : Bool :=
  match state.kdfChains.get? epoch with
  | none => false
  | some chains => index + state.resolvedLimits.maxOutOfOrderKeys < chains.receive.counter

def skippedKeyTrimSize (maxOutOfOrderKeys : ℕ) : ℕ := maxOutOfOrderKeys * 11 / 10 + 1

def trimEpochSkippedKeys (epoch : ℕ) (state : SPQRState) : SPQRState :=
  match state.kdfChains.get? epoch with
  | none => state
  | some chains =>
    let maxOOOKeys := state.resolvedLimits.maxOutOfOrderKeys
    let held := state.skippedKeys.keys.filter fun name => name.1 = epoch
    if held.length < skippedKeyTrimSize maxOOOKeys then state
    else { state with
      skippedKeys := state.skippedKeys.filterKeys fun name =>
        ¬ (name.1 = epoch ∧ name.2 + maxOOOKeys < chains.receive.counter) }

/-- The receive chain during one receive: its key, the requested message key and the keys to
hold. -/
structure ReceiveWalk where
  chainKey : Bytes
  messageKey : Option Bytes
  pendingSkipped : List ((ℕ × ℕ) × Bytes)

/-- One round of the loop of `deriveSPQRReceiveKey`. -/
def walkReceiveChain (infoString : String) (maxOOOKeys epoch index : ℕ) (walk : ReceiveWalk)
    (currentN : ℕ) : Except ProtocolError ReceiveWalk := do
  let result ← kdfChainKeySPQR crypto walk.chainKey currentN infoString
  if currentN = index then
    pure { walk with chainKey := result.chainKey, messageKey := some result.messageKey }
  else if currentN + maxOOOKeys < index then pure { walk with chainKey := result.chainKey }
  else pure { walk with
    chainKey := result.chainKey
    pendingSkipped := walk.pendingSkipped ++ [((epoch, currentN), result.messageKey)] }

def receiveChainFor (state : SPQRState) (index epoch : ℕ) : Except ProtocolError EpochChains :=
  let oldestEpoch := state.epoch - epochsToKeepPriorToSendEpoch
  if state.epoch < epoch then
    throw (.encryption .spqrEpochOutOfRange
      s!"Future epoch requested: {epoch} > current {state.epoch}")
  else if maxIndex < index then
    throw (.encryption .spqrCounterOverflow
      s!"SPQR index overflow: requested index {index} exceeds MAX_INDEX {maxIndex}")
  else if epoch < oldestEpoch then
    throw (.encryption .spqrEpochOutOfRange
      s!"Epoch too old: {epoch} < oldest kept {oldestEpoch}")
  else
    match state.kdfChains.get? epoch with
    | none => throw (noKdfChain epoch)
    | some chains =>
      if chains.receive.counter + state.resolvedLimits.maxMessageJump < index then
        throw (.encryption .spqrMessageJumpTooLarge
          s!"Index jump too large: {index - chains.receive.counter} exceeds max {state.resolvedLimits.maxMessageJump}")
      else pure chains

/-- The held keys that a receive keeps: a jump above `maxOutOfOrderKeys` clears its epoch. -/
def keptSkippedKeys (state : SPQRState) (chains : EpochChains) (index epoch : ℕ) :
    OrderedMap (ℕ × ℕ) Bytes :=
  if chains.receive.counter + state.resolvedLimits.maxOutOfOrderKeys < index then
    state.skippedKeys.filterKeys fun name => name.1 ≠ epoch
  else state.skippedKeys

def storeWalk (state : SPQRState) (chains : EpochChains) (walk : ReceiveWalk)
    (index epoch : ℕ) : SPQRState :=
  { state with
    skippedKeys := walk.pendingSkipped.foldl (fun keys entry => keys.set entry.1 entry.2)
      (keptSkippedKeys state chains index epoch)
    kdfChains := state.kdfChains.set epoch { chains with receive := ⟨walk.chainKey, index⟩ } }

def commitReceive (state : SPQRState) (chains : EpochChains) (walk : ReceiveWalk)
    (index epoch : ℕ) : SPQRState :=
  trimEpochSkippedKeys epoch (storeWalk state chains walk index epoch)

def stepReceiveChain (index epoch : ℕ) : SpqrM Bytes := do
  let state ← get
  let chains ← fromResult (receiveChainFor state index epoch)
  let currentN := chains.receive.counter
  let walk ← fromResult ((List.range' (currentN + 1) (index - currentN)).foldlM
    (walkReceiveChain crypto state.resolvedInfoStrings.chainNext
      state.resolvedLimits.maxOutOfOrderKeys epoch index)
    { chainKey := chains.receive.chainKey, messageKey := none, pendingSkipped := [] })
  match walk.messageKey with
  | none =>
    throw (.encryption .decryptionFailed
      s!"Failed to derive message key for epoch {epoch}, index {index}")
  | some messageKey =>
    set (commitReceive state chains walk index epoch)
    pure messageKey

def deriveSPQRReceiveKey (index epoch : ℕ) : SpqrM (Option Bytes) := do
  validateSPQRState
  let state ← get
  if isSpqrBootstrapComplete state then
    if isBelowTrimHorizon state epoch index then
      throw (.encryption .decryptionFailed s!"SPQR key {epoch}:{index} is below the trim horizon")
    else
      match state.skippedKeys.get? (epoch, index) with
      | some storedKey =>
        set { state with skippedKeys := state.skippedKeys.erase (epoch, index) }
        pure (some storedKey)
      | none =>
        let messageKey ← stepReceiveChain crypto index epoch
        pure (some messageKey)
  else pure none

def tryGetSkippedSPQRKey (epoch index : ℕ) : SpqrM (Option Bytes) := do
  let state ← get
  match state.skippedKeys.get? (epoch, index) with
  | some key =>
    if isBelowTrimHorizon state epoch index then pure none
    else
      set { state with skippedKeys := state.skippedKeys.erase (epoch, index) }
      pure (some key)
  | none => pure none

variable (field : GaloisField16)

def onBraid {α : Type} (agent : MLKEMBraidAgentState) (computation : AgentM α) : SpqrM α :=
  fun state =>
    match computation agent with
    | .ok value agent => .ok value { state with braidState := some agent }
    | .error error agent => .error error { state with braidState := some agent }

def addOutputKey : Option OutputKey → SpqrM PUnit
  | some outputKey => addSPQRBraidEpoch crypto outputKey
  | none => pure ⟨⟩

def sendKem (randomBytes : RandomBytes) : SpqrM KemPayload := do
  let state ← get
  if state.needsSendRatchet ∧ state.mode ≠ .braid then
    let payload ← match state.sckaState.theirKyberPublicKey with
      | some _ => performSPQRRatchetStep crypto randomBytes
      | none => do
          let newKyberKeyPair := generateKyber768KeyPair crypto randomBytes
          modify fun state => { state with
            sckaState := { state.sckaState with
              ourKyberPrivateKey := some newKyberKeyPair.privateKey } }
          pure { publicKey := some newKyberKeyPair.publicKey }
    modify fun state => { state with needsSendRatchet := false }
    pure payload
  else pure {}

def sendBraid (randomBytes : RandomBytes) : SpqrM (Option SendResult) := do
  let state ← get
  match state.mode, state.braidState with
  | .braid, some agent =>
    let result ← onBraid agent (Braid.send crypto.braid field randomBytes)
    addOutputKey crypto result.outputKey
    pure (some result)
  | _, _ => pure none

structure SPQRSendResult where
  msgBytes : Bytes
  messageKey : Option Bytes
  deriving DecidableEq

/-- The chunk of a braid send; a `None` message carries none. -/
def chunkOf (result : SendResult) : Option MLKEMBraidMessage :=
  if result.message.type = .none then none else some result.message

def wireMessageOf (kem : KemPayload) (chunk : Option MLKEMBraidMessage)
    (key : Option SPQRKeyResult) (wireEpoch : ℕ) : SPQRWireMessage where
  epoch := some wireEpoch
  chainIndex := key.map SPQRKeyResult.index
  mode :=
    if chunk.isSome then .braid
    else if kem.ciphertext.isSome ∨ kem.publicKey.isSome then .direct
    else .none
  braidMsgType := chunk.map MLKEMBraidMessage.type
  braidChunkIndex := chunk.bind MLKEMBraidMessage.chunkIndex
  braidChunkData := chunk.bind MLKEMBraidMessage.data
  kyberCiphertext := kem.ciphertext
  kyberPublicKey := kem.publicKey

def sendKeyEpoch : Option SendResult → Except ProtocolError (Option ℕ)
  | some result => do
      let epoch ← spqrWireEpochToInternalEpoch result.sendingEpoch
      pure (some epoch)
  | none => pure none

def wireEpochOf (result : Option SendResult) (key : Option SPQRKeyResult) (state : SPQRState) :
    Except ProtocolError ℕ :=
  match result with
  | some result => pure result.sendingEpoch
  | none => spqrInternalEpochToWireEpoch ((key.map SPQRKeyResult.epoch).getD state.epoch)

def spqrSend (randomBytes : RandomBytes) : SpqrM SPQRSendResult := do
  let kem ← sendKem crypto randomBytes
  let result ← sendBraid crypto field randomBytes
  let epoch ← fromResult (sendKeyEpoch result)
  let key ← deriveSPQRSendKey crypto epoch
  let chunk := result.bind chunkOf
  if key.isSome ∨ kem.ciphertext.isSome ∨ kem.publicKey.isSome ∨ chunk.isSome then
    let state ← get
    let wireEpoch ← fromResult (wireEpochOf result key state)
    let msgBytes ← fromResult (encodeSPQRWire (wireMessageOf kem chunk key wireEpoch))
    pure { msgBytes, messageKey := key.map SPQRKeyResult.messageKey }
  else pure { msgBytes := [], messageKey := none }

def negotiateVersion (state : SPQRState) : SPQRState :=
  if state.versionNegotiation = some .negotiating then
    { state with versionNegotiation := some .complete }
  else state

def receiveDirect (pqr : SPQRWireMessage) : SpqrM PUnit := do
  let publicKey := pqr.kyberPublicKey.getD []
  if publicKey ≠ [] then
    modify fun state => { state with
      sckaState := { state.sckaState with theirKyberPublicKey := some publicKey } }
  let ciphertext := pqr.kyberCiphertext.getD []
  if ciphertext ≠ [] then
    processSPQRReceivedCiphertext crypto ciphertext
    modify fun state => { state with needsSendRatchet := true }

def receivedChunk (pqr : SPQRWireMessage) : Except ProtocolError MLKEMBraidMessage := do
  let epoch ← spqrWireEpochToBigInt (pqr.epoch.getD 0)
  pure {
    epoch
    type := pqr.braidMsgType.getD .none
    chunkIndex := pqr.braidChunkIndex
    data := pqr.braidChunkData }

def receivePayload (pqr : SPQRWireMessage) : SpqrM PUnit := do
  let state ← get
  match pqr.mode, state.mode, state.braidState with
  | .direct, _, _ => receiveDirect crypto pqr
  | .braid, .braid, some agent =>
    let chunk ← fromResult (receivedChunk pqr)
    let result ← onBraid agent (Braid.receive crypto.braid field chunk)
    addOutputKey crypto result.outputKey
  | _, _, _ => pure ⟨⟩

def receiveKey (pqr : SPQRWireMessage) : SpqrM (Option Bytes) :=
  match pqr.epoch, pqr.chainIndex with
  | some epoch, some chainIndex =>
    if 1 ≤ chainIndex then do
      let internalEpoch ← fromResult (spqrWireEpochToInternalEpoch epoch)
      deriveSPQRReceiveKey crypto chainIndex internalEpoch
    else pure none
  | _, _ => pure none

def spqrRecv (msgBytes : Option Bytes) : SpqrM (Option Bytes) :=
  if msgBytes.getD [] = [] then pure none
  else do
    let pqr ← fromResult (decodeSPQRWire (msgBytes.getD []))
    modify negotiateVersion
    receivePayload crypto field pqr
    receiveKey crypto pqr

end

/-! ## Two SPQR parties over a lossy network

Each side keeps the results of its sends. A delivery hands a side any message of the other one,
through the wire bytes. -/

/-- One side: its state, the results of its sends, and the positions in the other side's list
that have been delivered to it. -/
structure SpqrParty where
  state : SPQRState
  sent : List SPQRSendResult
  delivered : List ℕ

abbrev SpqrJoint := Side → SpqrParty

section Steps

variable (crypto : SpqrCrypto) (field : GaloisField16)

def SpqrParty.send (party : SpqrParty) (randomBytes : RandomBytes) : SpqrParty :=
  match spqrSend crypto field randomBytes party.state with
  | .ok result state => { party with state, sent := party.sent ++ [result] }
  | .error _ state => { party with state }

/-- The party after a call of `spqrRecv` on the message at a position. -/
def SpqrParty.receive (party : SpqrParty) (position : ℕ) (message : SPQRSendResult) :
    SpqrParty :=
  { party with
    state := finalState (spqrRecv crypto field (some message.msgBytes) party.state)
    delivered := position :: party.delivered }

inductive SpqrStep (joint : SpqrJoint) : SpqrJoint → Prop where
  | send (side : Side) (randomBytes : RandomBytes)
      (hrandom : ∀ length, (randomBytes length).length = length) :
      SpqrStep joint
        (Function.update joint side ((joint side).send crypto field randomBytes))
  | receive (side : Side) (position : ℕ) (message : SPQRSendResult)
      (hmessage : (joint side.other).sent[position]? = some message) :
      SpqrStep joint
        (Function.update joint side ((joint side).receive crypto field position message))

end Steps

structure PairOptions where
  rootKey : Bytes
  infoStrings : ResolvedSPQRInfoStrings := spqrInfoStrings
  ourKyberPrivateKey : Side → Option Bytes := fun _ => none
  limits : Side → ResolvedSPQRLimits := fun _ => spqrLimitsDefaults

def directionOf : Side → Direction
  | .alice => .a2b
  | .bob => .b2a

def PairOptions.forSide (options : PairOptions) (side : Side) : SPQRInitOptions where
  initialRootKey := options.rootKey
  direction := directionOf side
  ourKyberPrivateKey := options.ourKyberPrivateKey side
  infoStrings := options.infoStrings
  limits := options.limits side

def spqrSystem (crypto : SpqrCrypto) (field : GaloisField16)
    (initialState : SPQRInitOptions → Except ProtocolError SPQRState) (options : PairOptions) :
    TransitionSystem SpqrJoint where
  init joint := ∀ side, initialState (options.forSide side) = .ok (joint side).state ∧
    (joint side).sent = [] ∧ (joint side).delivered = []
  step := SpqrStep crypto field

structure SpqrCrypto.LawfulKem (crypto : SpqrCrypto) : Prop where
  publicKey_length : ∀ seed, (crypto.keygen seed).publicKey.length = mlkem768PublicKeySize
  privateKey_length : ∀ seed, (crypto.keygen seed).privateKey.length = kyber768SecretKeyBytes
  ciphertext_length : ∀ publicKey randomness,
    (crypto.encapsulate publicKey randomness).ciphertext.length = mlkem768CiphertextSize
  sharedSecret_length : ∀ publicKey randomness,
    (crypto.encapsulate publicKey randomness).sharedSecret.length = 32
  decapsulate_encapsulate : ∀ seed randomness,
    crypto.decapsulate (crypto.encapsulate (crypto.keygen seed).publicKey randomness).ciphertext
      (crypto.keygen seed).privateKey =
    (crypto.encapsulate (crypto.keygen seed).publicKey randomness).sharedSecret

end SignalProtocol.Spqr

import SignalProtocol.Rs.Codec
import SignalProtocol.Library.Results
import SignalProtocol.Library.Transition

/-! # ML-KEM Braid types

The eleven states, the messages, and the state of one agent. -/

namespace SignalProtocol.Braid

open Rs

def ekSeedSize : ℕ := 32

def ekVectorSize : ℕ := 1152

def dkSize : ℕ := 2400

def ct1Size : ℕ := 960

def ct2ComponentSize : ℕ := 128

def macSize : ℕ := 32

/-- Header size: `ek_seed`, `hek` and the MAC. -/
def headerSize : ℕ := ekSeedSize + 32 + macSize

/-- Size of the `ek_vector` transfer, which carries no MAC. -/
def ekSize : ℕ := ekVectorSize

def ct2Size : ℕ := ct2ComponentSize + macSize

def protocolInfo : String := "Signal_PQCKA_V1_MLKEM768"

inductive MLKEMBraidState where
  | keysUnsampled
  | keysSampled
  | headerSent
  | ct1Received
  | ekSentCt1Received
  | noHeaderReceived
  | headerReceived
  | ct1Sampled
  | ekReceivedCt1Sampled
  | ct1Acknowledged
  | ct2Sampled
  deriving DecidableEq

namespace MLKEMBraidState

/-- The name under which the source prints a state. -/
def name : MLKEMBraidState → String
  | keysUnsampled => "KeysUnsampled"
  | keysSampled => "KeysSampled"
  | headerSent => "HeaderSent"
  | ct1Received => "Ct1Received"
  | ekSentCt1Received => "EkSentCt1Received"
  | noHeaderReceived => "NoHeaderReceived"
  | headerReceived => "HeaderReceived"
  | ct1Sampled => "Ct1Sampled"
  | ekReceivedCt1Sampled => "EkReceivedCt1Sampled"
  | ct1Acknowledged => "Ct1Acknowledged"
  | ct2Sampled => "Ct2Sampled"

/-- Membership in `ALICE_STATES`: the key generator's states. -/
def isAliceState : MLKEMBraidState → Bool
  | keysUnsampled | keysSampled | headerSent | ct1Received | ekSentCt1Received => true
  | _ => false

/-- Membership in `BOB_STATES`: the encapsulator's states. -/
def isBobState (state : MLKEMBraidState) : Bool := !state.isAliceState

end MLKEMBraidState

inductive TransitionEvent where
  | keygen
  | receiveCt1
  | ct1Complete
  | receiveCt2
  | ct2Complete
  | headerComplete
  | sampleCt1
  | ekCompleteNoAck
  | ekCt1AckEkIncomplete
  | ekCt1AckEkComplete
  | ekCt1Ack
  | ekComplete
  | bobNewEpoch

def TransitionEvent.name : TransitionEvent → String
  | keygen => "KEYGEN"
  | receiveCt1 => "RECEIVE_CT1"
  | ct1Complete => "CT1_COMPLETE"
  | receiveCt2 => "RECEIVE_CT2"
  | ct2Complete => "CT2_COMPLETE"
  | headerComplete => "HEADER_COMPLETE"
  | sampleCt1 => "SAMPLE_CT1"
  | ekCompleteNoAck => "EK_COMPLETE_NO_ACK"
  | ekCt1AckEkIncomplete => "EKCT1_ACK_EK_INCOMPLETE"
  | ekCt1AckEkComplete => "EKCT1_ACK_EK_COMPLETE"
  | ekCt1Ack => "EKCT1_ACK"
  | ekComplete => "EK_COMPLETE"
  | bobNewEpoch => "BOB_NEW_EPOCH"

def stateTransitions : MLKEMBraidState → TransitionEvent → Option MLKEMBraidState
  | .keysUnsampled, .keygen => some .keysSampled
  | .keysSampled, .receiveCt1 => some .headerSent
  | .headerSent, .ct1Complete => some .ct1Received
  | .ct1Received, .receiveCt2 => some .ekSentCt1Received
  | .ekSentCt1Received, .ct2Complete => some .noHeaderReceived
  | .noHeaderReceived, .headerComplete => some .headerReceived
  | .headerReceived, .sampleCt1 => some .ct1Sampled
  | .ct1Sampled, .ekCompleteNoAck => some .ekReceivedCt1Sampled
  | .ct1Sampled, .ekCt1AckEkIncomplete => some .ct1Acknowledged
  | .ct1Sampled, .ekCt1AckEkComplete => some .ct2Sampled
  | .ekReceivedCt1Sampled, .ekCt1Ack => some .ct2Sampled
  | .ct1Acknowledged, .ekComplete => some .ct2Sampled
  | .ct2Sampled, .bobNewEpoch => some .keysUnsampled
  | _, _ => none

inductive MessageType where
  | none
  | hdr
  | ek
  /-- An `ek_vector` chunk that also acknowledges the first ciphertext component. -/
  | ekCt1Ack
  | ct1Ack
  | ct1
  | ct2
  deriving DecidableEq

structure MLKEMBraidMessage where
  epoch : ℕ
  type : MessageType
  chunkIndex : Option ℕ := none
  data : Option Bytes := none
  deriving DecidableEq

structure AuthenticatorState where
  rootKey : Bytes
  macKey : Bytes
  deriving DecidableEq

structure DecoderState where
  receivedChunks : ℕ
  requiredChunks : ℕ
  messageSize : ℕ
  chunks : OrderedMap ℕ Bytes
  deriving DecidableEq

/-- The cached encoder of a transfer. A store or a clone can turn the instance into an object
without methods, from which nothing is read. -/
inductive EncoderCache where
  | live (encoder : PolyEncoder)
  | plainObject
  deriving DecidableEq

structure EncoderState where
  data : Bytes
  currentChunk : ℕ
  totalChunks : ℕ
  isComplete : Bool
  encoder : Option EncoderCache
  deriving DecidableEq

structure MLKEMBraidAgentState where
  state : MLKEMBraidState
  epoch : ℕ
  auth : AuthenticatorState
  dk : Option Bytes := none
  ekSeed : Option Bytes := none
  ekVector : Option Bytes := none
  hek : Option Bytes := none
  encapsSecret : Option Bytes := none
  ct1 : Option Bytes := none
  ct2 : Option Bytes := none
  ct1ForMac : Option Bytes := none
  headerEncoder : Option EncoderState := none
  ekEncoder : Option EncoderState := none
  ct1Decoder : Option DecoderState := none
  ct2Decoder : Option DecoderState := none
  ct1Decoded : Option Bytes := none
  headerDecoder : Option DecoderState := none
  ekDecoder : Option DecoderState := none
  ct1Encoder : Option EncoderState := none
  ct2Encoder : Option EncoderState := none
  deriving DecidableEq

structure OutputKey where
  epoch : ℕ
  epochSecret : Bytes

structure SendResult where
  message : MLKEMBraidMessage
  sendingEpoch : ℕ
  outputKey : Option OutputKey := none

structure ReceiveResult where
  receivingEpoch : ℕ
  outputKey : Option OutputKey := none

structure KeyGenResult where
  dk : Bytes
  ekSeed : Bytes
  ekVector : Bytes
  hek : Bytes

structure Encaps1Result where
  encapsSecret : Bytes
  ct1 : Bytes
  sharedSecret : Bytes

/-! ## The cryptography under the state machine

The primitives are parameters. -/

structure BraidCrypto where
  keyGen : Bytes → KeyGenResult
  encaps1 : Bytes → Bytes → Bytes → Encaps1Result
  encaps2 : Bytes → Bytes → Bytes → Bytes → Except ProtocolError Bytes
  decaps : Bytes → Bytes → Bytes → Except ProtocolError Bytes
  computeHek : Bytes → Bytes → Bytes
  hmac : Bytes → Bytes → Bytes
  hkdf : Bytes → Bytes → Bytes → ℕ → Bytes

/-- `TextEncoder.encode` on the ASCII labels of the protocol. -/
def encodeText (text : String) : Bytes := text.toList.map fun character =>
  UInt8.ofNat character.toNat

def uint64ToBytes (value : ℕ) : Bytes :=
  (List.range 8).map fun index => UInt8.ofNat (value >>> (8 * (7 - index)))

section IncrementalKEM

variable (crypto : BraidCrypto)

def invalidSize (paramName : String) (code : BraidErrorCode) (actual expected : ℕ) :
    ProtocolError :=
  .braid code s!"Invalid {paramName} size: {actual}, expected {expected}"

def checkSize (paramName : String) (code : BraidErrorCode) (bytes : Bytes) (expected : ℕ) :
    Except ProtocolError Unit :=
  if bytes.length ≠ expected then throw (invalidSize paramName code bytes.length expected)
  else pure ()

def kemKeyGen (randomness : Bytes) : Except ProtocolError KeyGenResult := do
  checkSize "randomness" .invalidRandomnessSize randomness 64
  pure (crypto.keyGen randomness)

def kemEncaps1 (ekSeed hek randomness : Bytes) : Except ProtocolError Encaps1Result := do
  checkSize "ek_seed" .invalidEkSeedSize ekSeed ekSeedSize
  checkSize "hek" .invalidHekSize hek 32
  checkSize "randomness" .invalidRandomnessSize randomness 32
  pure (crypto.encaps1 ekSeed hek randomness)

def kemEncaps2 (encapsSecret ekSeed ekVector : Bytes) : Except ProtocolError Bytes := do
  checkSize "ek_vector" .invalidEkVectorSize ekVector ekVectorSize
  checkSize "ek_seed" .invalidEkSeedSize ekSeed ekSeedSize
  let hek := crypto.computeHek ekSeed ekVector
  crypto.encaps2 encapsSecret ekSeed ekVector hek

def kemDecaps (dk ct1 ct2 : Bytes) : Except ProtocolError Bytes := do
  checkSize "dk" .invalidDkSize dk dkSize
  checkSize "ct1" .invalidCt1Size ct1 ct1Size
  checkSize "ct2" .invalidCt2Size ct2 ct2ComponentSize
  crypto.decaps dk ct1 ct2

end IncrementalKEM

section KeyDerivation

variable (crypto : BraidCrypto)

def buildKdfInfo (domain : String) (epoch : ℕ) : Bytes :=
  encodeText protocolInfo ++ encodeText domain ++ uint64ToBytes epoch

def checkKdfSize (paramName : String) (bytes : Bytes) : Except ProtocolError Unit :=
  checkSize paramName .invalidSharedSecretSize bytes 32

def kdfAuth (rootKey updateKey : Bytes) (epoch : ℕ) : Except ProtocolError Bytes := do
  checkKdfSize "root_key" rootKey
  checkKdfSize "update_key" updateKey
  pure (crypto.hkdf (rootKey ++ updateKey) (List.replicate 32 0)
    (buildKdfInfo ":Authenticator Update" epoch) 64)

def kdfOk (sharedSecret : Bytes) (epoch : ℕ) : Except ProtocolError Bytes := do
  checkKdfSize "shared_secret" sharedSecret
  pure (crypto.hkdf sharedSecret (List.replicate 32 0) (buildKdfInfo ":SCKA Key" epoch) 32)

end KeyDerivation

namespace Authenticator

variable (crypto : BraidCrypto)

def update (auth : AuthenticatorState) (epoch : ℕ) (key : Bytes) :
    Except ProtocolError AuthenticatorState := do
  let derived ← kdfAuth crypto auth.rootKey key epoch
  pure { rootKey := derived.take 32, macKey := (derived.drop 32).take 32 }

/-- `initAuthenticatorState`: a zero root key, updated with the initial key at epoch 0. -/
def init (initialKey : Bytes) : Except ProtocolError AuthenticatorState :=
  update crypto { rootKey := List.replicate 32 0, macKey := List.replicate 32 0 } 0 initialKey

def buildMacInput (domain : String) (epoch : ℕ) (data : Bytes) : Bytes :=
  encodeText protocolInfo ++ encodeText domain ++ uint64ToBytes epoch ++ data

def macHdr (auth : AuthenticatorState) (epoch : ℕ) (header : Bytes) : Bytes :=
  crypto.hmac auth.macKey (buildMacInput ":ekheader" epoch header)

def macCt (auth : AuthenticatorState) (epoch : ℕ) (ciphertext : Bytes) : Bytes :=
  crypto.hmac auth.macKey (buildMacInput ":ciphertext" epoch ciphertext)

def macVerificationFailed (macType : String) (epoch : ℕ) : ProtocolError :=
  .braid .macVerificationFailed s!"{macType} MAC verification failed at epoch {epoch}"

def vfyHdr (auth : AuthenticatorState) (epoch : ℕ) (header expectedMac : Bytes) :
    Except ProtocolError Unit :=
  if macHdr crypto auth epoch header = expectedMac then pure ()
  else throw (macVerificationFailed "Header" epoch)

def vfyCt (auth : AuthenticatorState) (epoch : ℕ) (ciphertext expectedMac : Bytes) :
    Except ProtocolError Unit :=
  if macCt crypto auth epoch ciphertext = expectedMac then pure ()
  else throw (macVerificationFailed "Ciphertext" epoch)

end Authenticator

structure BraidCrypto.Lawful (crypto : BraidCrypto) : Prop where
  dk_length : ∀ randomness, (crypto.keyGen randomness).dk.length = dkSize
  ekSeed_length : ∀ randomness, (crypto.keyGen randomness).ekSeed.length = ekSeedSize
  ekVector_length : ∀ randomness, (crypto.keyGen randomness).ekVector.length = ekVectorSize
  hek_eq : ∀ randomness, (crypto.keyGen randomness).hek =
    crypto.computeHek (crypto.keyGen randomness).ekSeed (crypto.keyGen randomness).ekVector
  hek_length : ∀ ekSeed ekVector, (crypto.computeHek ekSeed ekVector).length = 32
  ct1_length : ∀ ekSeed hek randomness, (crypto.encaps1 ekSeed hek randomness).ct1.length = ct1Size
  sharedSecret_length : ∀ ekSeed hek randomness,
    (crypto.encaps1 ekSeed hek randomness).sharedSecret.length = 32
  /-- The second phase completes an encapsulation to a generated key, and decapsulation
  recovers the secret of the first phase. -/
  decaps_encaps : ∀ seed randomness,
    let keyPair := crypto.keyGen seed
    let encapsulation := crypto.encaps1 keyPair.ekSeed keyPair.hek randomness
    ∃ ct2, crypto.encaps2 encapsulation.encapsSecret keyPair.ekSeed keyPair.ekVector keyPair.hek =
        .ok ct2 ∧ ct2.length = ct2ComponentSize ∧
      crypto.decaps keyPair.dk encapsulation.ct1 ct2 = .ok encapsulation.sharedSecret
  hmac_length : ∀ key data, (crypto.hmac key data).length = macSize
  hkdf_length : ∀ ikm salt info length, (crypto.hkdf ikm salt info length).length = length

def padTo (length : ℕ) (bytes : Bytes) : Bytes := (bytes ++ List.replicate length 0).take length

@[simp] theorem padTo_length (length : ℕ) (bytes : Bytes) : (padTo length bytes).length = length := by
  simp [padTo]

theorem padTo_take {short long : ℕ} (hle : short ≤ long) (bytes : Bytes) :
    (padTo long (padTo short bytes)).take short = padTo short bytes := by
  rw [padTo, List.take_take, Nat.min_eq_left hle, List.take_left' (padTo_length short bytes)]

def plainCrypto : BraidCrypto where
  keyGen randomness := {
    dk := padTo dkSize randomness
    ekSeed := padTo ekSeedSize randomness
    ekVector := padTo ekVectorSize randomness
    hek := padTo 32 (padTo ekSeedSize randomness) }
  encaps1 _ _ randomness := {
    encapsSecret := randomness
    ct1 := padTo ct1Size (padTo 32 randomness)
    sharedSecret := padTo 32 randomness }
  encaps2 _ _ _ _ := .ok (padTo ct2ComponentSize [])
  decaps _ ct1 _ := .ok (ct1.take 32)
  computeHek ekSeed _ := padTo 32 ekSeed
  hmac key data := padTo macSize (key ++ data)
  hkdf ikm _ _ length := padTo length ikm

theorem plainCrypto_lawful : plainCrypto.Lawful where
  dk_length _ := padTo_length _ _
  ekSeed_length _ := padTo_length _ _
  ekVector_length _ := padTo_length _ _
  hek_eq _ := rfl
  hek_length _ _ := padTo_length _ _
  ct1_length _ _ _ := padTo_length _ _
  sharedSecret_length _ _ _ := padTo_length _ _
  decaps_encaps _ _ :=
    ⟨_, rfl, padTo_length _ _, congrArg Except.ok (padTo_take (by decide) _)⟩
  hmac_length _ _ := padTo_length _ _
  hkdf_length _ _ _ _ := padTo_length _ _

/-! ## The ML-KEM Braid state machine

`send` and `receive` of one agent. -/

open Results

abbrev AgentM := EStateM ProtocolError MLKEMBraidAgentState

/-- `createEncoderState`; `totalChunks` includes 30 percent of parity, rounded up. -/
def createEncoderState (data : Bytes) : Except ProtocolError EncoderState := do
  let encoder ← PolyEncoder.create data
  let totalChunks := chunkCount data.length
  pure {
    data
    currentChunk := 0
    totalChunks := (totalChunks * 13 + 9) / 10
    isComplete := false
    encoder := some (.live encoder) }

def createDecoderState (messageSize : ℕ) : DecoderState where
  receivedChunks := 0
  requiredChunks := chunkCount messageSize
  messageSize
  chunks := ∅

def restoreEncoder (state : EncoderState) : Except ProtocolError (PolyEncoder × EncoderState) :=
  match state.encoder with
  | some (.live cachedEncoder) => pure (cachedEncoder, state)
  | _ => do
      let encoder ← PolyEncoder.restore state.data state.currentChunk
      pure (encoder, { state with encoder := some (.live encoder) })

def encoderExhausted : ProtocolError :=
  .error "Braid encoder exhausted all GF(2^16) evaluation points"

def emitChunk (field : GaloisField16) (encoder : PolyEncoder) :
    EStateM ProtocolError EncoderState (Bytes × ℕ) := do
  let state ← get
  if encoder.hasMoreChunks then
    let (chunk, encoder) ← fromResult (encoder.nextChunk field)
    set { state with
      currentChunk := state.currentChunk + 1
      isComplete := encoder.isDataComplete
      encoder := some (.live encoder) }
    pure (chunk, state.currentChunk)
  else throw encoderExhausted

def getNextEncoderChunk (field : GaloisField16) :
    EStateM ProtocolError EncoderState (Bytes × ℕ) := do
  let (encoder, state) ← fromResult (restoreEncoder (← get))
  set state
  emitChunk field encoder

def addDecoderChunk (state : DecoderState) (chunkIndex : ℕ) (chunk : Bytes) :
    Except ProtocolError DecoderState := do
  assertBraidChunkIndex chunkIndex "Braid chunk index"
  if chunk.length ≠ chunkSize then
    throw (.error s!"Braid chunk must contain exactly {chunkSize} bytes")
  match state.chunks.get? chunkIndex with
  | some existing =>
    if existing = chunk then pure state
    else throw (.error s!"Conflicting duplicate Braid chunk at index {chunkIndex}")
  | none =>
    let chunks := state.chunks.set chunkIndex chunk
    pure { state with chunks, receivedChunks := chunks.size }

def isDecoderComplete (state : DecoderState) : Bool := state.requiredChunks ≤ state.chunks.size

def getDecodedMessage (field : GaloisField16) (state : DecoderState) :
    Except ProtocolError Bytes := do
  let decoder ← PolyDecoder.create state.messageSize
  let decoder ← state.chunks.entries.foldlM
    (fun (decoder : PolyDecoder) entry => decoder.addChunk entry.1 entry.2) decoder
  match ← decoder.message field with
  | some message => pure message
  | none => throw (.error "Failed to decode message")

def onEncoder {α : Type} (encoderOf : MLKEMBraidAgentState → Option EncoderState)
    (update : MLKEMBraidAgentState → EncoderState → MLKEMBraidAgentState) (missing : String)
    (computation : EStateM ProtocolError EncoderState α) : AgentM α := fun state =>
  match encoderOf state with
  | none => .error (.error missing) state
  | some encoder =>
    match computation encoder with
    | .ok value encoder => .ok value (update state encoder)
    | .error error encoder => .error error (update state encoder)

def invalidTransition (fromState : MLKEMBraidState) (event : String) : ProtocolError :=
  .braid .invalidStateTransition s!"Invalid transition from {fromState.name} on event {event}"

def epochMismatch (expected received : ℕ) : ProtocolError :=
  .braid .epochMismatch s!"Epoch mismatch: expected {expected}, received {received}"

def transition (event : TransitionEvent) : AgentM PUnit := do
  let state ← get
  match stateTransitions state.state event with
  | some nextState => modify fun state => { state with state := nextState }
  | none => throw (invalidTransition state.state event.name)

/-- `resetForNewEpoch`: only the epoch and the authenticator survive. -/
def resetForNewEpoch (state : MLKEMBraidAgentState) (newState : MLKEMBraidState) :
    MLKEMBraidAgentState where
  state := newState
  epoch := state.epoch
  auth := state.auth
  headerDecoder := if newState.isBobState then some (createDecoderState headerSize) else none

/-! ## Initial states -/

section Init

variable (crypto : BraidCrypto)

def initAlice (initialSharedSecret : Bytes) : Except ProtocolError MLKEMBraidAgentState := do
  let auth ← Authenticator.init crypto initialSharedSecret
  pure { state := .keysUnsampled, epoch := 1, auth }

def initBob (initialSharedSecret : Bytes) : Except ProtocolError MLKEMBraidAgentState := do
  let auth ← Authenticator.init crypto initialSharedSecret
  pure {
    state := .noHeaderReceived
    epoch := 1
    auth
    headerDecoder := some (createDecoderState headerSize) }

end Init

/-- The random source: the bytes it returns for a requested length. -/
abbrev RandomBytes := ℕ → Bytes

section Send

variable (crypto : BraidCrypto) (field : GaloisField16)

def sendChunk (encoderOf : MLKEMBraidAgentState → Option EncoderState)
    (update : MLKEMBraidAgentState → EncoderState → MLKEMBraidAgentState) (missing : String)
    (type : MessageType) : AgentM SendResult := do
  let (chunk, index) ← onEncoder encoderOf update missing (getNextEncoderChunk field)
  let state ← get
  pure {
    message := { epoch := state.epoch, type, chunkIndex := some index, data := some chunk }
    sendingEpoch := state.epoch }

def aliceSendHeaderChunk : AgentM SendResult :=
  sendChunk field (·.headerEncoder) (fun state encoder => { state with headerEncoder := encoder })
    "No header encoder" .hdr

def aliceSendEkChunk (type : MessageType) : AgentM SendResult :=
  sendChunk field (·.ekEncoder) (fun state encoder => { state with ekEncoder := encoder })
    "No ek encoder" type

def bobSendCt1Chunk : AgentM SendResult :=
  sendChunk field (·.ct1Encoder) (fun state encoder => { state with ct1Encoder := encoder })
    "No CT1 encoder" .ct1

def bobSendFromCt2Sampled : AgentM SendResult :=
  sendChunk field (·.ct2Encoder) (fun state encoder => { state with ct2Encoder := encoder })
    "No CT2 encoder" .ct2

def sendBare (type : MessageType) : AgentM SendResult := do
  let state ← get
  pure { message := { epoch := state.epoch, type }, sendingEpoch := state.epoch }

def aliceSendFromKeysUnsampled (randomBytes : RandomBytes) : AgentM SendResult := do
  let keyPair ← fromResult (kemKeyGen crypto (randomBytes 64))
  modify fun state => { state with
    dk := keyPair.dk
    ekSeed := keyPair.ekSeed
    ekVector := keyPair.ekVector
    hek := keyPair.hek }
  let state ← get
  let header := keyPair.ekSeed ++ keyPair.hek
  let headerMac := Authenticator.macHdr crypto state.auth state.epoch header
  let headerEncoder ← fromResult (createEncoderState (header ++ headerMac))
  modify fun state => { state with headerEncoder := some headerEncoder }
  let ekEncoder ← fromResult (createEncoderState keyPair.ekVector)
  modify fun state => { state with ekEncoder := some ekEncoder }
  transition .keygen
  aliceSendHeaderChunk field

def sendAlice (randomBytes : RandomBytes) : AgentM SendResult := do
  let state ← get
  match state.state with
  | .keysUnsampled => aliceSendFromKeysUnsampled crypto field randomBytes
  | .keysSampled => aliceSendHeaderChunk field
  | .headerSent => aliceSendEkChunk field .ek
  | .ct1Received => aliceSendEkChunk field .ekCt1Ack
  | .ekSentCt1Received => sendBare .ct1Ack
  | other => throw (invalidTransition other "SEND")

/-- The guarded part of `bobSendFromHeaderReceived`. -/
def bobSampleCt1 (ekSeed hek : Bytes) (randomBytes : RandomBytes) : AgentM SendResult := do
  let encapsulation ← fromResult (kemEncaps1 crypto ekSeed hek (randomBytes 32))
  modify fun state => { state with
    encapsSecret := encapsulation.encapsSecret
    ct1 := encapsulation.ct1 }
  let ct1Encoder ← fromResult (createEncoderState encapsulation.ct1)
  modify fun state => { state with
    ct1Encoder := some ct1Encoder
    ct1ForMac := encapsulation.ct1 }
  let state ← get
  let outputKeyBytes ← fromResult (kdfOk crypto encapsulation.sharedSecret state.epoch)
  let auth ← fromResult (Authenticator.update crypto state.auth state.epoch outputKeyBytes)
  modify fun state => { state with auth }
  transition .sampleCt1
  let result ← bobSendCt1Chunk field
  let state ← get
  pure { result with outputKey := some { epoch := state.epoch, epochSecret := outputKeyBytes } }

/-- What the `finally` block clears when the call fails. -/
def clearEncapsulation (state : MLKEMBraidAgentState) : MLKEMBraidAgentState :=
  { state with encapsSecret := none, ct1ForMac := none, ct1 := none, ct1Encoder := none }

def bobSendFromHeaderReceived (randomBytes : RandomBytes) : AgentM SendResult := fun state =>
  match state.ekSeed, state.hek with
  | some ekSeed, some hek =>
    match bobSampleCt1 crypto field ekSeed hek randomBytes state with
    | .ok result state => .ok result state
    | .error error state => .error error (clearEncapsulation state)
  | _, _ => .error (.error "Missing ek_seed or hek") state

def sendBob (randomBytes : RandomBytes) : AgentM SendResult := do
  let state ← get
  match state.state with
  | .noHeaderReceived => sendBare .none
  | .headerReceived => bobSendFromHeaderReceived crypto field randomBytes
  | .ct1Sampled => bobSendCt1Chunk field
  | .ekReceivedCt1Sampled => bobSendCt1Chunk field
  | .ct1Acknowledged => sendBare .none
  | .ct2Sampled => bobSendFromCt2Sampled field
  | other => throw (invalidTransition other "SEND")

def send (randomBytes : RandomBytes) : AgentM SendResult := do
  let state ← get
  if state.state.isAliceState then sendAlice crypto field randomBytes
  else sendBob crypto field randomBytes

end Send

section Receive

variable (crypto : BraidCrypto) (field : GaloisField16)

def addMessageChunk (decoder : DecoderState) (message : MLKEMBraidMessage) (data : Bytes) :
    Except ProtocolError DecoderState :=
  addDecoderChunk decoder (message.chunkIndex.getD decoder.receivedChunks) data

def finishCt1 (decoder : DecoderState) : AgentM PUnit := do
  if isDecoderComplete decoder then
    let ct1 ← fromResult (getDecodedMessage field decoder)
    modify fun state => { state with ct1Decoded := some ct1 }
    transition .ct1Complete
  else pure ⟨⟩

/-- A chunk of the first ciphertext component, in `KeysSampled` or `HeaderSent`. -/
def receiveCt1 (message : MLKEMBraidMessage) (data : Bytes) : AgentM PUnit := do
  let state ← get
  let receivedFirstCt1Chunk := state.state = .keysSampled
  let decoder := state.ct1Decoder.getD (createDecoderState ct1Size)
  modify fun state => { state with ct1Decoder := some decoder }
  let decoder ← fromResult (addMessageChunk decoder message data)
  modify fun state => { state with ct1Decoder := some decoder }
  if receivedFirstCt1Chunk then transition .receiveCt1
  finishCt1 field decoder

def completeCt2 (message : MLKEMBraidMessage) (decoder : DecoderState) : AgentM OutputKey := do
  let state ← get
  match state.ct1Decoded with
  | none => throw (.error "CT1 not decoded - state corruption")
  | some ct1 =>
    let ct2Data ← fromResult (getDecodedMessage field decoder)
    let ct2 := ct2Data.take ct2ComponentSize
    let combinedMac := ct2Data.drop ct2ComponentSize
    let combined := ct1 ++ ct2
    let sharedSecret ← fromResult (kemDecaps crypto (state.dk.getD []) ct1 ct2)
    let outputKeyBytes ← fromResult (kdfOk crypto sharedSecret state.epoch)
    let auth ← fromResult (Authenticator.update crypto state.auth state.epoch outputKeyBytes)
    modify fun state => { state with auth }
    fromResult (Authenticator.vfyCt crypto auth message.epoch combined combinedMac)
    transition .ct2Complete
    modify fun state => resetForNewEpoch { state with epoch := state.epoch + 1 } state.state
    pure { epoch := state.epoch, epochSecret := outputKeyBytes }

def finishCt2 (message : MLKEMBraidMessage) (decoder : DecoderState) :
    AgentM (Option OutputKey) := do
  let state ← get
  if isDecoderComplete decoder ∧ state.state = .ekSentCt1Received then
    let outputKey ← completeCt2 crypto field message decoder
    pure (some outputKey)
  else pure none

/-- A chunk of the second ciphertext transfer, in `Ct1Received` or `EkSentCt1Received`; runs on
a clone. -/
def receiveCt2 (message : MLKEMBraidMessage) (data : Bytes) : AgentM (Option OutputKey) := do
  let state ← get
  let receivedFirstCt2Chunk := state.state = .ct1Received
  let decoder ← fromResult
    (addMessageChunk (state.ct2Decoder.getD (createDecoderState ct2Size)) message data)
  modify fun state => { state with ct2Decoder := some decoder }
  if receivedFirstCt2Chunk then transition .receiveCt2
  finishCt2 crypto field message decoder

def receiveAlice (message : MLKEMBraidMessage) : AgentM ReceiveResult := do
  let state ← get
  if message.epoch < state.epoch then pure { receivingEpoch := message.epoch }
  else if state.epoch < message.epoch then throw (epochMismatch state.epoch message.epoch)
  else
    match message.type, message.data with
    | .ct1, some data =>
      if state.state = .keysSampled ∨ state.state = .headerSent then
        receiveCt1 field message data
        pure { receivingEpoch := message.epoch }
      else pure { receivingEpoch := message.epoch }
    | .ct2, some data =>
      if state.state = .ct1Received ∨ state.state = .ekSentCt1Received then
        let outputKey ← onCandidate (receiveCt2 crypto field message data)
        pure { receivingEpoch := message.epoch, outputKey }
      else pure { receivingEpoch := message.epoch }
    | _, _ => pure { receivingEpoch := message.epoch }

/-- A header chunk in `NoHeaderReceived`; runs on a clone. -/
def receiveHeader (message : MLKEMBraidMessage) (data : Bytes) : AgentM PUnit := do
  let state ← get
  let decoder ← fromResult
    (addMessageChunk (state.headerDecoder.getD (createDecoderState headerSize)) message data)
  modify fun state => { state with headerDecoder := some decoder }
  if isDecoderComplete decoder then
    let headerData ← fromResult (getDecodedMessage field decoder)
    let header := headerData.take (ekSeedSize + 32)
    let headerMac := headerData.drop (ekSeedSize + 32)
    fromResult (Authenticator.vfyHdr crypto state.auth message.epoch header headerMac)
    modify fun state => { state with
      ekSeed := some (header.take ekSeedSize)
      hek := some (header.drop ekSeedSize) }
    transition .headerComplete

def bobSampleCt2 : AgentM PUnit := do
  let state ← get
  match state.encapsSecret, state.ekSeed, state.ekVector with
  | some encapsSecret, some ekSeed, some ekVector =>
    modify fun state => { state with encapsSecret := none }
    let ct2 ← fromResult (kemEncaps2 crypto encapsSecret ekSeed ekVector)
    modify fun state => { state with ct2 := some ct2 }
    match state.ct1ForMac with
    | none => throw (.error "CT1 not stored for combined MAC - state corruption")
    | some ct1ForMac =>
      let combinedMac := Authenticator.macCt crypto state.auth state.epoch (ct1ForMac ++ ct2)
      let ct2Encoder ← fromResult (createEncoderState (ct2 ++ combinedMac))
      modify fun state => { state with ct2Encoder := some ct2Encoder, ct1ForMac := none }
  | _, _, _ => throw (.error "Missing encaps_secret, ek_seed, or ek_vector")

def ekHashBindingFailed (epoch : ℕ) : ProtocolError :=
  .braid .ekHashBindingFailed
    s!"EK hash binding verification failed at epoch {epoch}: SHA3-256(ek_seed || ek_vector) != hek"

def verifyEkHashBinding (ekSeed ekVector expectedHek : Bytes) (epoch : ℕ) :
    Except ProtocolError Unit :=
  if crypto.computeHek ekSeed ekVector = expectedHek then pure ()
  else throw (ekHashBindingFailed epoch)

/-- An `ek_vector` chunk in `Ct1Sampled` or `Ct1Acknowledged`; runs on a clone. -/
def receiveEk (message : MLKEMBraidMessage) (data : Bytes) : AgentM PUnit := do
  let state ← get
  let decoder ← fromResult
    (addMessageChunk (state.ekDecoder.getD (createDecoderState ekSize)) message data)
  modify fun state => { state with ekDecoder := some decoder }
  if isDecoderComplete decoder then
    let ekVector ← fromResult (getDecodedMessage field decoder)
    fromResult (verifyEkHashBinding crypto (state.ekSeed.getD []) ekVector (state.hek.getD [])
      message.epoch)
    modify fun state => { state with ekVector := some ekVector }
    if state.state = .ct1Sampled then
      if message.type = .ekCt1Ack then
        transition .ekCt1AckEkComplete
        bobSampleCt2 crypto
      else transition .ekCompleteNoAck
    else if state.state = .ct1Acknowledged then
      transition .ekComplete
      bobSampleCt2 crypto
  else if message.type = .ekCt1Ack ∧ state.state = .ct1Sampled then
    transition .ekCt1AckEkIncomplete

def receiveBobCurrent (message : MLKEMBraidMessage) : AgentM PUnit := do
  let state ← get
  match message.type with
  | .hdr =>
    match message.data with
    | some data =>
      if state.state = .noHeaderReceived then
        onCandidate (receiveHeader crypto field message data)
      else pure ⟨⟩
    | none => pure ⟨⟩
  | .ek | .ekCt1Ack =>
    if state.state = .ekReceivedCt1Sampled ∧ message.type = .ekCt1Ack then
      transition .ekCt1Ack
      bobSampleCt2 crypto
    else
      match message.data with
      | some data =>
        if state.state = .ct1Sampled ∨ state.state = .ct1Acknowledged then
          onCandidate (receiveEk crypto field message data)
        else pure ⟨⟩
      | none => pure ⟨⟩
  | .ct1Ack =>
    if state.state = .ekReceivedCt1Sampled then
      transition .ekCt1Ack
      bobSampleCt2 crypto
    else pure ⟨⟩
  | _ => pure ⟨⟩

def receiveBob (message : MLKEMBraidMessage) : AgentM ReceiveResult := do
  let state ← get
  if message.epoch < state.epoch then pure { receivingEpoch := message.epoch }
  -- A message of the next epoch triggers the role swap and is not processed further.
  else if state.state = .ct2Sampled ∧ message.epoch = state.epoch + 1 then
    transition .bobNewEpoch
    modify fun state => resetForNewEpoch { state with epoch := state.epoch + 1 } state.state
    pure { receivingEpoch := message.epoch }
  else if state.epoch < message.epoch then throw (epochMismatch state.epoch message.epoch)
  else
    receiveBobCurrent crypto field message
    pure { receivingEpoch := message.epoch }

def receive (message : MLKEMBraidMessage) : AgentM ReceiveResult := do
  let state ← get
  if state.state.isAliceState then receiveAlice crypto field message
  else receiveBob crypto field message

end Receive

/-! ## Two agents over a lossy network

Each side keeps every message it has sent. -/

open Rs

inductive Side where
  | alice
  | bob
  deriving DecidableEq

def Side.other : Side → Side
  | alice => bob
  | bob => alice

variable (side : Side)

@[simp] theorem Side.other_other : side.other.other = side := by
  cases side <;> rfl

@[simp] theorem Side.other_ne : side.other ≠ side := by
  cases side <;> decide

theorem Side.eq_or_eq_other (side reference : Side) :
    side = reference ∨ side = reference.other := by
  cases side <;> cases reference <;> decide

structure Participant where
  agent : MLKEMBraidAgentState
  sent : List MLKEMBraidMessage
  keys : List OutputKey

abbrev Joint := Side → Participant

section Steps

variable (crypto : BraidCrypto) (field : GaloisField16)

def Participant.send (participant : Participant) (randomBytes : RandomBytes) : Participant :=
  match Braid.send crypto field randomBytes participant.agent with
  | .ok result agent =>
    { agent
      sent := participant.sent ++ [result.message]
      keys := participant.keys ++ result.outputKey.toList }
  | .error _ agent => { participant with agent }

/-- The participant after a call of `Receive`. -/
def Participant.receive (participant : Participant) (message : MLKEMBraidMessage) : Participant :=
  match Braid.receive crypto field message participant.agent with
  | .ok result agent =>
    { participant with agent, keys := participant.keys ++ result.outputKey.toList }
  | .error _ agent => { participant with agent }

inductive JointStep (joint : Joint) : Joint → Prop where
  | send (side : Side) (randomBytes : RandomBytes)
      (hrandom : ∀ length, (randomBytes length).length = length) :
      JointStep joint
        (Function.update joint side ((joint side).send crypto field randomBytes))
  | receive (side : Side) (message : MLKEMBraidMessage)
      (hmessage : message ∈ (joint side.other).sent) :
      JointStep joint (Function.update joint side ((joint side).receive crypto field message))

def JointStart (secret : Bytes) (joint : Joint) : Prop :=
  initAlice crypto secret = .ok (joint .alice).agent ∧
    initBob crypto secret = .ok (joint .bob).agent ∧
    ∀ side, (joint side).sent = [] ∧ (joint side).keys = []

def jointSystem (secret : Bytes) : TransitionSystem Joint where
  init := JointStart crypto secret
  step := JointStep crypto field

end Steps

end SignalProtocol.Braid

import Mathlib.Data.List.Sort
import SignalProtocol.Proto.Primitives

/-! # Sender-key store

The states of each sender, current and previous, and the message keys that the receiver skipped. -/

namespace SignalProtocol.SenderKeys

structure SenderKeyState where
  senderKeyId : String
  senderKeyVersion : String
  chainId : ℕ
  generation : ℕ
  chainKey : Bytes
  signatureKey : Bytes
  publicSignatureKey : Bytes
  chainIndex : ℕ
  createdAt : ℕ
  deriving DecidableEq

structure SenderKeyAddress where
  groupId : String
  userId : String
  deviceId : ℕ
  deriving DecidableEq

structure SkippedKeyId where
  address : SenderKeyAddress
  senderKeyId : String
  chainIndex : ℕ
  deriving DecidableEq

structure SenderMessageKey where
  cipherKey : Bytes
  iv : Bytes
  deriving DecidableEq

structure SkippedSenderKey where
  senderKeyId : String
  chainIndex : ℕ
  messageKey : SenderMessageKey
  deriving DecidableEq

structure SenderKeyReceiveCommit where
  maxSkippedKeys : ℕ := 0
  skippedKeys : List SkippedSenderKey := []
  consumedSkippedKey : Option (String × ℕ) := none

abbrev SkippedSenderKeys := OrderedMap SkippedKeyId SenderMessageKey

/-- `getSenderKey` reads `senderKeys`. In every store but the memory one it is the head of the
record. -/
structure SenderKeyStore where
  senderKeys : OrderedMap SenderKeyAddress SenderKeyState
  senderKeyRecords : OrderedMap SenderKeyAddress (List SenderKeyState)
  skippedSenderKeys : SkippedSenderKeys

/-- The memory store writes a single state apart from the record; the other stores write it as a
record of one state. -/
inductive SenderKeyAdapter where
  | memory
  | keyValue

def skippedKeysOf (address : SenderKeyAddress) (skippedKeys : SkippedSenderKeys) :
    List SkippedKeyId :=
  (skippedKeys.keys.filter fun key => key.address = address).mergeSort
    fun first second => first.chainIndex ≤ second.chainIndex

def storeSkippedKey (address : SenderKeyAddress) (maxSkippedKeys : ℕ)
    (skippedKeys : SkippedSenderKeys) (skipped : SkippedSenderKey) : SkippedSenderKeys :=
  let existing := skippedKeysOf address skippedKeys
  let count := existing.length - (maxSkippedKeys - 1)
  let kept := (existing.take count).foldl OrderedMap.erase skippedKeys
  kept.set ⟨address, skipped.senderKeyId, skipped.chainIndex⟩ skipped.messageKey

def commitSkippedKeys (address : SenderKeyAddress) (receive : SenderKeyReceiveCommit)
    (skippedKeys : SkippedSenderKeys) : SkippedSenderKeys :=
  let stored :=
    receive.skippedKeys.foldl (storeSkippedKey address receive.maxSkippedKeys) skippedKeys
  match receive.consumedSkippedKey with
  | some consumed => stored.erase ⟨address, consumed.1, consumed.2⟩
  | none => stored

namespace SenderKeyStore

def empty : SenderKeyStore := ⟨∅, ∅, ∅⟩

variable (store : SenderKeyStore) (address : SenderKeyAddress)

def getSenderKey : Option SenderKeyState := store.senderKeys.get? address

def getSenderKeyRecord : Option (List SenderKeyState) :=
  match store.senderKeyRecords.get? address with
  | some record => some record
  | none => (store.getSenderKey address).map fun current => [current]

def storeSenderKeyRecord (states : List SenderKeyState) (receive : SenderKeyReceiveCommit := {}) :
    SenderKeyStore :=
  match states with
  | [] => store
  | current :: _ => {
      senderKeys := store.senderKeys.set address current
      senderKeyRecords := store.senderKeyRecords.set address states
      skippedSenderKeys := commitSkippedKeys address receive store.skippedSenderKeys }

def storeSenderKey (adapter : SenderKeyAdapter) (state : SenderKeyState) : SenderKeyStore :=
  match adapter with
  | .memory => { store with senderKeys := store.senderKeys.set address state }
  | .keyValue => store.storeSenderKeyRecord address [state]

def getSkippedSenderKey (senderKeyId : String) (chainIndex : ℕ) : Option SenderMessageKey :=
  store.skippedSenderKeys.get? ⟨address, senderKeyId, chainIndex⟩

end SenderKeyStore

/-! ## SenderKeyManager

The operations of a sender and of a receiver on the store. A failed operation leaves the store as
it was when it failed. -/

open Proto Results

def senderKeyFormat : String := "v2"

def senderKeyMessageVersion : UInt8 := 0x44

def maxSenderKeyStates : ℕ := 5

/-- The primitives of the crypto layer. Keys are bytes, where the source has base64 text. -/
structure SenderKeyCrypto where
  hmac : Bytes → Bytes → Bytes
  hkdf : Bytes → Bytes → Bytes → ℕ → Bytes
  aesCbcEncrypt : Bytes → Bytes → Bytes → Bytes
  aesCbcDecrypt : Bytes → Bytes → Bytes → Except ProtocolError Bytes
  sign : Bytes → Bytes → Bytes
  verify : Bytes → Bytes → Bytes → Bool

structure SenderKeyManager where
  crypto : SenderKeyCrypto
  storage : SenderKeyAdapter
  hkdfInfoString : String
  maxChainAdvance : ℕ
  maxSkippedKeys : ℕ
  maxSenderKeyAge : ℕ

structure FreshSenderKey where
  senderKeyId : String
  chainKey : Bytes
  privateKey : Bytes
  publicKey : Bytes

structure SenderKeyDistributionMessage where
  senderKeyVersion : String
  senderKeyId : String
  chainId : ℕ
  generation : ℕ
  chainIndex : ℕ
  chainKey : Bytes
  publicSignatureKey : Bytes

structure EncryptedGroupMessage where
  senderKeyId : String
  chainIndex : ℕ
  ciphertext : Bytes
  signature : Bytes

inductive OwnSenderKeyExpiry where
  | noCreationTime
  | aged (ageMs : ℕ)

def ownSenderKeyExpiry (state : SenderKeyState) (maxSenderKeyAge now : ℕ) :
    Option OwnSenderKeyExpiry :=
  if state.signatureKey.isEmpty then none
  else if state.createdAt = 0 then some .noCreationTime
  else if maxSenderKeyAge < now - state.createdAt then some (.aged (now - state.createdAt))
  else none

def assertSenderKeyVersion (senderKeyVersion : String) : Except ProtocolError Unit :=
  if senderKeyVersion ≠ senderKeyFormat then
    throw (.error ("Unsupported sender-key format. Reset group sender-key state and " ++
      "redistribute keys."))
  else pure ()

def charCodes (char : Char) : List ℕ :=
  if char.toNat < 0x10000 then [char.toNat]
  else
    let offset := char.toNat - 0x10000
    [0xd800 ||| offset >>> 10, 0xdc00 ||| (offset &&& 0x3ff)]

def generateChainId (senderKeyId : String) : ℕ :=
  (senderKeyId.toList.flatMap charCodes).foldl
    (fun hash code => (hash ^^^ code) * 0x01000193 % 2 ^ 32) 0x811c9dc5

/-- The text of the bytes when it encodes back to them, and their base64 otherwise. -/
def encodeLosslessPlaintext (plaintextBytes : Bytes) : String :=
  let text := utf8Decode plaintextBytes
  if stringToBytes text = plaintextBytes then text else bytesToBase64 plaintextBytes

def currentDistribution (state : SenderKeyState) :
    Except ProtocolError SenderKeyDistributionMessage := do
  assertSenderKeyVersion state.senderKeyVersion
  pure {
    senderKeyVersion := senderKeyFormat
    senderKeyId := state.senderKeyId
    chainId := state.chainId
    generation := state.generation
    chainIndex := state.chainIndex
    chainKey := state.chainKey
    publicSignatureKey := state.publicSignatureKey }

def serializeForSigning (chainIndex : ℕ) (ciphertext : Bytes) (senderKeyId : String)
    (chainId : ℕ) : Except ProtocolError Bytes := do
  let protoBytes ← encodeSenderKeyMessage {
    distributionUuid := if senderKeyId = "" then none else some (stringToBytes senderKeyId)
    chainId
    iteration := chainIndex
    ciphertext }
  pure (senderKeyMessageVersion :: protoBytes)

namespace SenderKeyManager

abbrev ManagerM := EStateM ProtocolError SenderKeyStore

variable (manager : SenderKeyManager)

def deriveMessageKey (chainKey : Bytes) : SenderMessageKey :=
  let seed := manager.crypto.hmac chainKey [0x01]
  let info := stringToBytes manager.hkdfInfoString
  let derived := manager.crypto.hkdf seed (List.replicate 32 0) info 48
  { iv := derived.take 16, cipherKey := (derived.drop 16).take 32 }

def advanceChainKey (chainKey : Bytes) : Bytes := manager.crypto.hmac chainKey [0x02]

def advance (state : SenderKeyState) : SenderKeyState :=
  { state with
    chainKey := manager.advanceChainKey state.chainKey
    chainIndex := state.chainIndex + 1 }

def loadPreviousStates (store : SenderKeyStore) (address : SenderKeyAddress) :
    List SenderKeyState :=
  match store.getSenderKeyRecord address with
  | some record => (record.take maxSenderKeyStates).drop 1
  | none => []

def newState (fresh : FreshSenderKey) (generation now : ℕ) : SenderKeyState where
  senderKeyId := fresh.senderKeyId
  senderKeyVersion := senderKeyFormat
  chainId := generateChainId fresh.senderKeyId
  generation := generation
  chainKey := fresh.chainKey
  signatureKey := fresh.privateKey
  publicSignatureKey := fresh.publicKey
  chainIndex := 0
  createdAt := now

def createSenderKey (address : SenderKeyAddress) (fresh : FreshSenderKey) (now : ℕ) :
    ManagerM SenderKeyDistributionMessage := do
  let state := newState fresh 1 now
  modify fun store => store.storeSenderKeyRecord address [state]
  fromResult (currentDistribution state)

def receivedState (message : SenderKeyDistributionMessage) (now : ℕ) : SenderKeyState where
  senderKeyId := message.senderKeyId
  senderKeyVersion := senderKeyFormat
  chainId := message.chainId
  generation := message.generation
  chainKey := message.chainKey
  signatureKey := []
  publicSignatureKey := message.publicSignatureKey
  chainIndex := message.chainIndex
  createdAt := now

def processSenderKeyDistribution (address : SenderKeyAddress)
    (message : SenderKeyDistributionMessage) (now : ℕ) : ManagerM Unit := do
  fromResult (assertSenderKeyVersion message.senderKeyVersion)
  let store ← get
  let state := receivedState message now
  let previous := loadPreviousStates store address
  match store.getSenderKey address with
  | none => modify fun store => store.storeSenderKeyRecord address [state]
  | some existing => do
      fromResult (assertSenderKeyVersion existing.senderKeyVersion)
      if existing.senderKeyId = message.senderKeyId then
        -- The same key: only a later generation replaces the state, in place.
        if message.generation ≤ existing.generation then pure ()
        else modify fun store => store.storeSenderKeyRecord address (state :: previous)
      else if previous.any fun state => state.senderKeyId = message.senderKeyId then pure ()
      else
        let prev := (existing :: previous).take (maxSenderKeyStates - 1)
        modify fun store => store.storeSenderKeyRecord address (state :: prev)

def rotateSenderKey (address : SenderKeyAddress) (fresh : FreshSenderKey) (now : ℕ) :
    ManagerM SenderKeyDistributionMessage := do
  let store ← get
  match store.getSenderKey address with
  | none => do
      let state := newState fresh 1 now
      modify fun store => store.storeSenderKeyRecord address [state]
      fromResult (currentDistribution state)
  | some oldState => do
      fromResult (assertSenderKeyVersion oldState.senderKeyVersion)
      let state := newState fresh (oldState.generation + 1) now
      let prev := (oldState :: loadPreviousStates store address).take (maxSenderKeyStates - 1)
      modify fun store => store.storeSenderKeyRecord address (state :: prev)
      fromResult (currentDistribution state)

def assertUsable (state : SenderKeyState) (now : ℕ) : Except ProtocolError Unit :=
  match ownSenderKeyExpiry state manager.maxSenderKeyAge now with
  | some .noCreationTime =>
    throw (.encryption .senderKeyExpired ("Sender key has no usable creation time, so its " ++
      "age cannot be checked. Auto-rotation required."))
  | some (.aged ageMs) =>
    throw (.encryption .senderKeyExpired
      (s!"Sender key expired after {ageMs / 86400000} days " ++
        s!"(max: {manager.maxSenderKeyAge / 86400000} days). Auto-rotation required."))
  | none =>
    if 0xfffffffe ≤ state.chainIndex then
      throw (.encryption .encryptionFailed
        "Sender key chain index overflow - key rotation required")
    else pure ()

def encryptGroupMessage (address : SenderKeyAddress) (plaintextBytes : Bytes) (now : ℕ) :
    ManagerM Bytes := do
  let store ← get
  match store.getSenderKey address with
  | none => throw (.error "SENDER_KEY_NOT_FOUND: No sender key for this group")
  | some state => do
      fromResult (assertSenderKeyVersion state.senderKeyVersion)
      fromResult (manager.assertUsable state now)
      let messageKey := manager.deriveMessageKey state.chainKey
      let ciphertext :=
        manager.crypto.aesCbcEncrypt messageKey.cipherKey messageKey.iv plaintextBytes
      let protoBytes ← fromResult (encodeSenderKeyMessage {
        distributionUuid := stringToBytes state.senderKeyId
        chainId := state.chainId
        iteration := state.chainIndex
        ciphertext })
      let signature := manager.crypto.sign state.signatureKey (senderKeyVersionByte :: protoBytes)
      modify fun store => store.storeSenderKey address manager.storage (manager.advance state)
      fromResult (frameSenderKeyMessage protoBytes signature)

def stageSkippedKeys : ℕ → SenderKeyState → List SkippedSenderKey × SenderKeyState
  | 0, state => ([], state)
  | gap + 1, state =>
    let staged := stageSkippedKeys gap (manager.advance state)
    (⟨state.senderKeyId, state.chainIndex, manager.deriveMessageKey state.chainKey⟩ :: staged.1,
      staged.2)

def verifySignature (state : SenderKeyState) (message : EncryptedGroupMessage) :
    Except ProtocolError Unit := do
  let messageToVerify ←
    serializeForSigning message.chainIndex message.ciphertext message.senderKeyId state.chainId
  if manager.crypto.verify state.publicSignatureKey messageToVerify message.signature then pure ()
  else throw (.error "INVALID_SIGNATURE: Message signature verification failed")

def assertChainGap (state : SenderKeyState) (chainIndex : ℕ) : Except ProtocolError Unit :=
  let chainGap := chainIndex - state.chainIndex
  if manager.maxChainAdvance < chainGap then
    throw (.error (s!"CHAIN_GAP_TOO_LARGE: Message chain index {chainIndex} exceeds current " ++
      s!"{state.chainIndex} by {chainGap} (max: {manager.maxChainAdvance}). " ++
      "Request sender key redistribution."))
  else pure ()

structure OpenedMessage where
  plaintextBytes : Bytes
  skippedKeys : List SkippedSenderKey
  state : SenderKeyState

def openMessage (state : SenderKeyState) (message : EncryptedGroupMessage) :
    Except ProtocolError OpenedMessage := do
  manager.assertChainGap state message.chainIndex
  let staged := manager.stageSkippedKeys (message.chainIndex - state.chainIndex) state
  let messageKey := manager.deriveMessageKey staged.2.chainKey
  let plaintextBytes ←
    manager.crypto.aesCbcDecrypt messageKey.cipherKey messageKey.iv message.ciphertext
  pure ⟨plaintextBytes, staged.1, manager.advance staged.2⟩

def decryptWithSkippedKey (address : SenderKeyAddress) (message : EncryptedGroupMessage) :
    ManagerM String := do
  let store ← get
  match store.getSkippedSenderKey address message.senderKeyId message.chainIndex with
  | none =>
    throw (.encryption .messageDuplicate
      (s!"Duplicate message at chain index {message.chainIndex} " ++
        "(already consumed or beyond skipped key window)"))
  | some skippedKey => do
      let plaintextBytes ← fromResult
        (manager.crypto.aesCbcDecrypt skippedKey.cipherKey skippedKey.iv message.ciphertext)
      match store.getSenderKeyRecord address with
      | some (state :: previous) => do
          let receive : SenderKeyReceiveCommit :=
            { consumedSkippedKey := (message.senderKeyId, message.chainIndex) }
          modify fun store => store.storeSenderKeyRecord address (state :: previous) receive
          pure (encodeLosslessPlaintext plaintextBytes)
      | _ => throw (.error "Missing sender-key record during receive")

def receiveCommit (skippedKeys : List SkippedSenderKey) : SenderKeyReceiveCommit :=
  { maxSkippedKeys := manager.maxSkippedKeys, skippedKeys }

def splitAtKey (senderKeyId : String) :
    List SenderKeyState → Option (List SenderKeyState × SenderKeyState × List SenderKeyState)
  | [] => none
  | state :: states =>
    if state.senderKeyId = senderKeyId then some ([], state, states)
    else (splitAtKey senderKeyId states).map fun found =>
      (state :: found.1, found.2.1, found.2.2)

def tryDecryptWithPreviousState (address : SenderKeyAddress) (message : EncryptedGroupMessage) :
    ManagerM (Option String) := do
  let store ← get
  match splitAtKey message.senderKeyId (loadPreviousStates store address) with
  | none => pure none
  | some (newer, prevState, older) => do
      fromResult (assertSenderKeyVersion prevState.senderKeyVersion)
      fromResult (manager.verifySignature prevState message)
      if message.chainIndex < prevState.chainIndex then
        some <$> manager.decryptWithSkippedKey address message
      else do
        let opened ← fromResult (manager.openMessage prevState message)
        match store.getSenderKey address with
        | none => throw (.error "Missing sender-key record during receive")
        | some currentState => do
            modify fun store => store.storeSenderKeyRecord address
              (currentState :: newer ++ opened.state :: older)
              (manager.receiveCommit opened.skippedKeys)
            pure (some (encodeLosslessPlaintext opened.plaintextBytes))

def parseGroupMessage (framedMessage : Bytes) : Except ProtocolError EncryptedGroupMessage := do
  let envelope ← parseSenderKeyMessage framedMessage
  let decoded ← decodeSenderKeyMessage envelope.protobufBytes
  pure {
    senderKeyId := (decoded.distributionUuid.map utf8Decode).getD ""
    chainIndex := decoded.iteration
    ciphertext := decoded.ciphertext
    signature := envelope.signature }

def requirePrevious : Option String → ManagerM String
  | some plaintext => pure plaintext
  | none => throw (.error "SENDER_KEY_MISMATCH: Key rotation needed (use newer sender key)")

def decryptGroupMessage (address : SenderKeyAddress) (framedMessage : Bytes) :
    ManagerM String := do
  let message ← fromResult (parseGroupMessage framedMessage)
  let store ← get
  match store.getSenderKey address with
  | none =>
    throw (.error s!"SENDER_KEY_NOT_FOUND: No sender key for {address.userId}.{address.deviceId}")
  | some state => do
      fromResult (assertSenderKeyVersion state.senderKeyVersion)
      if state.senderKeyId ≠ message.senderKeyId then
        let prevResult ← manager.tryDecryptWithPreviousState address message
        requirePrevious prevResult
      else do
        fromResult (manager.verifySignature state message)
        if message.chainIndex < state.chainIndex then
          manager.decryptWithSkippedKey address message
        else do
          let opened ← fromResult (manager.openMessage state message)
          let previous := loadPreviousStates store address
          modify fun store => store.storeSenderKeyRecord address (opened.state :: previous)
            (manager.receiveCommit opened.skippedKeys)
          pure (encodeLosslessPlaintext opened.plaintextBytes)

end SenderKeyManager

end SignalProtocol.SenderKeys

import SignalProtocol.Basic
import SignalProtocol.Library.OrderedMap
import SignalProtocol.Library.Results

/-! # The skipped message keys of a session

The receiving side of a Double Ratchet session and its nested list of receiver chains. Chain keys
and seeds are bytes. -/

namespace SignalProtocol.DoubleRatchet

abbrev RatchetKey := String

structure StoredMessageKey where
  index : ℕ
  seed : Bytes
  timestamp : ℤ
  deriving DecidableEq

structure ReceiverChain where
  senderRatchetKey : RatchetKey
  chainKey : Option Bytes
  messageKeys : List StoredMessageKey
  deriving DecidableEq

structure ProcessedChain where
  lastNr : ℕ
  timestamp : ℤ

structure DoubleRatchetState where
  DHr : RatchetKey
  CKr : Bytes
  Nr : ℕ
  receiverChains : List ReceiverChain
  processedChains : OrderedMap RatchetKey ProcessedChain

structure DoubleRatchetConfig where
  maxSkippedMessages : ℕ
  maxMessageKeysStored : ℕ
  maxMessageKeyAge : ℤ

def DEFAULT_RATCHET_CONFIG : DoubleRatchetConfig where
  maxSkippedMessages := 25000
  maxMessageKeysStored := 2000
  maxMessageKeyAge := 7 * 24 * 60 * 60 * 1000

def MAX_RECEIVER_CHAINS : ℕ := 5

def MAX_MESSAGE_COUNTER : ℕ := 2 ^ 53 - 2

inductive ChainError where
  | messageDuplicate (counter currentNr : ℕ)
  | tooManySkipped (gap limit : ℕ)
  | counterOverflow
  | chainKeyNotInitialized (keyLength : ℕ)

def ChainError.message : ChainError → String
  | messageDuplicate _ _ => "Message authentication failed"
  | tooManySkipped gap limit =>
    s!"Too many skipped messages (gap of {gap} exceeds limit of {limit})"
  | counterOverflow => "Receiving message counter overflow - session must be rotated"
  | chainKeyNotInitialized _ =>
    "Cannot decrypt: receiving chain key not initialized (expected 32 bytes)"

/-- The next chain key and the message key. `hmac` is HMAC-SHA256. -/
def kdfChainKey (hmac : Bytes → Bytes → Bytes) (chainKey : Bytes) : Bytes × Bytes :=
  (hmac chainKey [0x02], hmac chainKey [0x01])

def updateChain (senderRatchetKey : RatchetKey) (update : ReceiverChain → ReceiverChain) :
    List ReceiverChain → List ReceiverChain
  | [] => []
  | chain :: chains =>
    if chain.senderRatchetKey = senderRatchetKey then update chain :: chains
    else chain :: updateChain senderRatchetKey update chains

def findChain (senderRatchetKey : RatchetKey) (chains : List ReceiverChain) :
    Option ReceiverChain :=
  chains.find? fun chain => chain.senderRatchetKey = senderRatchetKey

def getOrCreateReceiverChain (state : DoubleRatchetState) (senderRatchetKey : RatchetKey) :
    DoubleRatchetState :=
  match findChain senderRatchetKey state.receiverChains with
  | some _ => state
  | none =>
    let kept :=
      if MAX_RECEIVER_CHAINS ≤ state.receiverChains.length then state.receiverChains.tail
      else state.receiverChains
    { state with receiverChains := kept ++ [⟨senderRatchetKey, none, []⟩] }

def lowestPosition (keys : List StoredMessageKey) : ℕ :=
  (List.range' 1 (keys.length - 1)).foldl
    (fun lowest i =>
      if (keys[i]?.map (·.index)).getD 0 < (keys[lowest]?.map (·.index)).getD 0 then i
      else lowest) 0

def evictLowestIndex (keys : List StoredMessageKey) : List StoredMessageKey :=
  keys.eraseIdx (lowestPosition keys)

def evictToCap (cap : ℕ) : ℕ → List StoredMessageKey → List StoredMessageKey
  | 0, keys => keys
  | rounds + 1, keys =>
    if cap ≤ keys.length ∧ 0 < keys.length then evictToCap cap rounds (evictLowestIndex keys)
    else keys

def storeMessageKey (cap : ℕ) (keys : List StoredMessageKey) (key : StoredMessageKey) :
    List StoredMessageKey :=
  if keys.any fun stored => stored.index = key.index then keys
  else evictToCap cap keys.length keys ++ [key]

def storeMessageKeyInChain (state : DoubleRatchetState) (senderRatchetKey : RatchetKey)
    (key : StoredMessageKey) (config : DoubleRatchetConfig) : DoubleRatchetState :=
  let state := getOrCreateReceiverChain state senderRatchetKey
  { state with
    receiverChains := updateChain senderRatchetKey
      (fun chain =>
        { chain with
          messageKeys := storeMessageKey config.maxMessageKeysStored chain.messageKeys key })
      state.receiverChains }

def consumeMessageKeyFromChain (state : DoubleRatchetState) (senderRatchetKey : RatchetKey)
    (index : ℕ) : Option Bytes × DoubleRatchetState :=
  match findChain senderRatchetKey state.receiverChains with
  | none => (none, state)
  | some chain =>
    match chain.messageKeys.find? fun key => key.index = index with
    | none => (none, state)
    | some removedKey =>
      (some removedKey.seed,
        { state with
          receiverChains := updateChain senderRatchetKey
            (fun chain =>
              { chain with
                messageKeys := chain.messageKeys.eraseP fun key => key.index = index })
            state.receiverChains })

/-- Remove expired keys, chains that hold neither keys nor a chain key, and old marks of processed
chains. -/
def cleanupExpiredKeys (state : DoubleRatchetState) (config : DoubleRatchetConfig) (now : ℤ) :
    DoubleRatchetState :=
  let expirationTime := now - config.maxMessageKeyAge
  { state with
    processedChains := state.processedChains.filterEntries fun _ chainInfo =>
      !decide (chainInfo.timestamp < expirationTime)
    receiverChains :=
      (state.receiverChains.map fun chain =>
        { chain with
          messageKeys := chain.messageKeys.filter fun key =>
            !decide (key.timestamp < expirationTime) }).filter fun chain =>
        !(chain.messageKeys.isEmpty && chain.chainKey.isNone) }

abbrev ChainM := EStateM ChainError DoubleRatchetState

variable (hmac : Bytes → Bytes → Bytes)

/-- Store the keys of so many counters from `i` on, and return the chain key after them. The clock
is read at each key. -/
def storeKeysFrom (senderRatchetKey : RatchetKey) (config : DoubleRatchetConfig) (now : ℕ → ℤ) :
    ℕ → ℕ → Bytes → ChainM Bytes
  | 0, _, currentChainKey => pure currentChainKey
  | left + 1, i, currentChainKey => do
      let (newChainKey, messageKey) := kdfChainKey hmac currentChainKey
      modify fun state =>
        storeMessageKeyInChain state senderRatchetKey ⟨i, messageKey, now i⟩ config
      storeKeysFrom senderRatchetKey config now left (i + 1) newChainKey

def storeSkippedKeys (untilCounter : ℕ) (config : DoubleRatchetConfig) (now : ℕ → ℤ) :
    ChainM Unit := do
  let state ← get
  if untilCounter < state.Nr then throw (.messageDuplicate untilCounter state.Nr)
  else if state.Nr + config.maxSkippedMessages < untilCounter then
    throw (.tooManySkipped (untilCounter - state.Nr) config.maxSkippedMessages)
  else
    let chainKey ←
      storeKeysFrom hmac state.DHr config now (untilCounter - state.Nr) state.Nr state.CKr
    modify fun state => { state with CKr := chainKey, Nr := untilCounter }

def deriveReceivingKey : ChainM Bytes := do
  let state ← get
  if MAX_MESSAGE_COUNTER ≤ state.Nr then throw .counterOverflow
  else if state.CKr.length ≠ 32 then throw (.chainKeyNotInitialized state.CKr.length)
  else
    let (newChainKey, messageKey) := kdfChainKey hmac state.CKr
    set { state with CKr := newChainKey, Nr := state.Nr + 1 }
    return messageKey

def receivingRatchetStep (state : DoubleRatchetState) (dhPublicKey : RatchetKey)
    (chainKey : Bytes) : DoubleRatchetState :=
  { state with DHr := dhPublicKey, CKr := chainKey, Nr := 0 }

end SignalProtocol.DoubleRatchet

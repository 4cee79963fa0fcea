import SignalProtocol.Proof.SenderKeySignature

/-! # Receivers and senders

What a distribution and a receive do to the states of a receiver, and the frames that the calls of
a sender produce. -/

namespace SignalProtocol.SenderKeys

open Proto Results SenderKeyManager List

variable {manager : SenderKeyManager} {address : SenderKeyAddress} {store : SenderKeyStore}
  {root state : SenderKeyState} {states newer older : List SenderKeyState}
  {plaintextBytes framed : Bytes} {now position : ℕ}
  {state' : SenderKeyState} {senderKeyId : String}

theorem forall_mem_replace {property : SenderKeyState → Prop}
    (hall : ∀ other ∈ newer ++ state :: older, property other) (hstate' : property state') :
    ∀ other ∈ newer ++ state' :: older, property other := by
  intro other hother
  rcases mem_append.mp hother with hnewer | htail
  · exact hall other (mem_append_left _ hnewer)
  · rcases mem_cons.mp htail with rfl | holder
    · exact hstate'
    · exact hall other (mem_append_right _ (mem_cons_of_mem _ holder))

theorem Receiving.replace (hstates : Receiving store address (newer ++ state :: older))
    (receive : SenderKeyReceiveCommit) (hkey : state'.senderKeyId = state.senderKeyId)
    (hver : state'.senderKeyVersion = state.senderKeyVersion) :
    Receiving (store.storeSenderKeyRecord address (newer ++ state' :: older) receive) address
      (newer ++ state' :: older) := by
  have hids : (newer ++ state' :: older).map SenderKeyState.senderKeyId =
      (newer ++ state :: older).map SenderKeyState.senderKeyId := by
    simp [hkey]
  have hlen : (newer ++ state' :: older).length = (newer ++ state :: older).length := by simp
  have hversions := forall_mem_replace hstates.versions
    (hver.trans (hstates.versions state (mem_append_right _ mem_cons_self)))
  have hdist := hstates.distinct.of_map_eq hids
  have hshort := hlen.trans_le hstates.short
  cases newer with
  | nil => exact receiving_storeSenderKeyRecord receive hdist hshort hversions
  | cons current newer => exact receiving_storeSenderKeyRecord receive hdist hshort hversions

theorem openMessage_eq_ok {message : EncryptedGroupMessage} {opened : OpenedMessage}
    (hok : manager.openMessage state message = .ok opened) :
    opened.skippedKeys =
        (manager.stageSkippedKeys (message.chainIndex - state.chainIndex) state).1 ∧
      opened.state = manager.advance^[message.chainIndex - state.chainIndex + 1] state := by
  obtain ⟨⟨⟩, -, hdecrypt⟩ := bind_eq_ok_iff.mp hok
  obtain ⟨plaintextBytes, -, hopened⟩ := bind_eq_ok_iff.mp hdecrypt
  cases hopened
  refine ⟨rfl, ?_⟩
  rw [Function.iterate_succ_apply', stageSkippedKeys_eq]

inductive ReceiveEffect (manager : SenderKeyManager) (address : SenderKeyAddress)
    (message : EncryptedGroupMessage) (newer : List SenderKeyState) (state : SenderKeyState)
    (older : List SenderKeyState) (store : SenderKeyStore) :
    EStateM.Result ProtocolError SenderKeyStore String → Prop
  | failed (error : ProtocolError) :
      ReceiveEffect manager address message newer state older store (.error error store)
  | consumed (plaintext : String) :
      ReceiveEffect manager address message newer state older store
        (.ok plaintext (store.storeSenderKeyRecord address (newer ++ state :: older)
          { consumedSkippedKey := (message.senderKeyId, message.chainIndex) }))
  | opened (plaintext : String) (opened : OpenedMessage)
      (hopened : manager.openMessage state message = .ok opened) :
      ReceiveEffect manager address message newer state older store
        (.ok plaintext (store.storeSenderKeyRecord address (newer ++ opened.state :: older)
          (manager.receiveCommit opened.skippedKeys)))

theorem decryptWithSkippedKey_some {message : EncryptedGroupMessage} {key : SenderMessageKey}
    (hstates : Receiving store address (newer ++ state :: older))
    (hkey : store.getSkippedSenderKey address message.senderKeyId message.chainIndex = some key) :
    manager.decryptWithSkippedKey address message store =
      (fromResult (manager.crypto.aesCbcDecrypt key.cipherKey key.iv message.ciphertext) >>=
        fun plaintextBytes => do
          modify fun store => store.storeSenderKeyRecord address (newer ++ state :: older)
            { consumedSkippedKey := (message.senderKeyId, message.chainIndex) }
          pure (encodeLosslessPlaintext plaintextBytes) : ManagerM String) store := by
  rw [decryptWithSkippedKey, get_bind, hkey]
  simp only [SenderKeyStore.getSenderKeyRecord, hstates.record_eq]
  cases newer <;> rfl

theorem receiveUnder_effect (manager : SenderKeyManager) (message : EncryptedGroupMessage)
    (hstates : Receiving store address (newer ++ state :: older)) :
    ReceiveEffect manager address message newer state older store
      (receiveUnder manager address message newer state older store) := by
  rw [receiveUnder]
  cases manager.verifySignature state message with
  | error error => exact .failed error
  | ok =>
    rw [fromResult_ok_bind]
    by_cases hold : message.chainIndex < state.chainIndex
    · rw [if_pos hold]
      cases hkey : store.getSkippedSenderKey address message.senderKeyId message.chainIndex with
      | none =>
        rw [decryptWithSkippedKey, get_bind, hkey]
        exact .failed _
      | some key =>
        rw [decryptWithSkippedKey_some hstates hkey]
        cases manager.crypto.aesCbcDecrypt key.cipherKey key.iv message.ciphertext with
        | error error => exact .failed error
        | ok plaintextBytes => exact .consumed _
    · rw [if_neg hold]
      cases hopened : manager.openMessage state message with
      | error error => exact .failed error
      | ok opened => exact .opened _ opened hopened

theorem receiving_cons {current : SenderKeyState} {previous : List SenderKeyState}
    (hstates : Receiving store address states) (hprev : previous.Sublist states)
    (hkey : ∀ other ∈ previous, other.senderKeyId ≠ current.senderKeyId)
    (hshort : previous.length < maxSenderKeyStates)
    (hver : current.senderKeyVersion = senderKeyFormat) :
    Receiving (store.storeSenderKeyRecord address (current :: previous)) address
      (current :: previous) := by
  refine receiving_storeSenderKeyRecord _ (distinct_cons.mpr ⟨hkey, ?_⟩) hshort ?_
  · exact (hprev.map _).nodup hstates.distinct
  · refine forall_mem_cons.mpr ⟨hver, fun other hother => ?_⟩
    exact hstates.versions other (hprev.subset hother)

theorem processSenderKeyDistribution_unknown {message : SenderKeyDistributionMessage}
    (hstates : Receiving store address states) (hver : message.senderKeyVersion = senderKeyFormat)
    (hkey : ∀ other ∈ states, other.senderKeyId ≠ message.senderKeyId) :
    finalState (processSenderKeyDistribution address message now store) =
      store.storeSenderKeyRecord address
        (receivedState message now :: states.take (maxSenderKeyStates - 1)) := by
  rw [processSenderKeyDistribution, assertSenderKeyVersion_eq_ok_iff.mpr hver,
    fromResult_ok_bind, get_bind, SenderKeyStore.getSenderKey, hstates.current_eq]
  cases states with
  | nil => rfl
  | cons current previous =>
    have hloaded : loadPreviousStates store address = previous := hstates.loadPreviousStates
    have hcur := hstates.versions current mem_cons_self
    obtain ⟨hne, hprev⟩ := forall_mem_cons.mp hkey
    have hany : ¬ previous.any (fun state => state.senderKeyId = message.senderKeyId) = true := by
      simpa using hprev
    rw [hloaded]
    simp only [head?_cons]
    rw [assertSenderKeyVersion_eq_ok_iff.mpr hcur, fromResult_ok_bind, if_neg hne, if_neg hany]
    rfl

theorem processSenderKeyDistribution_effect (message : SenderKeyDistributionMessage) (now : ℕ)
    (hstates : Receiving store address states) :
    finalState (processSenderKeyDistribution address message now store) = store ∨
      ∃ previous, previous.Sublist states ∧
        finalState (processSenderKeyDistribution address message now store) =
          store.storeSenderKeyRecord address (receivedState message now :: previous) ∧
        Receiving (store.storeSenderKeyRecord address (receivedState message now :: previous))
          address (receivedState message now :: previous) := by
  by_cases hver : message.senderKeyVersion = senderKeyFormat
  swap
  · left
    rw [processSenderKeyDistribution, assertSenderKeyVersion, if_pos hver]
    rfl
  by_cases hheld : ∃ other ∈ states, other.senderKeyId = message.senderKeyId
  swap
  · -- A new key.
    push Not at hheld
    right
    refine ⟨_, List.take_sublist _ _, processSenderKeyDistribution_unknown hstates hver hheld,
      receiving_cons hstates (List.take_sublist _ _) ?_ ?_ rfl⟩
    · exact fun other hother => hheld other (mem_of_mem_take hother)
    · have hlen := length_take_le (maxSenderKeyStates - 1) states
      simp only [maxSenderKeyStates] at hlen ⊢
      omega
  rw [processSenderKeyDistribution, assertSenderKeyVersion_eq_ok_iff.mpr hver,
    fromResult_ok_bind, get_bind, SenderKeyStore.getSenderKey, hstates.current_eq]
  obtain ⟨other, hother, hkey⟩ := hheld
  cases states with
  | nil => cases hother
  | cons current previous =>
    have hcur := hstates.versions current mem_cons_self
    have hloaded : loadPreviousStates store address = previous := hstates.loadPreviousStates
    obtain ⟨hdist, -⟩ := distinct_cons.mp hstates.distinct
    rw [hloaded]
    simp only [head?_cons]
    rw [assertSenderKeyVersion_eq_ok_iff.mpr hcur, fromResult_ok_bind]
    by_cases hsame : current.senderKeyId = message.senderKeyId
    · rw [if_pos hsame]
      by_cases hgen : message.generation ≤ current.generation
      · rw [if_pos hgen]
        exact .inl rfl
      · -- A later generation of the current key.
        rw [if_neg hgen]
        refine .inr ⟨previous, List.sublist_cons_self _ _, rfl,
          receiving_cons hstates (List.sublist_cons_self _ _) ?_ hstates.short rfl⟩
        intro older holder
        rw [receivedState, ← hsame]
        exact hdist older holder
    · have hany : previous.any (fun state => state.senderKeyId = message.senderKeyId) = true := by
        rcases mem_cons.mp hother with rfl | hprev
        · exact absurd hkey hsame
        · exact any_eq_true.mpr ⟨other, hprev, decide_eq_true hkey⟩
      rw [if_neg hsame, if_pos hany]
      exact .inl rfl

structure Unknown (store : SenderKeyStore) (address : SenderKeyAddress) (senderKeyId : String)
    (states : List SenderKeyState) : Prop where
  receiving : Receiving store address states
  states : ∀ state ∈ states, state.senderKeyId ≠ senderKeyId
  skipped : ∀ chainIndex, store.getSkippedSenderKey address senderKeyId chainIndex = none

/-- What a device that only receives does. -/
inductive ReceiverEvent where
  | distribution (message : SenderKeyDistributionMessage) (now : ℕ)
  | receive (framedMessage : Bytes)

def ReceiverEvent.operation : ReceiverEvent → SenderKeyOperation
  | .distribution message now => .distribution message now
  | .receive framedMessage => .decrypt framedMessage

def ReceiverEvent.distributes (senderKeyId : String) : ReceiverEvent → Prop
  | .distribution message _ => message.senderKeyId = senderKeyId
  | .receive _ => False

theorem commitSkippedKeys_unknown {receive : SenderKeyReceiveCommit} {key : SkippedKeyId}
    {skippedKeys : SkippedSenderKeys} (hnone : skippedKeys.get? key = none)
    (hstaged : ∀ skipped ∈ receive.skippedKeys, key.senderKeyId ≠ skipped.senderKeyId) :
    (commitSkippedKeys address receive skippedKeys).get? key = none := by
  obtain ⟨maxSkippedKeys, staged, consumed⟩ := receive
  have hstored : (staged.foldl (storeSkippedKey address maxSkippedKeys) skippedKeys).get? key =
      none := by
    induction staged generalizing skippedKeys with
    | nil => exact hnone
    | cons skipped staged ih =>
      obtain ⟨hne, hrest⟩ := forall_mem_cons.mp hstaged
      exact ih (get?_storeSkippedKey_of_ne hne hnone) hrest
  rw [commitSkippedKeys]
  cases consumed with
  | none => exact hstored
  | some consumed =>
    simp only
    rw [OrderedMap.get?_erase, hstored, ite_self]

theorem openMessage_staged {message : EncryptedGroupMessage} {opened : OpenedMessage}
    (hok : manager.openMessage state message = .ok opened) :
    ∀ skipped ∈ opened.skippedKeys, skipped.senderKeyId = state.senderKeyId := by
  rw [(openMessage_eq_ok hok).1, stageSkippedKeys_eq]
  intro skipped hskip
  obtain ⟨step, -, rfl⟩ := mem_map.mp hskip
  rfl

theorem openMessage_state {message : EncryptedGroupMessage} {opened : OpenedMessage}
    (hok : manager.openMessage state message = .ok opened) :
    opened.state.senderKeyId = state.senderKeyId ∧
      opened.state.senderKeyVersion = state.senderKeyVersion := by
  rw [(openMessage_eq_ok hok).2, iterate_advance]
  exact ⟨rfl, rfl⟩

theorem getSkipped_store (receive : SenderKeyReceiveCommit) (senderKeyId : String)
    (chainIndex : ℕ) :
    (store.storeSenderKeyRecord address (newer ++ state :: older) receive).getSkippedSenderKey
        address senderKeyId chainIndex =
      (commitSkippedKeys address receive store.skippedSenderKeys).get?
        ⟨address, senderKeyId, chainIndex⟩ := by
  cases newer <;> rfl

theorem Unknown.receive {message : EncryptedGroupMessage}
    {result : EStateM.Result ProtocolError SenderKeyStore String}
    (hunknown : Unknown store address senderKeyId (newer ++ state :: older))
    (heffect : ReceiveEffect manager address message newer state older store result) :
    ∃ states, Unknown (finalState result) address senderKeyId states := by
  have hstate := hunknown.states state (mem_append_right _ mem_cons_self)
  cases heffect with
  | failed error => exact ⟨_, hunknown⟩
  | consumed plaintext =>
    refine ⟨newer ++ state :: older, hunknown.receiving.replace _ rfl rfl, hunknown.states, ?_⟩
    intro chainIndex
    rw [finalState_ok, getSkipped_store]
    exact commitSkippedKeys_unknown (hunknown.skipped chainIndex) nofun
  | opened plaintext opened hopened =>
    obtain ⟨hid, hver⟩ := openMessage_state hopened
    refine ⟨newer ++ opened.state :: older, hunknown.receiving.replace _ hid hver, ?_, ?_⟩
    · refine forall_mem_replace hunknown.states ?_
      rw [hid]
      exact hstate
    · intro chainIndex
      rw [finalState_ok, getSkipped_store]
      refine commitSkippedKeys_unknown (hunknown.skipped chainIndex) fun skipped hskip => ?_
      rw [openMessage_staged hopened skipped hskip]
      exact hstate.symm

theorem Unknown.step {event : ReceiverEvent}
    (hunknown : ∃ states, Unknown store address senderKeyId states)
    (hevent : ¬ event.distributes senderKeyId) :
    ∃ states, Unknown (manager.perform address store event.operation) address senderKeyId
      states := by
  obtain ⟨states, hunknown⟩ := hunknown
  cases event with
  | distribution message now =>
    rcases processSenderKeyDistribution_effect message now hunknown.receiving with
      hsame | ⟨previous, hprev, hfinal, hreceiving⟩
    · refine ⟨states, ?_⟩
      rw [ReceiverEvent.operation, perform, hsame]
      exact hunknown
    · rw [ReceiverEvent.operation, perform, hfinal]
      refine ⟨_, hreceiving, ?_, ?_⟩
      · refine forall_mem_cons.mpr ⟨hevent, fun other hother => ?_⟩
        exact hunknown.states other (hprev.subset hother)
      · exact hunknown.skipped
  | receive framedMessage =>
    rw [ReceiverEvent.operation, perform]
    cases hmsg : parseGroupMessage framedMessage with
    | error error =>
      rw [decryptGroupMessage, hmsg]
      exact ⟨states, hunknown⟩
    | ok message =>
      by_cases hheld : ∃ state ∈ states, state.senderKeyId = message.senderKeyId
      · obtain ⟨state, hstate, hkey⟩ := hheld
        obtain ⟨newer, older, rfl⟩ := append_of_mem hstate
        rw [decryptGroupMessage_held hunknown.receiving hmsg hkey]
        exact hunknown.receive (receiveUnder_effect manager message hunknown.receiving)
      · push Not at hheld
        obtain ⟨error, herr⟩ :=
          decryptGroupMessage_not_held manager hunknown.receiving hmsg hheld
        rw [herr]
        exact ⟨states, hunknown⟩

theorem decryptWithSkippedKey_failsClean (manager : SenderKeyManager) (address : SenderKeyAddress)
    (message : EncryptedGroupMessage) (store : SenderKeyStore) :
    FailsClean store (manager.decryptWithSkippedKey address message store) := by
  rw [decryptWithSkippedKey, get_bind]
  cases store.getSkippedSenderKey address message.senderKeyId message.chainIndex with
  | none => exact failsClean_error
  | some skippedKey =>
    refine failsClean_fromResult_bind fun plaintextBytes _ => ?_
    cases store.getSenderKeyRecord address with
    | none => exact failsClean_error
    | some record =>
      cases record with
      | nil => exact failsClean_error
      | cons => exact failsClean_ok

/-- A receive under a previous state fails clean, also where no state is under the key. -/
theorem tryDecryptWithPreviousState_failsClean (manager : SenderKeyManager)
    (address : SenderKeyAddress) (message : EncryptedGroupMessage) (store : SenderKeyStore) :
    FailsClean store
      ((manager.tryDecryptWithPreviousState address message >>= requirePrevious) store) := by
  rw [bind_apply, tryDecryptWithPreviousState, get_bind]
  cases splitAtKey message.senderKeyId (loadPreviousStates store address) with
  | none => exact failsClean_error
  | some found =>
    simp only
    cases assertSenderKeyVersion found.2.1.senderKeyVersion with
    | error error => exact failsClean_error
    | ok =>
      rw [fromResult_ok_bind]
      cases manager.verifySignature found.2.1 message with
      | error error => exact failsClean_error
      | ok =>
        rw [fromResult_ok_bind]
        by_cases hold : message.chainIndex < found.2.1.chainIndex
        · rw [if_pos hold, ← bind_apply, some_map_bind_requirePrevious]
          exact decryptWithSkippedKey_failsClean manager address message store
        · rw [if_neg hold]
          cases manager.openMessage found.2.1 message with
          | error error => exact failsClean_error
          | ok opened =>
            rw [fromResult_ok_bind]
            cases store.getSenderKey address with
            | none => exact failsClean_error
            | some current => exact failsClean_ok

theorem decryptGroupMessage_failsClean (manager : SenderKeyManager) (address : SenderKeyAddress)
    (framed : Bytes) (store : SenderKeyStore) :
    FailsClean store (manager.decryptGroupMessage address framed store) := by
  rw [decryptGroupMessage]
  refine failsClean_fromResult_bind fun message _ => ?_
  rw [get_bind]
  cases store.getSenderKey address with
  | none => exact failsClean_error
  | some state =>
    refine failsClean_fromResult_bind fun _ _ => ?_
    by_cases hkey : state.senderKeyId ≠ message.senderKeyId
    · rw [if_pos hkey]
      exact tryDecryptWithPreviousState_failsClean manager address message store
    · rw [if_neg hkey]
      refine failsClean_fromResult_bind fun _ _ => ?_
      by_cases hold : message.chainIndex < state.chainIndex
      · rw [if_pos hold]
        exact decryptWithSkippedKey_failsClean manager address message store
      · rw [if_neg hold]
        exact failsClean_fromResult_bind fun opened _ => failsClean_ok

/-- The messages that a sequence of calls sends: the plaintext and the frame of each call that
does not fail. -/
def encryptCalls (manager : SenderKeyManager) (address : SenderKeyAddress) :
    List (Bytes × ℕ) → SenderKeyStore → List (Bytes × Bytes)
  | [], _ => []
  | call :: calls, store =>
    match manager.encryptGroupMessage address call.1 call.2 store with
    | .ok framed next => (call.1, framed) :: encryptCalls manager address calls next
    | .error _ next => encryptCalls manager address calls next

/-- The frame of a plaintext at a position of the chain of `root`. -/
def SentAt (manager : SenderKeyManager) (root : SenderKeyState) (position : ℕ)
    (plaintextBytes framed : Bytes) : Prop :=
  ∃ protobufBytes,
    encodeSenderKeyMessage ⟨some (stringToBytes root.senderKeyId), some root.chainId,
      root.chainIndex + position, manager.crypto.aesCbcEncrypt
        (messageKeyAt manager root position).cipherKey (messageKeyAt manager root position).iv
        plaintextBytes⟩ = .ok protobufBytes ∧
    frameSenderKeyMessage protobufBytes
      (manager.crypto.sign root.signatureKey (senderKeyVersionByte :: protobufBytes)) = .ok framed

def messageAt (manager : SenderKeyManager) (root : SenderKeyState) (position : ℕ)
    (plaintextBytes protobufBytes : Bytes) : EncryptedGroupMessage where
  senderKeyId := root.senderKeyId
  chainIndex := root.chainIndex + position
  ciphertext := manager.crypto.aesCbcEncrypt (messageKeyAt manager root position).cipherKey
    (messageKeyAt manager root position).iv plaintextBytes
  signature := manager.crypto.sign root.signatureKey (senderKeyVersionByte :: protobufBytes)

@[simp] theorem messageAt_chainIndex (manager : SenderKeyManager) (root : SenderKeyState)
    (position : ℕ) (plaintextBytes protobufBytes : Bytes) :
    (messageAt manager root position plaintextBytes protobufBytes).chainIndex =
      root.chainIndex + position := rfl

theorem SentAt.parse (huuid : IsUuid root.senderKeyId)
    (hsent : SentAt manager root position plaintextBytes framed) :
    ∃ protobufBytes,
      encodeSenderKeyMessage ⟨some (stringToBytes root.senderKeyId), some root.chainId,
        root.chainIndex + position, manager.crypto.aesCbcEncrypt
          (messageKeyAt manager root position).cipherKey (messageKeyAt manager root position).iv
          plaintextBytes⟩ = .ok protobufBytes ∧
      parseGroupMessage framed =
        .ok (messageAt manager root position plaintextBytes protobufBytes) := by
  obtain ⟨protobufBytes, henc, hframe⟩ := hsent
  obtain ⟨hlen, hframed⟩ := frameSenderKeyMessage_eq_ok_iff.mp hframe
  exact ⟨protobufBytes, henc, parseGroupMessage_canonical huuid
    ⟨⟨protobufBytes, encodeSenderKeyMessage_encodes henc, hframed⟩, hlen⟩⟩

theorem SentAt.position_unique {position' : ℕ} {plaintextBytes' : Bytes}
    (huuid : IsUuid root.senderKeyId) (hsent : SentAt manager root position plaintextBytes framed)
    (hsent' : SentAt manager root position' plaintextBytes' framed) : position = position' := by
  obtain ⟨protobufBytes, -, hparse⟩ := hsent.parse huuid
  obtain ⟨protobufBytes', -, hparse'⟩ := hsent'.parse huuid
  rw [hparse, Except.ok.injEq] at hparse'
  have hidx := congrArg EncryptedGroupMessage.chainIndex hparse'
  exact Nat.add_left_cancel hidx

theorem sentAt_of_encrypt {next : SenderKeyStore}
    (hcur : store.getSenderKey address = some (manager.advance^[position] root))
    (hok : manager.encryptGroupMessage address plaintextBytes now store = .ok framed next) :
    SentAt manager root position plaintextBytes framed ∧
      next.getSenderKey address = some (manager.advance^[position + 1] root) := by
  obtain ⟨state, protobufBytes, hstate, -, henc, hframe, rfl⟩ := encryptGroupMessage_eq_ok hok
  rw [hcur, Option.some.injEq] at hstate
  subst hstate
  refine ⟨⟨protobufBytes, ?_, ?_⟩, ?_⟩
  · rw [iterate_advance] at henc
    exact henc
  · rw [iterate_advance] at hframe
    exact hframe
  · rw [storeSenderKey_current, Function.iterate_succ_apply']

theorem encryptGroupMessage_error {error : ProtocolError} {next : SenderKeyStore}
    {state : SenderKeyState} (hcur : store.getSenderKey address = some state)
    (herr : manager.encryptGroupMessage address plaintextBytes now store = .error error next) :
    next.getSenderKey address = some state ∨
      next.getSenderKey address = some (manager.advance state) := by
  have hnext : next = finalState (manager.encryptGroupMessage address plaintextBytes now store) := by
    rw [herr, finalState_error]
  rw [hnext, encryptGroupMessage, get_bind, hcur]
  refine finalState_fromResult_bind (fun final : SenderKeyStore =>
    final.getSenderKey address = some state ∨
      final.getSenderKey address = some (manager.advance state)) (.inl hcur) fun _ _ => ?_
  refine finalState_fromResult_bind (fun final : SenderKeyStore =>
    final.getSenderKey address = some state ∨
      final.getSenderKey address = some (manager.advance state)) (.inl hcur) fun _ _ => ?_
  refine finalState_fromResult_bind (fun final : SenderKeyStore =>
    final.getSenderKey address = some state ∨
      final.getSenderKey address = some (manager.advance state)) (.inl hcur) fun _ _ => ?_
  rw [modify_bind, finalState_fromResult]
  exact .inr (storeSenderKey_current _ _ _ _)

theorem encryptCalls_sentAt (manager : SenderKeyManager) (calls : List (Bytes × ℕ)) (position : ℕ)
    (huuid : IsUuid root.senderKeyId)
    (hcur : store.getSenderKey address = some (manager.advance^[position] root)) :
    (∀ sent ∈ encryptCalls manager address calls store, ∃ index, position ≤ index ∧
      SentAt manager root index sent.1 sent.2) ∧
    ∀ sent ∈ encryptCalls manager address calls store,
      ∀ other ∈ encryptCalls manager address calls store, ∀ index,
        SentAt manager root index sent.1 sent.2 → SentAt manager root index other.1 other.2 →
          sent = other := by
  induction calls generalizing store position with
  | nil => exact ⟨nofun, nofun⟩
  | cons call calls ih =>
    rw [encryptCalls]
    cases hres : manager.encryptGroupMessage address call.1 call.2 store with
    | ok framed next =>
      obtain ⟨hfst, hnext⟩ := sentAt_of_encrypt hcur hres
      obtain ⟨hlater, hunique⟩ := ih _ hnext
      refine ⟨?_, ?_⟩
      · refine forall_mem_cons.mpr ⟨⟨position, le_rfl, hfst⟩, fun sent hsent => ?_⟩
        obtain ⟨index, hidx, hat⟩ := hlater sent hsent
        exact ⟨index, by omega, hat⟩
      · -- The first frame stands before all others.
        have hapart (other : Bytes × Bytes)
            (hother : other ∈ encryptCalls manager address calls next) (index : ℕ)
            (hat : SentAt manager root index call.1 framed)
            (hotherAt : SentAt manager root index other.1 other.2) : False := by
          obtain ⟨index', hindex', hat'⟩ := hlater other hother
          have hsame := hat.position_unique huuid hfst
          have hsame' := hotherAt.position_unique huuid hat'
          omega
        intro sent hsent other hother index hat hotherAt
        rcases mem_cons.mp hsent with rfl | hsent
        · rcases mem_cons.mp hother with rfl | hother
          · rfl
          · exact (hapart other hother index hat hotherAt).elim
        · rcases mem_cons.mp hother with rfl | hother
          · exact (hapart sent hsent index hotherAt hat).elim
          · exact hunique sent hsent other hother index hat hotherAt
    | error error next =>
      rcases encryptGroupMessage_error hcur hres with hsame | hadvanced
      · exact ih _ hsame
      · rw [← Function.iterate_succ_apply' (f := manager.advance)] at hadvanced
        obtain ⟨hlater, hunique⟩ := ih _ hadvanced
        refine ⟨fun sent hsent => ?_, hunique⟩
        obtain ⟨index, hidx, hat⟩ := hlater sent hsent
        exact ⟨index, by omega, hat⟩

end SignalProtocol.SenderKeys

import SignalProtocol.SenderKeys.Manager

/-! # The record of a sender

The record never holds two states under one key, nor more states than the maximum, and a
distribution of a state that it already holds changes nothing. -/

namespace SignalProtocol.SenderKeys

open Results SenderKeyManager List OrderedMap

variable {newer older : List SenderKeyState} {manager : SenderKeyManager}

inductive SenderKeyOperation where
  | create (fresh : FreshSenderKey) (now : ℕ)
  | distribution (message : SenderKeyDistributionMessage) (now : ℕ)
  | encrypt (plaintextBytes : Bytes) (now : ℕ)
  | decrypt (framedMessage : Bytes)
  | rotate (fresh : FreshSenderKey) (now : ℕ)

/-- The store after an operation, whether it failed or not. -/
def SenderKeyManager.perform (manager : SenderKeyManager) (address : SenderKeyAddress)
    (store : SenderKeyStore) : SenderKeyOperation → SenderKeyStore
  | .create fresh now => finalState (createSenderKey address fresh now store)
  | .distribution message now => finalState (processSenderKeyDistribution address message now store)
  | .encrypt plaintextBytes now =>
    finalState (manager.encryptGroupMessage address plaintextBytes now store)
  | .decrypt framedMessage => finalState (manager.decryptGroupMessage address framedMessage store)
  | .rotate fresh now => finalState (rotateSenderKey address fresh now store)

/-- The states of a sender. -/
def recordOf (store : SenderKeyStore) (address : SenderKeyAddress) : List SenderKeyState :=
  (store.getSenderKeyRecord address).getD []

/-- A rotation draws an identifier that no stored state has. -/
def SenderKeyOperation.Fresh (store : SenderKeyStore) (address : SenderKeyAddress) :
    SenderKeyOperation → Prop
  | .rotate fresh _ => ∀ state ∈ recordOf store address, state.senderKeyId ≠ fresh.senderKeyId
  | _ => True

/-- The stores that sequences of operations reach. -/
inductive Reachable (manager : SenderKeyManager) (address : SenderKeyAddress) :
    SenderKeyStore → Prop
  | empty : Reachable manager address .empty
  | step {store : SenderKeyStore} (operation : SenderKeyOperation) :
      Reachable manager address store → operation.Fresh store address →
        Reachable manager address (manager.perform address store operation)

def Distinct (states : List SenderKeyState) : Prop :=
  (states.map SenderKeyState.senderKeyId).Nodup

structure Kept (store : SenderKeyStore) (address : SenderKeyAddress) (current head : SenderKeyState)
    (previous : List SenderKeyState) : Prop where
  current_eq : store.senderKeys.get? address = some current
  record_eq : store.senderKeyRecords.get? address = some (head :: previous)
  sameKey : head.senderKeyId = current.senderKeyId
  sameGeneration : head.generation = current.generation
  distinct : Distinct (head :: previous)
  short : (head :: previous).length ≤ maxSenderKeyStates

def WellKept (store : SenderKeyStore) (address : SenderKeyAddress) : Prop :=
  (store.senderKeys.get? address = none ∧ store.senderKeyRecords.get? address = none) ∨
    ∃ current head previous, Kept store address current head previous

variable {store : SenderKeyStore} {address : SenderKeyAddress}
  {current head state : SenderKeyState} {previous : List SenderKeyState}

theorem Kept.loadPreviousStates (hkept : Kept store address current head previous) :
    loadPreviousStates store address = previous := by
  have hshort := hkept.short
  rw [SenderKeyManager.loadPreviousStates, SenderKeyStore.getSenderKeyRecord, hkept.record_eq]
  simp only
  rw [List.take_of_length_le hshort, drop_one, List.tail_cons]

theorem Kept.recordOf (hkept : Kept store address current head previous) :
    recordOf store address = head :: previous := by
  rw [SenderKeys.recordOf, SenderKeyStore.getSenderKeyRecord, hkept.record_eq]
  rfl

/-- A write of the whole record keeps it well, whatever was stored before. -/
theorem wellKept_storeSenderKeyRecord (store : SenderKeyStore) (receive : SenderKeyReceiveCommit)
    (hdist : Distinct (state :: previous))
    (hshort : (state :: previous).length ≤ maxSenderKeyStates) :
    WellKept (store.storeSenderKeyRecord address (state :: previous) receive) address :=
  .inr ⟨state, state, previous, get?_set_self _ _ _, get?_set_self _ _ _, rfl, rfl, hdist, hshort⟩

theorem distinct_singleton (state : SenderKeyState) : Distinct [state] := nodup_singleton _

theorem singleton_short (state : SenderKeyState) : [state].length ≤ maxSenderKeyStates :=
  Nat.le_of_ble_eq_true rfl

theorem distinct_cons :
    Distinct (state :: previous) ↔
      (∀ other ∈ previous, other.senderKeyId ≠ state.senderKeyId) ∧ Distinct previous := by
  simp [Distinct]

theorem Distinct.of_map_eq {states states' : List SenderKeyState} (hdist : Distinct states)
    (hids : states'.map SenderKeyState.senderKeyId = states.map SenderKeyState.senderKeyId) :
    Distinct states' := by
  rw [Distinct, hids]
  exact hdist

theorem Kept.wellKept_sameKey (hkept : Kept store address current head previous)
    (receive : SenderKeyReceiveCommit) (hkey : state.senderKeyId = current.senderKeyId) :
    WellKept (store.storeSenderKeyRecord address (state :: previous) receive) address := by
  refine wellKept_storeSenderKeyRecord store receive ?_ hkept.short
  refine hkept.distinct.of_map_eq ?_
  rw [map_cons, map_cons, hkey, hkept.sameKey]

theorem Kept.wellKept_newKey (hkept : Kept store address current head previous)
    (receive : SenderKeyReceiveCommit) (hcur : current.senderKeyId ≠ state.senderKeyId)
    (hprev : ∀ other ∈ previous, other.senderKeyId ≠ state.senderKeyId) :
    WellKept (store.storeSenderKeyRecord address
      (state :: (current :: previous).take (maxSenderKeyStates - 1)) receive) address := by
  have hsub : ((current :: previous).take (maxSenderKeyStates - 1)).Sublist (current :: previous) :=
    List.take_sublist _ _
  have hdist : Distinct (current :: previous) := by
    refine hkept.distinct.of_map_eq ?_
    rw [map_cons, map_cons, hkept.sameKey]
  refine wellKept_storeSenderKeyRecord store receive ?_ ?_
  · refine distinct_cons.mpr ⟨?_, List.Sublist.nodup (hsub.map _) hdist⟩
    intro other hother
    rcases mem_cons.mp (hsub.subset hother) with rfl | hmem
    · exact hcur
    · exact hprev other hmem
  · have hlen := length_take_le (maxSenderKeyStates - 1) (current :: previous)
    simp only [maxSenderKeyStates, length_cons] at hlen ⊢
    omega

/-! ## What each operation keeps -/

theorem wellKept_createSenderKey (fresh : FreshSenderKey) (now : ℕ) :
    WellKept (finalState (createSenderKey address fresh now store)) address := by
  rw [createSenderKey, modify_bind, finalState_fromResult]
  exact wellKept_storeSenderKeyRecord store _ (distinct_singleton _) (singleton_short _)

theorem wellKept_processSenderKeyDistribution (hkept : WellKept store address)
    (message : SenderKeyDistributionMessage) (now : ℕ) :
    WellKept (finalState (processSenderKeyDistribution address message now store)) address := by
  rw [processSenderKeyDistribution]
  refine finalState_fromResult_bind (WellKept · address) hkept fun _ _ => ?_
  rw [get_bind]
  rcases hkept with ⟨hnone, hrec⟩ | ⟨current, head, previous, hkept⟩
  · rw [SenderKeyStore.getSenderKey, hnone]
    exact wellKept_storeSenderKeyRecord store _ (distinct_singleton _) (singleton_short _)
  · rw [SenderKeyStore.getSenderKey, hkept.current_eq, hkept.loadPreviousStates]
    simp only
    refine finalState_fromResult_bind (WellKept · address)
      (.inr ⟨current, head, previous, hkept⟩) fun _ _ => ?_
    split
    · rename_i hkey
      split
      · exact .inr ⟨current, head, previous, hkept⟩
      · exact hkept.wellKept_sameKey _ hkey.symm
    · rename_i hkey
      split
      · exact .inr ⟨current, head, previous, hkept⟩
      · rename_i hnew
        refine hkept.wellKept_newKey _ hkey ?_
        simpa [receivedState] using hnew

theorem wellKept_rotateSenderKey (hkept : WellKept store address) (fresh : FreshSenderKey)
    (now : ℕ) (hfresh : ∀ state ∈ recordOf store address, state.senderKeyId ≠ fresh.senderKeyId) :
    WellKept (finalState (rotateSenderKey address fresh now store)) address := by
  rw [rotateSenderKey, get_bind]
  rcases hkept with ⟨hnone, hrec⟩ | ⟨current, head, previous, hkept⟩
  · rw [SenderKeyStore.getSenderKey, hnone]
    simp only [modify_bind]
    rw [finalState_fromResult]
    exact wellKept_storeSenderKeyRecord store _ (distinct_singleton _) (singleton_short _)
  · rw [SenderKeyStore.getSenderKey, hkept.current_eq, hkept.loadPreviousStates]
    simp only
    refine finalState_fromResult_bind (WellKept · address)
      (.inr ⟨current, head, previous, hkept⟩) fun _ _ => ?_
    rw [modify_bind, finalState_fromResult]
    rw [hkept.recordOf] at hfresh
    obtain ⟨hhead, hprev⟩ := forall_mem_cons.mp hfresh
    refine hkept.wellKept_newKey _ ?_ hprev
    rw [← hkept.sameKey]
    exact hhead

theorem wellKept_encryptGroupMessage (manager : SenderKeyManager) (hkept : WellKept store address)
    (plaintextBytes : Bytes) (now : ℕ) :
    WellKept (finalState (manager.encryptGroupMessage address plaintextBytes now store))
      address := by
  rw [encryptGroupMessage, get_bind]
  rcases hkept with ⟨hnone, hrec⟩ | ⟨current, head, previous, hkept⟩
  · rw [SenderKeyStore.getSenderKey, hnone]
    exact .inl ⟨hnone, hrec⟩
  · have hsame : WellKept store address := .inr ⟨current, head, previous, hkept⟩
    rw [SenderKeyStore.getSenderKey, hkept.current_eq]
    refine finalState_fromResult_bind (WellKept · address) hsame fun _ _ => ?_
    refine finalState_fromResult_bind (WellKept · address) hsame fun _ _ => ?_
    refine finalState_fromResult_bind (WellKept · address) hsame fun _ _ => ?_
    rw [modify_bind, finalState_fromResult]
    cases manager.storage with
    | memory =>
      -- The memory store writes the current state only: the record keeps its older head.
      exact .inr ⟨manager.advance current, head, previous, get?_set_self _ _ _,
        hkept.record_eq, hkept.sameKey, hkept.sameGeneration, hkept.distinct, hkept.short⟩
    | keyValue =>
      exact wellKept_storeSenderKeyRecord store _ (distinct_singleton _) (singleton_short _)

theorem stageSkippedKeys_senderKeyId (manager : SenderKeyManager) (gap : ℕ)
    (state : SenderKeyState) :
    (manager.stageSkippedKeys gap state).2.senderKeyId = state.senderKeyId := by
  induction gap generalizing state with
  | zero => rfl
  | succ gap ih => exact ih (manager.advance state)

theorem openMessage_senderKeyId {message : EncryptedGroupMessage}
    {opened : OpenedMessage} (hok : manager.openMessage state message = .ok opened) :
    opened.state.senderKeyId = state.senderKeyId := by
  obtain ⟨⟨⟩, -, hdecrypt⟩ := bind_eq_ok_iff.mp hok
  obtain ⟨plaintextBytes, -, hopened⟩ := bind_eq_ok_iff.mp hdecrypt
  cases hopened
  exact stageSkippedKeys_senderKeyId manager _ state

theorem splitAtKey_eq_some {senderKeyId : String} {states : List SenderKeyState}
    (hsplit : splitAtKey senderKeyId states = some (newer, state, older)) :
    states = newer ++ state :: older ∧ state.senderKeyId = senderKeyId := by
  induction states generalizing newer with
  | nil => cases hsplit
  | cons first states ih =>
    rw [splitAtKey] at hsplit
    split at hsplit
    · rename_i hkey
      cases hsplit
      exact ⟨rfl, hkey⟩
    · obtain ⟨⟨newer', state', older'⟩, hfound, heq⟩ := Option.map_eq_some_iff.mp hsplit
      cases heq
      obtain ⟨rfl, hkey⟩ := ih hfound
      exact ⟨rfl, hkey⟩

theorem wellKept_decryptWithSkippedKey (manager : SenderKeyManager) (hkept : WellKept store address)
    (message : EncryptedGroupMessage) :
    WellKept (finalState (manager.decryptWithSkippedKey address message store)) address := by
  rw [decryptWithSkippedKey, get_bind]
  cases store.getSkippedSenderKey address message.senderKeyId message.chainIndex with
  | none => exact hkept
  | some skippedKey =>
    refine finalState_fromResult_bind (WellKept · address) hkept fun _ _ => ?_
    rcases hkept with ⟨hnone, hrec⟩ | ⟨current, head, previous, hkept⟩
    · rw [SenderKeyStore.getSenderKeyRecord, hrec, SenderKeyStore.getSenderKey, hnone]
      exact .inl ⟨hnone, hrec⟩
    · rw [SenderKeyStore.getSenderKeyRecord, hkept.record_eq]
      exact wellKept_storeSenderKeyRecord store _ hkept.distinct hkept.short

theorem Kept.wellKept_inPlace {state' : SenderKeyState}
    (hkept : Kept store address current head previous) (receive : SenderKeyReceiveCommit)
    (hprev : previous = newer ++ state :: older) (hkey : state'.senderKeyId = state.senderKeyId) :
    WellKept (store.storeSenderKeyRecord address (current :: newer ++ state' :: older) receive)
      address := by
  have hids : (current :: newer ++ state' :: older).map SenderKeyState.senderKeyId =
      (head :: previous).map SenderKeyState.senderKeyId := by
    simp [hprev, hkey, hkept.sameKey]
  refine wellKept_storeSenderKeyRecord store receive (hkept.distinct.of_map_eq hids) ?_
  have hlen := congrArg List.length hids
  rw [length_map, length_map] at hlen
  exact hlen.trans_le hkept.short

theorem wellKept_tryDecryptWithPreviousState (manager : SenderKeyManager)
    (hkept : WellKept store address) (message : EncryptedGroupMessage) :
    WellKept (finalState (manager.tryDecryptWithPreviousState address message store)) address := by
  rw [tryDecryptWithPreviousState, get_bind]
  cases hsplit : splitAtKey message.senderKeyId (loadPreviousStates store address) with
  | none => exact hkept
  | some found =>
    obtain ⟨newer, prevState, older⟩ := found
    refine finalState_fromResult_bind (WellKept · address) hkept fun _ _ => ?_
    refine finalState_fromResult_bind (WellKept · address) hkept fun _ _ => ?_
    by_cases hold : message.chainIndex < prevState.chainIndex
    · rw [if_pos hold, finalState_map]
      exact wellKept_decryptWithSkippedKey manager hkept message
    · rw [if_neg hold]
      refine finalState_fromResult_bind (WellKept · address) hkept fun opened hopened => ?_
      rcases hkept with ⟨hnone, hrec⟩ | ⟨current, head, previous, hkept⟩
      · rw [SenderKeyStore.getSenderKey, hnone]
        exact .inl ⟨hnone, hrec⟩
      · rw [SenderKeyStore.getSenderKey, hkept.current_eq]
        rw [hkept.loadPreviousStates] at hsplit
        exact hkept.wellKept_inPlace _ (splitAtKey_eq_some hsplit).1
          (openMessage_senderKeyId hopened)

theorem wellKept_decryptGroupMessage (manager : SenderKeyManager) (hkept : WellKept store address)
    (framedMessage : Bytes) :
    WellKept (finalState (manager.decryptGroupMessage address framedMessage store)) address := by
  rw [decryptGroupMessage]
  refine finalState_fromResult_bind (WellKept · address) hkept fun message _ => ?_
  rw [get_bind]
  cases hcur : store.getSenderKey address with
  | none => exact hkept
  | some state =>
    refine finalState_fromResult_bind (WellKept · address) hkept fun _ _ => ?_
    by_cases hkey : state.senderKeyId = message.senderKeyId
    · rw [if_neg (not_ne_iff.mpr hkey)]
      refine finalState_fromResult_bind (WellKept · address) hkept fun _ _ => ?_
      by_cases hold : message.chainIndex < state.chainIndex
      · rw [if_pos hold]
        exact wellKept_decryptWithSkippedKey manager hkept message
      · rw [if_neg hold]
        refine finalState_fromResult_bind (WellKept · address) hkept fun opened hopened => ?_
        rcases hkept with ⟨hnone, -⟩ | ⟨current, head, previous, hkept⟩
        · rw [SenderKeyStore.getSenderKey, hnone] at hcur
          cases hcur
        · rw [SenderKeyStore.getSenderKey, hkept.current_eq] at hcur
          cases hcur
          rw [hkept.loadPreviousStates]
          exact hkept.wellKept_sameKey _ (openMessage_senderKeyId hopened)
    · rw [if_pos hkey, finalState_bind_of_same]
      · exact wellKept_tryDecryptWithPreviousState manager hkept message
      · intro plaintext store
        cases plaintext <;> rfl

theorem wellKept_perform (manager : SenderKeyManager) (operation : SenderKeyOperation)
    (hkept : WellKept store address) (hfresh : operation.Fresh store address) :
    WellKept (manager.perform address store operation) address := by
  cases operation with
  | create fresh now => exact wellKept_createSenderKey fresh now
  | distribution message now => exact wellKept_processSenderKeyDistribution hkept message now
  | encrypt plaintextBytes now =>
    exact wellKept_encryptGroupMessage manager hkept plaintextBytes now
  | decrypt framedMessage => exact wellKept_decryptGroupMessage manager hkept framedMessage
  | rotate fresh now => exact wellKept_rotateSenderKey hkept fresh now hfresh

theorem Reachable.wellKept (hstore : Reachable manager address store) : WellKept store address := by
  induction hstore with
  | empty => exact .inl ⟨rfl, rfl⟩
  | step operation hstore hfresh ih => exact wellKept_perform manager operation ih hfresh

/-- A state that the record holds, in this generation or a later one, is not news. -/
def AlreadyHeld (store : SenderKeyStore) (address : SenderKeyAddress)
    (message : SenderKeyDistributionMessage) : Prop :=
  ∃ state ∈ recordOf store address, state.senderKeyId = message.senderKeyId ∧
    message.generation ≤ state.generation

theorem processSenderKeyDistribution_alreadyHeld (hkept : WellKept store address)
    {message : SenderKeyDistributionMessage} (now : ℕ) (hheld : AlreadyHeld store address message) :
    finalState (processSenderKeyDistribution address message now store) = store := by
  rw [processSenderKeyDistribution]
  refine finalState_fromResult_bind (· = store) rfl fun _ _ => ?_
  rw [get_bind]
  obtain ⟨state, hstate, hid, hgen⟩ := hheld
  rcases hkept with ⟨hnone, hrec⟩ | ⟨current, head, previous, hkept⟩
  · rw [recordOf, SenderKeyStore.getSenderKeyRecord, hrec, SenderKeyStore.getSenderKey,
      hnone] at hstate
    cases hstate
  · rw [SenderKeyStore.getSenderKey, hkept.current_eq, hkept.loadPreviousStates]
    refine finalState_fromResult_bind (· = store) rfl fun _ _ => ?_
    rw [hkept.recordOf] at hstate
    by_cases hcur : current.senderKeyId = message.senderKeyId
    · rw [if_pos hcur]
      rcases mem_cons.mp hstate with rfl | hprev
      · rw [if_pos (hkept.sameGeneration ▸ hgen)]
        rfl
      · -- A previous state has another key than the head.
        refine absurd ?_ ((distinct_cons.mp hkept.distinct).1 state hprev)
        rw [hid, hkept.sameKey, hcur]
    · rw [if_neg hcur]
      rcases mem_cons.mp hstate with rfl | hprev
      · exact absurd (hkept.sameKey.symm.trans hid) hcur
      · have hany : previous.any (fun state => state.senderKeyId = message.senderKeyId) = true :=
          any_eq_true.mpr ⟨state, hprev, decide_eq_true hid⟩
        rw [if_pos hany]
        rfl

/-- Over every sequence of operations on one group and sender, the record holds at most one state
under each key and at most the maximum of states, and a distribution of a state that it already
holds leaves the states, their chains and the skipped keys as they are. -/
theorem senderKeyRecord_invariant (manager : SenderKeyManager) (address : SenderKeyAddress)
    {store : SenderKeyStore} (hstore : Reachable manager address store) :
    ((recordOf store address).map SenderKeyState.senderKeyId).Nodup ∧
      (recordOf store address).length ≤ maxSenderKeyStates ∧
      ∀ message now, AlreadyHeld store address message →
        finalState (processSenderKeyDistribution address message now store) = store := by
  refine ⟨?_, ?_, fun message now => processSenderKeyDistribution_alreadyHeld hstore.wellKept now⟩
  · rcases hstore.wellKept with ⟨hnone, hrecord⟩ | ⟨current, head, previous, hkept⟩
    · rw [recordOf, SenderKeyStore.getSenderKeyRecord, hrecord, SenderKeyStore.getSenderKey, hnone]
      exact nodup_nil
    · rw [hkept.recordOf]
      exact hkept.distinct
  · rcases hstore.wellKept with ⟨hnone, hrecord⟩ | ⟨current, head, previous, hkept⟩
    · rw [recordOf, SenderKeyStore.getSenderKeyRecord, hrecord, SenderKeyStore.getSenderKey, hnone]
      exact Nat.zero_le _
    · rw [hkept.recordOf]
      exact hkept.short

/-! A sender that creates its key and gets its own distribution back. -/

def exampleManager : SenderKeyManager where
  crypto := {
    hmac := fun key data => key ++ data
    hkdf := fun key _ info length => (key ++ info).takeD length 0
    aesCbcEncrypt := fun key iv plaintext => key ++ iv ++ plaintext
    aesCbcDecrypt := fun key iv ciphertext => .ok (ciphertext.drop (key.length + iv.length))
    sign := fun _ data => data.takeD 64 0
    verify := fun _ data signature => data.takeD 64 0 = signature }
  storage := .memory
  hkdfInfoString := "WhisperGroup"
  maxChainAdvance := 25000
  maxSkippedKeys := 2000
  maxSenderKeyAge := 1209600000

def exampleAddress : SenderKeyAddress := ⟨"group", "alice", 1⟩

def exampleKey : FreshSenderKey := ⟨"key-1", [1], [2], [3]⟩

def exampleStore : SenderKeyStore :=
  exampleManager.perform exampleAddress .empty (.create exampleKey 7)

def exampleDistribution : SenderKeyDistributionMessage :=
  ⟨"v2", "key-1", generateChainId "key-1", 1, 0, [1], [3]⟩

theorem exampleStore_invariant :
    ((recordOf exampleStore exampleAddress).map SenderKeyState.senderKeyId).Nodup ∧
      (recordOf exampleStore exampleAddress).length ≤ maxSenderKeyStates ∧
      finalState (processSenderKeyDistribution exampleAddress exampleDistribution 9 exampleStore) =
        exampleStore :=
  have hinvariant := senderKeyRecord_invariant exampleManager exampleAddress
    (.step (.create exampleKey 7) .empty trivial)
  ⟨hinvariant.1, hinvariant.2.1, hinvariant.2.2 exampleDistribution 9
    ⟨newState exampleKey 1 7, mem_singleton_self _, rfl, le_rfl⟩⟩

end SignalProtocol.SenderKeys

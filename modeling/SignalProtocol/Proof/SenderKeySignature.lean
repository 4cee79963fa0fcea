import SignalProtocol.Proof.SenderKeyFrames
import SignalProtocol.Proof.SenderKeyRecord

/-! # What the sender-key signature covers

The receiver checks the signature over its own encoding of the decoded fields, so an accepted frame
is one of the sender's exactly when its protobuf is that encoding. -/

namespace SignalProtocol.SenderKeys

open Proto Results SenderKeyManager List OrderedMap

variable {state : SenderKeyState} {plaintext : String}

/-- The keys that a sender drew and the frames that it sent. -/
inductive SenderRun (manager : SenderKeyManager) (address : SenderKeyAddress) :
    SenderKeyStore → List FreshSenderKey → List Bytes → Prop
  | empty : SenderRun manager address .empty [] []
  | create {store : SenderKeyStore} {keys : List FreshSenderKey} {frames : List Bytes}
      (fresh : FreshSenderKey) (now : ℕ) (hrun : SenderRun manager address store keys frames) :
      SenderRun manager address (finalState (createSenderKey address fresh now store))
        (keys ++ [fresh]) frames
  | rotate {store : SenderKeyStore} {keys : List FreshSenderKey} {frames : List Bytes}
      (fresh : FreshSenderKey) (now : ℕ) (hrun : SenderRun manager address store keys frames) :
      SenderRun manager address (finalState (rotateSenderKey address fresh now store))
        (keys ++ [fresh]) frames
  | encrypt {store next : SenderKeyStore} {keys : List FreshSenderKey} {frames : List Bytes}
      {plaintextBytes framed : Bytes} {now : ℕ} (hrun : SenderRun manager address store keys frames)
      (hok : manager.encryptGroupMessage address plaintextBytes now store = .ok framed next) :
      SenderRun manager address next keys (frames ++ [framed])

/-- A state under a key of the sender. -/
structure UnderKey (state : SenderKeyState) (key : FreshSenderKey) : Prop where
  senderKeyId : state.senderKeyId = key.senderKeyId
  chainId : state.chainId = generateChainId key.senderKeyId
  publicSignatureKey : state.publicSignatureKey = key.publicKey

/-- The states that a receiver tries. -/
def heldStates (store : SenderKeyStore) (address : SenderKeyAddress) : List SenderKeyState :=
  (store.getSenderKey address).toList ++ loadPreviousStates store address

/-- The protobuf holds the identifier and the chain of a held state, an iteration and a ciphertext,
each once, in this order and with nothing else. -/
def CanonicalFor (store : SenderKeyStore) (address : SenderKeyAddress) (framed : Bytes) : Prop :=
  ∃ state ∈ heldStates store address, ∃ iteration ciphertext signature,
    CanonicalFrame state.senderKeyId state.chainId iteration ciphertext signature framed

variable {manager : SenderKeyManager} {address : SenderKeyAddress} {store : SenderKeyStore}
  {keys : List FreshSenderKey} {frames : List Bytes}

theorem newState_underKey (fresh : FreshSenderKey) (generation now : ℕ) :
    UnderKey (newState fresh generation now) fresh := ⟨rfl, rfl, rfl⟩

theorem rotateSenderKey_current (fresh : FreshSenderKey) (now : ℕ)
    (hstate : (finalState (rotateSenderKey address fresh now store)).getSenderKey address =
      some state) :
    store.getSenderKey address = some state ∨
      ∃ generation, state = newState fresh generation now := by
  revert hstate
  rw [rotateSenderKey, get_bind]
  cases hold : store.getSenderKey address with
  | none =>
    simp only [modify_bind, finalState_fromResult]
    rw [SenderKeyStore.getSenderKey, SenderKeyStore.storeSenderKeyRecord]
    simp only [get?_set_self]
    rintro ⟨⟩
    exact .inr ⟨1, rfl⟩
  | some oldState =>
    refine finalState_fromResult_bind
      (fun final : SenderKeyStore => final.getSenderKey address = some state →
        some oldState = some state ∨ ∃ generation, state = newState fresh generation now)
      ?_ fun _ _ => ?_
    · intro hstate
      rw [hold] at hstate
      exact .inl hstate
    · simp only [modify_bind, finalState_fromResult]
      rw [SenderKeyStore.getSenderKey, SenderKeyStore.storeSenderKeyRecord]
      simp only [get?_set_self]
      rintro ⟨⟩
      exact .inr ⟨oldState.generation + 1, rfl⟩

theorem storeSenderKey_current (store : SenderKeyStore) (address : SenderKeyAddress)
    (adapter : SenderKeyAdapter) (state : SenderKeyState) :
    (store.storeSenderKey address adapter state).getSenderKey address = some state := by
  cases adapter <;> exact get?_set_self _ _ _

theorem SenderRun.underKeys (hrun : SenderRun manager address store keys frames) :
    (∀ state, store.getSenderKey address = some state → ∃ key ∈ keys, UnderKey state key) ∧
      ∀ framed ∈ frames, ∃ key ∈ keys, ∃ iteration ciphertext signature,
        CanonicalFrame key.senderKeyId (generateChainId key.senderKeyId) iteration ciphertext
          signature framed := by
  induction hrun with
  | empty => exact ⟨nofun, nofun⟩
  | create fresh now hrun ih =>
    obtain ⟨-, hframes⟩ := ih
    refine ⟨?_, ?_⟩
    · intro state hstate
      rw [createSenderKey, modify_bind, finalState_fromResult, SenderKeyStore.getSenderKey,
        SenderKeyStore.storeSenderKeyRecord] at hstate
      simp only [get?_set_self] at hstate
      cases hstate
      exact ⟨fresh, mem_append_right _ (mem_singleton_self _), newState_underKey fresh 1 now⟩
    · intro framed hframed
      obtain ⟨key, hkey, hframe⟩ := hframes framed hframed
      exact ⟨key, mem_append_left _ hkey, hframe⟩
  | rotate fresh now hrun ih =>
    obtain ⟨hcur, hframes⟩ := ih
    refine ⟨?_, ?_⟩
    · intro state hstate
      rcases rotateSenderKey_current fresh now hstate with hold | ⟨generation, rfl⟩
      · obtain ⟨key, hkey, hunder⟩ := hcur state hold
        exact ⟨key, mem_append_left _ hkey, hunder⟩
      · exact ⟨fresh, mem_append_right _ (mem_singleton_self _),
          newState_underKey fresh generation now⟩
    · intro framed hframed
      obtain ⟨key, hkey, hframe⟩ := hframes framed hframed
      exact ⟨key, mem_append_left _ hkey, hframe⟩
  | encrypt hrun hok ih =>
    obtain ⟨hcur, hframes⟩ := ih
    obtain ⟨state, protobufBytes, hstate, -, henc, hframe, rfl⟩ :=
      encryptGroupMessage_eq_ok hok
    obtain ⟨key, hkey, hunder⟩ := hcur state hstate
    refine ⟨?_, ?_⟩
    · intro state' hstate'
      rw [storeSenderKey_current] at hstate'
      cases hstate'
      exact ⟨key, hkey, hunder.senderKeyId, hunder.chainId, hunder.publicSignatureKey⟩
    · intro framed hframed
      rcases mem_append.mp hframed with hold | hnew
      · exact hframes framed hold
      · obtain rfl := mem_singleton.mp hnew
        have hcanon := canonicalFrame_of_framed henc hframe
        rw [hunder.chainId, hunder.senderKeyId] at hcanon
        exact ⟨key, hkey, _, _, _, hcanon⟩

theorem previousState_verified {message : EncryptedGroupMessage} {next : SenderKeyStore}
    (hok : (manager.tryDecryptWithPreviousState address message >>= requirePrevious) store =
      .ok plaintext next) :
    ∃ newer prevState older,
      splitAtKey message.senderKeyId (loadPreviousStates store address) =
        some (newer, prevState, older) ∧ manager.verifySignature prevState message = .ok () := by
  rw [bind_apply, tryDecryptWithPreviousState, get_bind] at hok
  cases hsplit : splitAtKey message.senderKeyId (loadPreviousStates store address) with
  | none =>
    rw [hsplit] at hok
    cases hok
  | some found =>
    obtain ⟨newer, prevState, older⟩ := found
    refine ⟨newer, prevState, older, rfl, ?_⟩
    rw [hsplit] at hok
    cases hver : assertSenderKeyVersion prevState.senderKeyVersion with
    | error error =>
      simp only [hver, fromResult_error_bind] at hok
      cases hok
    | ok =>
      cases hverified : manager.verifySignature prevState message with
      | error error =>
        simp only [hver, hverified, fromResult_ok_bind, fromResult_error_bind] at hok
        cases hok
      | ok => rfl

theorem decryptGroupMessage_eq_ok {framed : Bytes} {next : SenderKeyStore}
    (hok : manager.decryptGroupMessage address framed store = .ok plaintext next) :
    ∃ message, parseGroupMessage framed = .ok message ∧
      ∃ state ∈ heldStates store address, state.senderKeyId = message.senderKeyId ∧
        manager.verifySignature state message = .ok () := by
  rw [decryptGroupMessage] at hok
  obtain ⟨message, hmsg, hlookup⟩ := fromResult_bind_eq_ok_iff.mp hok
  rw [get_bind] at hlookup
  refine ⟨message, hmsg, ?_⟩
  cases hcur : store.getSenderKey address with
  | none =>
    rw [hcur] at hlookup
    cases hlookup
  | some state =>
    rw [hcur] at hlookup
    obtain ⟨⟨⟩, -, hopen⟩ := fromResult_bind_eq_ok_iff.mp hlookup
    by_cases hkey : state.senderKeyId = message.senderKeyId
    · rw [if_neg (not_ne_iff.mpr hkey)] at hopen
      obtain ⟨⟨⟩, hverified, -⟩ := fromResult_bind_eq_ok_iff.mp hopen
      refine ⟨state, ?_, hkey, hverified⟩
      rw [heldStates, hcur]
      exact mem_cons_self
    · rw [if_pos hkey] at hopen
      obtain ⟨newer, prevState, older, hsplit, hverified⟩ := previousState_verified hopen
      obtain ⟨hstates, hprev⟩ := splitAtKey_eq_some hsplit
      refine ⟨prevState, ?_, hprev, hverified⟩
      rw [heldStates, hstates]
      exact mem_append_right _ (mem_append_right _ mem_cons_self)

theorem verifySignature_eq_ok {message : EncryptedGroupMessage}
    (hid : IsUuid message.senderKeyId) (hok : manager.verifySignature state message = .ok ()) :
    ∃ protobufBytes,
      Encodes protobufBytes (senderKeyWire message.senderKeyId state.chainId message.chainIndex
        message.ciphertext) ∧
      manager.crypto.verify state.publicSignatureKey (senderKeyVersionByte :: protobufBytes)
        message.signature = true := by
  obtain ⟨signed, hsigned, hverify⟩ := bind_eq_ok_iff.mp hok
  obtain ⟨protobufBytes, henc, rfl⟩ := (serializeForSigning_eq_ok_iff hid).mp hsigned
  refine ⟨protobufBytes, encodeSenderKeyMessage_encodes henc, ?_⟩
  split at hverify
  · assumption
  · cases hverify

/-- With an ideal signature scheme, where every pair that verifies under a key of the sender is
part of a frame that it sent, an accepted frame is one of the sent frames exactly when it is
canonical for a held state. -/
theorem accepted_frame_sent_iff (hrun : SenderRun manager address store keys frames)
    (huuid : ∀ key ∈ keys, IsUuid key.senderKeyId)
    (hideal : ∀ key ∈ keys, ∀ signed signature,
      manager.crypto.verify key.publicKey signed signature = true → signed ++ signature ∈ frames)
    {receiver next : SenderKeyStore}
    (hheld : ∀ state ∈ heldStates receiver address, ∃ key ∈ keys, UnderKey state key)
    {framed : Bytes} {plaintext : String}
    (haccepted : manager.decryptGroupMessage address framed receiver = .ok plaintext next) :
    framed ∈ frames ↔ CanonicalFor receiver address framed := by
  obtain ⟨message, hmessage, state, hstate, hid, hverified⟩ := decryptGroupMessage_eq_ok haccepted
  obtain ⟨key, hkey, hunder⟩ := hheld state hstate
  have hmessageUuid : IsUuid message.senderKeyId := by
    rw [← hid, hunder.senderKeyId]
    exact huuid key hkey
  constructor
  · intro hframed
    obtain ⟨sent, hsent, iteration, ciphertext, signature, hframe⟩ := hrun.underKeys.2 framed hframed
    have hparsed := parseGroupMessage_canonical (huuid sent hsent) hframe
    rw [hmessage, Except.ok.injEq] at hparsed
    have hsame : state.senderKeyId = sent.senderKeyId := by
      rw [hid, hparsed]
    refine ⟨state, hstate, iteration, ciphertext, signature, ?_⟩
    rw [hunder.chainId, ← hunder.senderKeyId, hsame]
    exact hframe
  · rintro ⟨other, hother, iteration, ciphertext, signature, hframe⟩
    obtain ⟨key', hkey', hunder'⟩ := hheld other hother
    have hotherUuid : IsUuid other.senderKeyId := by
      rw [hunder'.senderKeyId]
      exact huuid key' hkey'
    have hparsed := parseGroupMessage_canonical hotherUuid hframe
    rw [hmessage, Except.ok.injEq] at hparsed
    subst hparsed
    -- The receiver encodes the fields that the frame encodes.
    obtain ⟨protobufBytes, hencoded, hverify⟩ := verifySignature_eq_ok hmessageUuid hverified
    obtain ⟨sentBytes, hsent, rfl⟩ := hframe.exists_proto
    have hchain : state.chainId = other.chainId := by
      rw [hunder.chainId, hunder'.chainId, ← hunder.senderKeyId, ← hunder'.senderKeyId, hid]
    have hbytes : protobufBytes = sentBytes := by
      rw [hencoded.bytes_eq, hsent.bytes_eq, hchain]
    rw [hunder.publicSignatureKey] at hverify
    rw [← hbytes]
    exact hideal key hkey _ _ hverify

/-- The first frame of the example sender. -/
def exampleFrame : Bytes :=
  (valueOf? (exampleManager.encryptGroupMessage exampleAddress [104, 105] 8 exampleStore)).getD []

/-- Only the signed pair of the example frame verifies, under the key of the example sender. -/
def idealManager : SenderKeyManager :=
  { exampleManager with
    crypto := { exampleManager.crypto with
      verify := fun publicKey signed signature =>
        publicKey = [3] ∧ signed ++ signature = exampleFrame } }

def exampleReceiver : SenderKeyStore :=
  idealManager.perform exampleAddress .empty (.distribution exampleDistribution 9)

/-- The example frame with field 5 after its own fields. -/
def frameWithUnknownField : Bytes :=
  exampleFrame.take (exampleFrame.length - signatureLen) ++ [0x28, 0x00] ++
    exampleFrame.drop (exampleFrame.length - signatureLen)

theorem idealManager_ideal (signed signature : Bytes)
    (hverify : idealManager.crypto.verify exampleKey.publicKey signed signature = true) :
    signed ++ signature ∈ [exampleFrame] := by
  obtain ⟨-, hframe⟩ := of_decide_eq_true hverify
  exact mem_singleton.mpr hframe

/-- An unknown field does not change what the receiver encodes, so the signature still verifies. -/
theorem frameWithUnknownField_accepted :
    valueOf? (idealManager.encryptGroupMessage exampleAddress [104, 105] 8 exampleStore) =
      some exampleFrame ∧
    valueOf? (idealManager.decryptGroupMessage exampleAddress frameWithUnknownField
      exampleReceiver) = some "hi" ∧
    frameWithUnknownField ∉ [exampleFrame] := by
  decide

theorem exampleKey_uuid : IsUuid exampleKey.senderKeyId where
  ne_empty := by decide
  ascii char hchar := by
    have hall : (exampleKey.senderKeyId.toList.all fun char => char.toNat < 2 ^ 7) = true := by
      decide
    simpa using all_eq_true.mp hall char hchar

theorem exampleReceiver_underKey :
    ∀ state ∈ heldStates exampleReceiver exampleAddress,
      ∃ key ∈ [exampleKey], UnderKey state key := by
  have hheld : heldStates exampleReceiver exampleAddress = [receivedState exampleDistribution 9] :=
    by decide
  rw [hheld]
  refine forall_mem_singleton.mpr ⟨exampleKey, mem_singleton_self _, rfl, rfl, rfl⟩

theorem frameWithUnknownField_sent_iff :
    frameWithUnknownField ∈ [exampleFrame] ↔
      CanonicalFor exampleReceiver exampleAddress frameWithUnknownField := by
  have hencrypted : valueOf? (idealManager.encryptGroupMessage exampleAddress [104, 105] 8
      exampleStore) = some exampleFrame := by
    decide
  have hdecrypted : valueOf? (idealManager.decryptGroupMessage exampleAddress
      frameWithUnknownField exampleReceiver) = some "hi" := by
    decide
  obtain ⟨sender, hsent⟩ := valueOf?_eq_some_iff.mp hencrypted
  obtain ⟨next, haccepted⟩ := valueOf?_eq_some_iff.mp hdecrypted
  have hrun : SenderRun idealManager exampleAddress sender [exampleKey] [exampleFrame] :=
    .encrypt (.create exampleKey 7 .empty) hsent
  refine accepted_frame_sent_iff hrun (forall_mem_singleton.mpr exampleKey_uuid)
    (forall_mem_singleton.mpr idealManager_ideal) exampleReceiver_underKey haccepted

/-! ## Chains and receives

A receive as one computation on the states that the receiver holds, the keys that it stages, and
the skipped keys that its commit leaves. -/

variable {manager : SenderKeyManager} {address : SenderKeyAddress} {store : SenderKeyStore}

variable {newer older : List SenderKeyState} {state : SenderKeyState}
  {skippedKeys : SkippedSenderKeys} {maxSkippedKeys : ℕ}

variable {framed : Bytes} {current root : SenderKeyState} {senderKeyId : String} {position : ℕ}

structure Receiving (store : SenderKeyStore) (address : SenderKeyAddress)
    (states : List SenderKeyState) : Prop where
  current_eq : store.senderKeys.get? address = states.head?
  record_eq : store.senderKeyRecords.get? address = states.head?.map fun _ => states
  distinct : Distinct states
  short : states.length ≤ maxSenderKeyStates
  versions : ∀ state ∈ states, state.senderKeyVersion = senderKeyFormat

theorem receiving_empty : Receiving .empty address [] :=
  ⟨rfl, rfl, nodup_nil, Nat.zero_le _, nofun⟩

variable {states : List SenderKeyState}

theorem Receiving.loadPreviousStates
    (hstates : Receiving store address states) : loadPreviousStates store address = states.tail := by
  rw [SenderKeyManager.loadPreviousStates, SenderKeyStore.getSenderKeyRecord, hstates.record_eq]
  cases states with
  | nil =>
    rw [SenderKeyStore.getSenderKey, hstates.current_eq]
    rfl
  | cons current previous =>
    have hshort := hstates.short
    simp only [head?_cons, Option.map_some]
    rw [List.take_of_length_le hshort, drop_one]

theorem Receiving.heldStates
    (hstates : Receiving store address states) : heldStates store address = states := by
  rw [SenderKeys.heldStates, SenderKeyStore.getSenderKey, hstates.current_eq,
    hstates.loadPreviousStates]
  cases states <;> rfl

theorem receiving_storeSenderKeyRecord {previous : List SenderKeyState}
    (receive : SenderKeyReceiveCommit) (hdist : Distinct (current :: previous))
    (hshort : (current :: previous).length ≤ maxSenderKeyStates)
    (hversions : ∀ state ∈ current :: previous, state.senderKeyVersion = senderKeyFormat) :
    Receiving (store.storeSenderKeyRecord address (current :: previous) receive) address
      (current :: previous) :=
  ⟨get?_set_self _ _ _, get?_set_self _ _ _, hdist, hshort, hversions⟩

def receiveUnder (manager : SenderKeyManager) (address : SenderKeyAddress)
    (message : EncryptedGroupMessage) (newer : List SenderKeyState) (state : SenderKeyState)
    (older : List SenderKeyState) : ManagerM String := do
  fromResult (manager.verifySignature state message)
  if message.chainIndex < state.chainIndex then manager.decryptWithSkippedKey address message
  else do
    let opened ← fromResult (manager.openMessage state message)
    modify fun store => store.storeSenderKeyRecord address (newer ++ opened.state :: older)
      (manager.receiveCommit opened.skippedKeys)
    pure (encodeLosslessPlaintext opened.plaintextBytes)

theorem some_map_bind_requirePrevious (computation : ManagerM String) (store : SenderKeyStore) :
    ((some <$> computation) >>= requirePrevious) store = computation store := by
  cases hres : computation store with
  | ok plaintext next => rw [bind_apply_ok (map_apply_ok hres), requirePrevious, pure_apply]
  | error error next => exact bind_apply_error (map_apply_error hres)

theorem splitAtKey_of_distinct (hdist : Distinct (newer ++ state :: older))
    (hkey : state.senderKeyId = senderKeyId) :
    splitAtKey senderKeyId (newer ++ state :: older) = some (newer, state, older) := by
  induction newer with
  | nil => exact if_pos hkey
  | cons first newer ih =>
    obtain ⟨hfst, hrest⟩ := distinct_cons.mp hdist
    have hne : first.senderKeyId ≠ senderKeyId := by
      rw [← hkey]
      exact (hfst state (mem_append_right _ mem_cons_self)).symm
    rw [cons_append, splitAtKey, if_neg hne, ih hrest]
    rfl

variable {message : EncryptedGroupMessage}

theorem tryDecryptWithPreviousState_held
    (hstates : Receiving store address (current :: newer ++ state :: older))
    (hkey : state.senderKeyId = message.senderKeyId) :
    (manager.tryDecryptWithPreviousState address message >>= requirePrevious) store =
      receiveUnder manager address message (current :: newer) state older store := by
  have hprev := hstates.versions state (mem_append_right _ mem_cons_self)
  have hsplit : splitAtKey message.senderKeyId (loadPreviousStates store address) =
      some (newer, state, older) := by
    rw [hstates.loadPreviousStates]
    exact splitAtKey_of_distinct (distinct_cons.mp hstates.distinct).2 hkey
  rw [bind_apply, tryDecryptWithPreviousState, get_bind, hsplit, SenderKeyStore.getSenderKey,
    hstates.current_eq]
  simp only [cons_append, head?_cons]
  rw [assertSenderKeyVersion_eq_ok_iff.mpr hprev, fromResult_ok_bind, receiveUnder]
  cases hverified : manager.verifySignature state message with
  | error error => rfl
  | ok =>
    simp only [fromResult_ok_bind]
    by_cases hold : message.chainIndex < state.chainIndex
    · rw [if_pos hold, if_pos hold]
      exact some_map_bind_requirePrevious (manager.decryptWithSkippedKey address message) store
    · rw [if_neg hold, if_neg hold]
      cases manager.openMessage state message <;> rfl

theorem decryptGroupMessage_held (hstates : Receiving store address (newer ++ state :: older))
    (hmsg : parseGroupMessage framed = .ok message)
    (hkey : state.senderKeyId = message.senderKeyId) :
    manager.decryptGroupMessage address framed store =
      receiveUnder manager address message newer state older store := by
  rw [decryptGroupMessage, hmsg, fromResult_ok_bind, get_bind, SenderKeyStore.getSenderKey,
    hstates.current_eq, hstates.loadPreviousStates]
  have hver := hstates.versions
  cases newer with
  | nil =>
    have hcur := hver state mem_cons_self
    simp only [nil_append, head?_cons, List.tail_cons]
    rw [assertSenderKeyVersion_eq_ok_iff.mpr hcur, fromResult_ok_bind, if_neg (not_ne_iff.mpr hkey)]
    rfl
  | cons current newer =>
    have hcur := hver current mem_cons_self
    have hne := (distinct_cons.mp hstates.distinct).1 state
      (mem_append_right _ mem_cons_self)
    simp only [cons_append, head?_cons]
    rw [assertSenderKeyVersion_eq_ok_iff.mpr hcur, fromResult_ok_bind, if_pos (hkey ▸ hne.symm)]
    exact tryDecryptWithPreviousState_held hstates hkey

theorem splitAtKey_eq_none (hkey : ∀ state ∈ states, state.senderKeyId ≠ senderKeyId) :
    splitAtKey senderKeyId states = none := by
  induction states with
  | nil => rfl
  | cons state states ih =>
    obtain ⟨hstate, hstates⟩ := forall_mem_cons.mp hkey
    rw [splitAtKey, if_neg hstate, ih hstates]
    rfl

theorem decryptGroupMessage_not_held (manager : SenderKeyManager)
    (hstates : Receiving store address states) (hmsg : parseGroupMessage framed = .ok message)
    (hkey : ∀ state ∈ states, state.senderKeyId ≠ message.senderKeyId) :
    ∃ error, manager.decryptGroupMessage address framed store = .error error store := by
  rw [decryptGroupMessage, hmsg, fromResult_ok_bind, get_bind, SenderKeyStore.getSenderKey,
    hstates.current_eq]
  cases states with
  | nil => exact ⟨_, rfl⟩
  | cons current previous =>
    have hcur := hstates.versions current mem_cons_self
    have hnone := splitAtKey_eq_none fun state hstate =>
      hkey state (mem_cons_of_mem _ hstate)
    simp only [head?_cons]
    rw [assertSenderKeyVersion_eq_ok_iff.mpr hcur, fromResult_ok_bind,
      if_pos (hkey current mem_cons_self), bind_apply, tryDecryptWithPreviousState, get_bind,
      hstates.loadPreviousStates, List.tail_cons, hnone]
    exact ⟨_, rfl⟩

theorem iterate_advance (manager : SenderKeyManager) (count : ℕ) (state : SenderKeyState) :
    manager.advance^[count] state =
      { state with
        chainKey := manager.advanceChainKey^[count] state.chainKey
        chainIndex := state.chainIndex + count } := by
  induction count generalizing state with
  | zero => rfl
  | succ count ih =>
    rw [Function.iterate_succ_apply, ih, Function.iterate_succ_apply, SenderKeyManager.advance,
      Nat.add_assoc, Nat.add_comm 1]

theorem stageSkippedKeys_eq (manager : SenderKeyManager) (gap : ℕ) (state : SenderKeyState) :
    manager.stageSkippedKeys gap state =
      ((List.range gap).map fun step =>
        ⟨state.senderKeyId, state.chainIndex + step,
          manager.deriveMessageKey (manager.advanceChainKey^[step] state.chainKey)⟩,
        manager.advance^[gap] state) := by
  induction gap generalizing state with
  | zero => rfl
  | succ gap ih =>
    rw [stageSkippedKeys, ih, range_succ_eq_map, map_cons, map_map, Function.iterate_succ_apply]
    simp only [Function.comp_def, Function.iterate_succ_apply, SenderKeyManager.advance,
      Nat.add_assoc, Nat.add_comm 1]
    rfl

/-- The key of the message at a position of a chain. -/
def messageKeyAt (manager : SenderKeyManager) (root : SenderKeyState) (position : ℕ) :
    SenderMessageKey :=
  manager.deriveMessageKey (manager.advanceChainKey^[position] root.chainKey)

/-- A state of the chain of `root`, which its sender and its receivers share. -/
structure OnChain (manager : SenderKeyManager) (root : SenderKeyState) (position : ℕ)
    (state : SenderKeyState) : Prop where
  senderKeyId : state.senderKeyId = root.senderKeyId
  chainId : state.chainId = root.chainId
  generation : state.generation = root.generation
  publicSignatureKey : state.publicSignatureKey = root.publicSignatureKey
  chainKey : state.chainKey = manager.advanceChainKey^[position] root.chainKey
  chainIndex : state.chainIndex = root.chainIndex + position

theorem OnChain.iterate (hchain : OnChain manager root position state) (count : ℕ) :
    OnChain manager root (position + count) (manager.advance^[count] state) := by
  rw [iterate_advance]
  refine ⟨hchain.senderKeyId, hchain.chainId, hchain.generation, hchain.publicSignatureKey, ?_, ?_⟩
  · rw [hchain.chainKey, ← Function.iterate_add_apply, Nat.add_comm]
  · rw [hchain.chainIndex, Nat.add_assoc]

theorem OnChain.messageKey (hchain : OnChain manager root position state) (step : ℕ) :
    manager.deriveMessageKey (manager.advanceChainKey^[step] state.chainKey) =
      messageKeyAt manager root (position + step) := by
  rw [messageKeyAt, hchain.chainKey, ← Function.iterate_add_apply, Nat.add_comm]

def skippedCount (address : SenderKeyAddress) (skippedKeys : SkippedSenderKeys) : ℕ :=
  (skippedKeysOf address skippedKeys).length

theorem skippedCount_eq (address : SenderKeyAddress) (skippedKeys : SkippedSenderKeys) :
    skippedCount address skippedKeys =
      (skippedKeys.keys.filter fun key => key.address = address).length :=
  length_mergeSort _

theorem skippedCount_set_le (address : SenderKeyAddress) (skippedKeys : SkippedSenderKeys)
    (key : SkippedKeyId) (value : SenderMessageKey) :
    skippedCount address (skippedKeys.set key value) ≤ skippedCount address skippedKeys + 1 := by
  rw [skippedCount_eq, skippedCount_eq]
  by_cases hkey : key ∈ skippedKeys.keys
  · rw [keys_set_of_mem _ _ hkey]
    exact Nat.le_succ _
  · rw [keys_set_of_not_mem _ _ hkey, filter_append, length_append]
    exact Nat.add_le_add_left (length_filter_le _ [key]) _

theorem storeSkippedKey_of_room
    (skipped : SkippedSenderKey) (hroom : skippedCount address skippedKeys + 1 ≤ maxSkippedKeys) :
    storeSkippedKey address maxSkippedKeys skippedKeys skipped =
      skippedKeys.set ⟨address, skipped.senderKeyId, skipped.chainIndex⟩ skipped.messageKey := by
  have hcount : (skippedKeysOf address skippedKeys).length - (maxSkippedKeys - 1) = 0 := by
    rw [skippedCount] at hroom
    omega
  rw [storeSkippedKey, hcount, List.take_zero, foldl_nil]

theorem storeSkippedKeys_of_room {staged : List SkippedSenderKey}
    (hroom : skippedCount address skippedKeys + staged.length ≤ maxSkippedKeys) :
    staged.foldl (storeSkippedKey address maxSkippedKeys) skippedKeys =
      (staged.map fun skipped =>
        ((⟨address, skipped.senderKeyId, skipped.chainIndex⟩ : SkippedKeyId),
          skipped.messageKey)).foldl (fun map entry => map.set entry.1 entry.2) skippedKeys := by
  induction staged generalizing skippedKeys with
  | nil => rfl
  | cons skipped staged ih =>
    rw [length_cons] at hroom
    rw [foldl_cons, storeSkippedKey_of_room skipped (by omega), map_cons, foldl_cons]
    have hset := skippedCount_set_le address skippedKeys
      ⟨address, skipped.senderKeyId, skipped.chainIndex⟩ skipped.messageKey
    exact ih (by omega)

theorem get?_storeSkippedKey_of_ne {skipped : SkippedSenderKey} {key : SkippedKeyId}
    (hne : key.senderKeyId ≠ skipped.senderKeyId) (hnone : skippedKeys.get? key = none) :
    (storeSkippedKey address maxSkippedKeys skippedKeys skipped).get? key = none := by
  have herase (evicted : List SkippedKeyId) (map : SkippedSenderKeys) (hmap : map.get? key = none) :
      (evicted.foldl OrderedMap.erase map).get? key = none := by
    induction evicted generalizing map with
    | nil => exact hmap
    | cons first evicted ih =>
      refine ih (map.erase first) ?_
      rw [get?_erase, hmap, ite_self]
  rw [storeSkippedKey, get?_set_of_ne]
  · exact herase _ _ hnone
  · rintro rfl
    exact hne rfl

end SignalProtocol.SenderKeys

import SignalProtocol.Proof.SenderKeyReceiver

/-! # Delivery of sender-key messages

Within the limits of the receiver every frame of a sender decrypts once, in any order, as long as
the receiver keeps the state of its key. -/

namespace SignalProtocol.SenderKeys

open Proto Results SenderKeyManager List OrderedMap

variable {manager : SenderKeyManager} {address : SenderKeyAddress} {store : SenderKeyStore}
  {root state : SenderKeyState} {states newer older : List SenderKeyState} {framed : Bytes}
  {event : ReceiverEvent} {index : ℕ} {events : List ReceiverEvent}

/-- Within the cap the skipped keys are those of the positions that the message skipped, and the
ones that were stored before. -/
theorem get?_commit_opened {message : EncryptedGroupMessage} {opened : OpenedMessage}
    {skippedKeys : SkippedSenderKeys} (hopened : manager.openMessage state message = .ok opened)
    (hroom : skippedCount address skippedKeys + (message.chainIndex - state.chainIndex) ≤
      manager.maxSkippedKeys) (senderKeyId : String) (chainIndex : ℕ) :
    (commitSkippedKeys address (manager.receiveCommit opened.skippedKeys) skippedKeys).get?
        ⟨address, senderKeyId, chainIndex⟩ =
      if senderKeyId = state.senderKeyId ∧ state.chainIndex ≤ chainIndex ∧
          chainIndex < message.chainIndex then
        some (manager.deriveMessageKey
          (manager.advanceChainKey^[chainIndex - state.chainIndex] state.chainKey))
      else skippedKeys.get? ⟨address, senderKeyId, chainIndex⟩ := by
  have hstaged : opened.skippedKeys =
      (List.range (message.chainIndex - state.chainIndex)).map fun step =>
        ⟨state.senderKeyId, state.chainIndex + step,
          manager.deriveMessageKey (manager.advanceChainKey^[step] state.chainKey)⟩ := by
    rw [(openMessage_eq_ok hopened).1, stageSkippedKeys_eq]
  have hlen : opened.skippedKeys.length = message.chainIndex - state.chainIndex := by
    rw [hstaged, length_map, length_range]
  rw [commitSkippedKeys, receiveCommit]
  simp only
  rw [storeSkippedKeys_of_room (hlen ▸ hroom),
    get?_foldl_set fun key : SkippedKeyId => manager.deriveMessageKey
      (manager.advanceChainKey^[key.chainIndex - state.chainIndex] state.chainKey)]
  · have hmem : (⟨address, senderKeyId, chainIndex⟩ : SkippedKeyId) ∈
        (opened.skippedKeys.map fun skipped =>
          ((⟨address, skipped.senderKeyId, skipped.chainIndex⟩ : SkippedKeyId),
            skipped.messageKey)).map Prod.fst ↔
        senderKeyId = state.senderKeyId ∧ state.chainIndex ≤ chainIndex ∧
          chainIndex < message.chainIndex := by
      rw [hstaged]
      simp only [map_map, Function.comp_def, mem_map, mem_range, SkippedKeyId.mk.injEq, true_and]
      constructor
      · rintro ⟨step, hstep, rfl, rfl⟩
        exact ⟨rfl, by omega, by omega⟩
      · rintro ⟨rfl, hle, hlt⟩
        exact ⟨chainIndex - state.chainIndex, by omega, rfl, by omega⟩
    by_cases hskip : senderKeyId = state.senderKeyId ∧ state.chainIndex ≤ chainIndex ∧
        chainIndex < message.chainIndex
    · rw [if_pos (hmem.mpr hskip), if_pos hskip]
    · rw [if_neg (fun hin => hskip (hmem.mp hin)), if_neg hskip]
  · rw [hstaged]
    intro entry hentry
    simp only [map_map, Function.comp_def, mem_map, mem_range] at hentry
    obtain ⟨step, -, rfl⟩ := hentry
    simp only [Nat.add_sub_cancel_left]

/-! ## Runs of a receiver -/

def chainGap (store : SenderKeyStore) (address : SenderKeyAddress) (framed : Bytes) : ℕ :=
  match parseGroupMessage framed with
  | .error _ => 0
  | .ok message =>
    match splitAtKey message.senderKeyId (heldStates store address) with
    | none => 0
    | some found => message.chainIndex - found.2.1.chainIndex

/-- The frame is within the maximum chain advance, and its skipped keys fit under the cap. -/
structure WithinLimits (manager : SenderKeyManager) (store : SenderKeyStore)
    (address : SenderKeyAddress) (framed : Bytes) : Prop where
  advance : chainGap store address framed ≤ manager.maxChainAdvance
  skipped : skippedCount address store.skippedSenderKeys + chainGap store address framed ≤
    manager.maxSkippedKeys

def Retained (store : SenderKeyStore) (address : SenderKeyAddress) (senderKeyId : String) : Prop :=
  ∃ state ∈ heldStates store address, state.senderKeyId = senderKeyId

/-- A distribution of another key, or of the same one in its generation; a frame within the limits,
of the sender under this key or of anybody under another one; or a frame of anybody else that is
refused. -/
def Admissible (manager : SenderKeyManager) (address : SenderKeyAddress) (root : SenderKeyState)
    (sent : List (Bytes × Bytes)) (store : SenderKeyStore) : ReceiverEvent → Prop
  | .distribution message _ =>
    message.senderKeyId = root.senderKeyId → message.generation ≤ root.generation
  | .receive framed =>
    ((∃ message ∈ sent, message.2 = framed) → WithinLimits manager store address framed) ∧
      ((∀ message ∈ sent, message.2 ≠ framed) → (WithinLimits manager store address framed ∧
          ∀ message, parseGroupMessage framed = .ok message →
            message.senderKeyId ≠ root.senderKeyId) ∨
        ∃ error next, manager.decryptGroupMessage address framed store = .error error next)

/-- A run whose events are admissible, and over which the key stays retained. -/
def AdmissibleRun (manager : SenderKeyManager) (address : SenderKeyAddress) (root : SenderKeyState)
    (sent : List (Bytes × Bytes)) : SenderKeyStore → List ReceiverEvent → Prop
  | _, [] => True
  | store, event :: events =>
    Admissible manager address root sent store event ∧
      Retained (manager.perform address store event.operation) address root.senderKeyId ∧
      AdmissibleRun manager address root sent
        (manager.perform address store event.operation) events

/-- The store after a sequence of events. -/
def receiverRun (manager : SenderKeyManager) (address : SenderKeyAddress) (store : SenderKeyStore)
    (events : List ReceiverEvent) : SenderKeyStore :=
  events.foldl (fun store event => manager.perform address store event.operation) store

def Delivered (manager : SenderKeyManager) (root : SenderKeyState) (sent : List (Bytes × Bytes))
    (past : List ReceiverEvent) (position : ℕ) : Prop :=
  ∃ message ∈ sent, SentAt manager root position message.1 message.2 ∧
    ReceiverEvent.receive message.2 ∈ past

/-- The receiver holds the chain at a position. -/
structure Tracks (manager : SenderKeyManager) (address : SenderKeyAddress) (root : SenderKeyState)
    (sent : List (Bytes × Bytes)) (past : List ReceiverEvent) (store : SenderKeyStore)
    (states : List SenderKeyState) (position : ℕ) : Prop where
  receiving : Receiving store address states
  held : ∃ state ∈ states, OnChain manager root position state
  delivered_lt : ∀ index, Delivered manager root sent past index → index < position
  skipped : ∀ index < position, ¬ Delivered manager root sent past index →
    store.getSkippedSenderKey address root.senderKeyId (root.chainIndex + index) =
      some (messageKeyAt manager root index)
  consumed : ∀ index, position ≤ index ∨ Delivered manager root sent past index →
    store.getSkippedSenderKey address root.senderKeyId (root.chainIndex + index) = none

variable {sent : List (Bytes × Bytes)} {past : List ReceiverEvent} {position : ℕ}

theorem chainGap_eq {message : EncryptedGroupMessage}
    (hstates : Receiving store address (newer ++ state :: older))
    (hmsg : parseGroupMessage framed = .ok message)
    (hkey : state.senderKeyId = message.senderKeyId) :
    chainGap store address framed = message.chainIndex - state.chainIndex := by
  rw [chainGap, hmsg]
  simp only
  rw [hstates.heldStates, splitAtKey_of_distinct hstates.distinct hkey]

theorem delivered_append_iff (hevent : ∀ message ∈ sent, event ≠ .receive message.2) (index : ℕ) :
    Delivered manager root sent (past ++ [event]) index ↔
      Delivered manager root sent past index := by
  refine exists_congr fun message => and_congr_right fun hsent => and_congr_right fun _ => ?_
  rw [mem_append, mem_singleton]
  exact or_iff_left (hevent message hsent).symm

theorem delivered_append_iff_of_not_sent
    (hsent : ∀ message ∈ sent, message.2 ≠ framed) (index : ℕ) :
    Delivered manager root sent (past ++ [.receive framed]) index ↔
      Delivered manager root sent past index :=
  delivered_append_iff (fun message hmsg heq =>
    hsent message hmsg (ReceiverEvent.receive.inj heq).symm) index

theorem Tracks.of_same {next : SenderKeyStore} {states' : List SenderKeyState}
    (htracks : Tracks manager address root sent past store states position)
    (hevent : ∀ index, Delivered manager root sent (past ++ [event]) index ↔
      Delivered manager root sent past index) (hreceiving : Receiving next address states')
    (hheld : ∃ state ∈ states', OnChain manager root position state)
    (hskip : ∀ chainIndex, next.getSkippedSenderKey address root.senderKeyId chainIndex =
      store.getSkippedSenderKey address root.senderKeyId chainIndex) :
    Tracks manager address root sent (past ++ [event]) next states' position := by
  refine ⟨hreceiving, hheld, ?_, ?_, ?_⟩
  · intro index hdeliv
    exact htracks.delivered_lt index ((hevent index).mp hdeliv)
  · intro index hidx hdeliv
    rw [hskip]
    rw [hevent] at hdeliv
    exact htracks.skipped index hidx hdeliv
  · intro index hidx
    rw [hskip]
    rw [hevent] at hidx
    exact htracks.consumed index hidx

theorem Distinct.eq_of_mem {first second : SenderKeyState} (hdist : Distinct states)
    (hfst : first ∈ states) (hsnd : second ∈ states)
    (hkey : first.senderKeyId = second.senderKeyId) : first = second :=
  inj_on_of_nodup_map hdist hfst hsnd hkey

theorem Receiving.alreadyHeld {message : SenderKeyDistributionMessage}
    (hstates : Receiving store address states) (hstate : state ∈ states)
    (hkey : state.senderKeyId = message.senderKeyId)
    (hgen : message.generation ≤ state.generation) (now : ℕ) :
    finalState (processSenderKeyDistribution address message now store) = store := by
  obtain ⟨current, previous, rfl⟩ := exists_cons_of_ne_nil (ne_nil_of_mem hstate)
  have hkept : Kept store address current current previous :=
    ⟨hstates.current_eq, hstates.record_eq, rfl, rfl, hstates.distinct, hstates.short⟩
  refine processSenderKeyDistribution_alreadyHeld (.inr ⟨current, current, previous, hkept⟩) now
    ⟨state, ?_, hkey, hgen⟩
  rw [hkept.recordOf]
  exact hstate

theorem Tracks.distribution {message : SenderKeyDistributionMessage} {now : ℕ}
    (htracks : Tracks manager address root sent past store states position)
    (hadmissible : message.senderKeyId = root.senderKeyId → message.generation ≤ root.generation)
    (hretain : Retained (finalState (processSenderKeyDistribution address message now store))
      address root.senderKeyId) :
    ∃ states', Tracks manager address root sent (past ++ [.distribution message now])
      (finalState (processSenderKeyDistribution address message now store)) states' position := by
  obtain ⟨state, hstate, hchain⟩ := htracks.held
  have hnone (index : ℕ) :
      Delivered manager root sent (past ++ [.distribution message now]) index ↔
        Delivered manager root sent past index :=
    delivered_append_iff (fun _ _ => by nofun) index
  by_cases hkey : message.senderKeyId = root.senderKeyId
  · have hsame := htracks.receiving.alreadyHeld hstate (hchain.senderKeyId.trans hkey.symm)
      (hchain.generation ▸ hadmissible hkey) now
    rw [hsame]
    exact ⟨states, htracks.of_same hnone htracks.receiving htracks.held fun _ => rfl⟩
  · rcases processSenderKeyDistribution_effect message now htracks.receiving with
      hsame | ⟨previous, hprev, hfinal, hreceiving⟩
    · rw [hsame]
      exact ⟨states, htracks.of_same hnone htracks.receiving htracks.held fun _ => rfl⟩
    · -- The retained state is one of the older ones.
      rw [hfinal] at hretain ⊢
      obtain ⟨state', hstate', hkey'⟩ := hretain
      rw [hreceiving.heldStates] at hstate'
      refine ⟨_, htracks.of_same hnone hreceiving ?_ fun _ => rfl⟩
      rcases mem_cons.mp hstate' with rfl | hmem
      · exact absurd hkey' hkey
      · have heq := htracks.receiving.distinct.eq_of_mem (hprev.subset hmem) hstate
          (hkey'.trans hchain.senderKeyId.symm)
        exact ⟨state', mem_cons_of_mem _ hmem, heq ▸ hchain⟩

theorem mem_replace {other state' : SenderKeyState} (hother : other ∈ newer ++ state :: older)
    (hne : other ≠ state) : other ∈ newer ++ state' :: older := by
  rcases mem_append.mp hother with hnewer | htail
  · exact mem_append_left _ hnewer
  · rcases mem_cons.mp htail with rfl | holder
    · exact absurd rfl hne
    · exact mem_append_right _ (mem_cons_of_mem _ holder)

theorem Tracks.receiveOther (htracks : Tracks manager address root sent past store states position)
    (hsent : ∀ message ∈ sent, message.2 ≠ framed)
    (hlimits : WithinLimits manager store address framed)
    (hother : ∀ message, parseGroupMessage framed = .ok message →
      message.senderKeyId ≠ root.senderKeyId) :
    ∃ states', Tracks manager address root sent (past ++ [.receive framed])
      (finalState (manager.decryptGroupMessage address framed store)) states' position := by
  have hnone (index : ℕ) : Delivered manager root sent (past ++ [.receive framed]) index ↔
      Delivered manager root sent past index :=
    delivered_append_iff_of_not_sent hsent index
  have hunchanged : ∃ states', Tracks manager address root sent (past ++ [.receive framed]) store
      states' position :=
    ⟨states, htracks.of_same hnone htracks.receiving htracks.held fun _ => rfl⟩
  cases hmsg : parseGroupMessage framed with
  | error error =>
    rw [decryptGroupMessage, hmsg]
    exact hunchanged
  | ok message =>
    have hne := hother message hmsg
    by_cases hheld : ∃ state ∈ states, state.senderKeyId = message.senderKeyId
    swap
    · push Not at hheld
      obtain ⟨error, herr⟩ :=
        decryptGroupMessage_not_held manager htracks.receiving hmsg hheld
      rw [herr]
      exact hunchanged
    obtain ⟨state, hstate, hkey⟩ := hheld
    obtain ⟨newer, older, rfl⟩ := append_of_mem hstate
    obtain ⟨kept, hkept, hchain⟩ := htracks.held
    have hkeptNe : kept ≠ state := by
      rintro rfl
      exact hne (hkey.symm.trans hchain.senderKeyId)
    rw [decryptGroupMessage_held htracks.receiving hmsg hkey]
    have heffect := receiveUnder_effect manager message htracks.receiving
    generalize receiveUnder manager address message newer state older store = result at heffect ⊢
    cases heffect with
    | failed error => exact hunchanged
    | consumed plaintext =>
      refine ⟨_, htracks.of_same hnone (htracks.receiving.replace _ rfl rfl) htracks.held ?_⟩
      intro chainIndex
      rw [finalState_ok, getSkipped_store, commitSkippedKeys]
      simp only [foldl_nil]
      rw [get?_erase, if_neg]
      · rfl
      · intro heq
        exact hne (congrArg SkippedKeyId.senderKeyId heq).symm
    | opened plaintext opened hopened =>
      obtain ⟨hid, hver⟩ := openMessage_state hopened
      have hroom := hlimits.skipped
      rw [chainGap_eq htracks.receiving hmsg hkey] at hroom
      refine ⟨_, htracks.of_same hnone (htracks.receiving.replace _ hid hver)
        ⟨kept, mem_replace hkept hkeptNe, hchain⟩ ?_⟩
      intro chainIndex
      rw [finalState_ok, getSkipped_store, get?_commit_opened hopened hroom, if_neg]
      · rfl
      · rintro ⟨hsame, -⟩
        exact hne (hsame.trans hkey).symm

/-! ## A delivery of the sender's frame -/

/-- The crypto layer opens what it sealed, under the keys of the sender. -/
structure LawfulCrypto (crypto : SenderKeyCrypto) (root : SenderKeyState) : Prop where
  decrypt_encrypt : ∀ cipherKey iv plaintextBytes,
    crypto.aesCbcDecrypt cipherKey iv (crypto.aesCbcEncrypt cipherKey iv plaintextBytes) =
      .ok plaintextBytes
  verify_sign : ∀ data,
    crypto.verify root.publicSignatureKey data (crypto.sign root.signatureKey data) = true

theorem verifySignature_messageAt {plaintextBytes protobufBytes : Bytes}
    (hcrypto : LawfulCrypto manager.crypto root) (huuid : IsUuid root.senderKeyId)
    (hchain : OnChain manager root position state)
    (henc : encodeSenderKeyMessage ⟨some (stringToBytes root.senderKeyId), some root.chainId,
      root.chainIndex + index, manager.crypto.aesCbcEncrypt
        (messageKeyAt manager root index).cipherKey (messageKeyAt manager root index).iv
        plaintextBytes⟩ = .ok protobufBytes) :
    manager.verifySignature state (messageAt manager root index plaintextBytes protobufBytes) =
      .ok () := by
  have hsigned : serializeForSigning (root.chainIndex + index)
      (messageAt manager root index plaintextBytes protobufBytes).ciphertext root.senderKeyId
      state.chainId = .ok (senderKeyVersionByte :: protobufBytes) := by
    rw [hchain.chainId]
    exact (serializeForSigning_eq_ok_iff huuid).mpr ⟨protobufBytes, henc, rfl⟩
  refine bind_eq_ok_iff.mpr ⟨_, hsigned, ?_⟩
  rw [hchain.publicSignatureKey]
  exact if_pos (hcrypto.verify_sign _)

theorem openMessage_messageAt (plaintextBytes protobufBytes : Bytes)
    (hcrypto : LawfulCrypto manager.crypto root) (hchain : OnChain manager root position state)
    (hidx : position ≤ index) (hgap : index - position ≤ manager.maxChainAdvance) :
    ∃ opened, manager.openMessage state
        (messageAt manager root index plaintextBytes protobufBytes) = .ok opened ∧
      opened.plaintextBytes = plaintextBytes := by
  have hadv : root.chainIndex + index - state.chainIndex = index - position := by
    rw [hchain.chainIndex]
    omega
  have hcheck : manager.assertChainGap state (root.chainIndex + index) = .ok () := by
    rw [assertChainGap]
    exact if_neg (by omega)
  have hreached := hchain.iterate (index - position)
  have hkey := hreached.messageKey 0
  rw [Nat.add_sub_cancel' hidx] at hkey
  refine ⟨⟨plaintextBytes, (manager.stageSkippedKeys (index - position) state).1,
    manager.advance (manager.stageSkippedKeys (index - position) state).2⟩, ?_, rfl⟩
  rw [openMessage]
  simp only [messageAt, hcheck, ok_bind, hadv, stageSkippedKeys_eq]
  have hopen := hcrypto.decrypt_encrypt (messageKeyAt manager root index).cipherKey
    (messageKeyAt manager root index).iv plaintextBytes
  simp only [Function.iterate_zero, id, Nat.add_zero] at hkey
  rw [hkey, hopen]
  rfl

theorem delivered_append_sent_iff (huuid : IsUuid root.senderKeyId) {message : Bytes × Bytes}
    (hmsg : message ∈ sent) (hat : SentAt manager root index message.1 message.2) (other : ℕ) :
    Delivered manager root sent (past ++ [.receive message.2]) other ↔
      Delivered manager root sent past other ∨ other = index := by
  constructor
  · rintro ⟨message', hmessage', hat', hevent⟩
    rcases mem_append.mp hevent with hpast | hnow
    · exact .inl ⟨message', hmessage', hat', hpast⟩
    · have hframe := ReceiverEvent.receive.inj (mem_singleton.mp hnow)
      rw [hframe] at hat'
      exact .inr (hat'.position_unique huuid hat)
  · rintro (⟨message', hmessage', hat', hpast⟩ | rfl)
    · exact ⟨message', hmessage', hat', mem_append_left _ hpast⟩
    · exact ⟨message, hmsg, hat, mem_append_right _ (mem_singleton_self _)⟩

section

variable (htracks : Tracks manager address root sent past store states position)

include htracks

theorem Tracks.split :
    ∃ newer state older, states = newer ++ state :: older ∧ OnChain manager root position state := by
  obtain ⟨state, hstate, hchain⟩ := htracks.held
  obtain ⟨newer, older, rfl⟩ := append_of_mem hstate
  exact ⟨newer, state, older, rfl, hchain⟩

section

variable (hcrypto : LawfulCrypto manager.crypto root)

include hcrypto

variable {message : Bytes × Bytes}

/-- The frame was delivered before: it is refused. -/
theorem Tracks.deliver_again (huuid : IsUuid root.senderKeyId)
    (hat : SentAt manager root index message.1 message.2)
    (hdeliv : Delivered manager root sent past index) :
    ∃ text, manager.decryptGroupMessage address message.2 store =
      .error (.encryption .messageDuplicate text) store := by
  obtain ⟨newer, state, older, rfl, hchain⟩ := htracks.split
  obtain ⟨protobufBytes, henc, hparse⟩ := hat.parse huuid
  have hverified := verifySignature_messageAt hcrypto huuid hchain henc
  have hlt := htracks.delivered_lt index hdeliv
  have hold : (messageAt manager root index message.1 protobufBytes).chainIndex <
      state.chainIndex := by
    rw [messageAt_chainIndex, hchain.chainIndex]
    omega
  have hgone := htracks.consumed index (.inr hdeliv)
  rw [decryptGroupMessage_held htracks.receiving hparse hchain.senderKeyId, receiveUnder,
    hverified, fromResult_ok_bind, if_pos hold, decryptWithSkippedKey, get_bind]
  simp only [messageAt, hgone]
  exact ⟨_, rfl⟩

theorem Tracks.deliver_skipped (huuid : IsUuid root.senderKeyId)
    (hmsg : message ∈ sent) (hat : SentAt manager root index message.1 message.2)
    (hnew : ¬ Delivered manager root sent past index) (hidx : index < position) :
    ∃ next, manager.decryptGroupMessage address message.2 store =
        .ok (encodeLosslessPlaintext message.1) next ∧
      ∃ states', Tracks manager address root sent (past ++ [.receive message.2]) next states'
        position := by
  have hheld := htracks.held
  obtain ⟨newer, state, older, rfl, hchain⟩ := htracks.split
  obtain ⟨protobufBytes, henc, hparse⟩ := hat.parse huuid
  have hverified := verifySignature_messageAt hcrypto huuid hchain henc
  have hold : (messageAt manager root index message.1 protobufBytes).chainIndex <
      state.chainIndex := by
    rw [messageAt_chainIndex, hchain.chainIndex]
    omega
  have hkey := htracks.skipped index hidx hnew
  rw [decryptGroupMessage_held htracks.receiving hparse hchain.senderKeyId, receiveUnder,
    hverified, fromResult_ok_bind, if_pos hold,
    decryptWithSkippedKey_some htracks.receiving hkey]
  simp only [messageAt, hcrypto.decrypt_encrypt, fromResult_ok_bind, modify_bind, pure_apply]
  refine ⟨_, rfl, _, htracks.receiving.replace _ rfl rfl, hheld, ?_, ?_, ?_⟩
  · intro other hother
    rcases (delivered_append_sent_iff huuid hmsg hat other).mp hother with hpast | rfl
    · exact htracks.delivered_lt other hpast
    · exact hidx
  · intro other hother hfresh
    rw [delivered_append_sent_iff huuid hmsg hat, not_or] at hfresh
    rw [getSkipped_store, commitSkippedKeys]
    simp only [foldl_nil]
    rw [get?_erase, if_neg]
    · exact htracks.skipped other hother hfresh.1
    · intro heq
      exact hfresh.2 (Nat.add_left_cancel (congrArg SkippedKeyId.chainIndex heq))
  · intro other hother
    rw [delivered_append_sent_iff huuid hmsg hat] at hother
    rw [getSkipped_store, commitSkippedKeys]
    simp only [foldl_nil]
    rw [get?_erase]
    by_cases hsame : other = index
    · rw [if_pos (by rw [hsame])]
    · rw [if_neg]
      · exact htracks.consumed other (hother.imp_right fun h => h.resolve_right hsame)
      · intro heq
        exact hsame (Nat.add_left_cancel (congrArg SkippedKeyId.chainIndex heq))

theorem Tracks.deliver_ahead (huuid : IsUuid root.senderKeyId)
    (hmsg : message ∈ sent) (hat : SentAt manager root index message.1 message.2)
    (hlimits : WithinLimits manager store address message.2) (hidx : position ≤ index) :
    ∃ next, manager.decryptGroupMessage address message.2 store =
        .ok (encodeLosslessPlaintext message.1) next ∧
      ∃ states', Tracks manager address root sent (past ++ [.receive message.2]) next states'
        (index + 1) := by
  have hnone (other : ℕ) (hother : position ≤ other) : ¬ Delivered manager root sent past other :=
    fun hdeliv => absurd (htracks.delivered_lt other hdeliv) (by omega)
  obtain ⟨newer, state, older, rfl, hchain⟩ := htracks.split
  obtain ⟨protobufBytes, henc, hparse⟩ := hat.parse huuid
  have hverified := verifySignature_messageAt hcrypto huuid hchain henc
  have hnotOld : ¬ (messageAt manager root index message.1 protobufBytes).chainIndex <
      state.chainIndex := by
    rw [messageAt_chainIndex, hchain.chainIndex]
    omega
  have hgap : root.chainIndex + index - state.chainIndex = index - position := by
    rw [hchain.chainIndex]
    omega
  have hadv := hlimits.advance
  have hroom := hlimits.skipped
  rw [chainGap_eq htracks.receiving hparse hchain.senderKeyId] at hadv hroom
  obtain ⟨opened, hopened, hplaintext⟩ :=
    openMessage_messageAt message.1 protobufBytes hcrypto hchain hidx (hgap ▸ hadv)
  have hstate := (openMessage_eq_ok hopened).2
  have hreached : opened.state = manager.advance^[index - position + 1] state := by
    rw [hstate, messageAt, hgap]
  obtain ⟨hid, hver⟩ := openMessage_state hopened
  rw [decryptGroupMessage_held htracks.receiving hparse hchain.senderKeyId, receiveUnder,
    hverified, fromResult_ok_bind, if_neg hnotOld, hopened, fromResult_ok_bind, modify_bind,
    pure_apply, hplaintext]
  have hkeys := get?_commit_opened hopened hroom root.senderKeyId
  simp only [messageAt_chainIndex, hchain.chainIndex, hchain.senderKeyId, true_and] at hkeys
  refine ⟨_, rfl, _, htracks.receiving.replace _ hid hver, ?_, ?_, ?_, ?_⟩
  · refine ⟨opened.state, mem_append_right _ mem_cons_self, ?_⟩
    have honChain := hchain.iterate (index - position + 1)
    rwa [← hreached, ← Nat.add_assoc, Nat.add_sub_cancel' hidx] at honChain
  · intro other hother
    rcases (delivered_append_sent_iff huuid hmsg hat other).mp hother with hpast | rfl
    · have hlt := htracks.delivered_lt other hpast
      omega
    · exact Nat.lt_succ_self _
  · intro other hother hfresh
    rw [delivered_append_sent_iff huuid hmsg hat, not_or] at hfresh
    rw [getSkipped_store, hkeys]
    by_cases hpassed : position ≤ other
    · -- Staged by this message.
      rw [if_pos (by omega), hchain.messageKey]
      congr 2
      omega
    · rw [if_neg (by omega)]
      exact htracks.skipped other (by omega) hfresh.1
  · intro other hother
    rw [delivered_append_sent_iff huuid hmsg hat] at hother
    have hpast : position ≤ other ∨ Delivered manager root sent past other := by
      rcases hother with hahead | hdeliv | hsame
      · exact .inl (by omega)
      · exact .inr hdeliv
      · exact .inl (by omega)
    rw [getSkipped_store, hkeys, if_neg]
    · exact htracks.consumed other hpast
    · rintro ⟨hle, hlt⟩
      rcases hother with hahead | hdeliv | hsame
      · omega
      · exact hnone other (by omega) hdeliv
      · omega

theorem Tracks.deliver_first (huuid : IsUuid root.senderKeyId)
    (hmsg : message ∈ sent) (hat : SentAt manager root index message.1 message.2)
    (hlimits : WithinLimits manager store address message.2)
    (hnew : ¬ Delivered manager root sent past index) :
    ∃ next, manager.decryptGroupMessage address message.2 store =
        .ok (encodeLosslessPlaintext message.1) next ∧
      ∃ states' position', Tracks manager address root sent (past ++ [.receive message.2]) next
        states' position' := by
  by_cases hidx : index < position
  · obtain ⟨next, hok, states', hnext⟩ :=
      htracks.deliver_skipped hcrypto huuid hmsg hat hnew hidx
    exact ⟨next, hok, states', position, hnext⟩
  · obtain ⟨next, hok, states', hnext⟩ :=
      htracks.deliver_ahead hcrypto huuid hmsg hat hlimits (Nat.le_of_not_lt hidx)
    exact ⟨next, hok, states', index + 1, hnext⟩

end

end

/-! ## Deliveries in any order -/

theorem Tracks.step (htracks : Tracks manager address root sent past store states position)
    (hcrypto : LawfulCrypto manager.crypto root) (huuid : IsUuid root.senderKeyId)
    (hsent : ∀ message ∈ sent, ∃ index, SentAt manager root index message.1 message.2)
    (hadmissible : Admissible manager address root sent store event)
    (hretain : Retained (manager.perform address store event.operation) address root.senderKeyId) :
    ∃ states' position', Tracks manager address root sent (past ++ [event])
      (manager.perform address store event.operation) states' position' := by
  cases event with
  | distribution message now =>
    obtain ⟨states', hnext⟩ := htracks.distribution hadmissible hretain
    exact ⟨states', position, hnext⟩
  | receive framed =>
    by_cases hown : ∃ message ∈ sent, message.2 = framed
    · have hlimits := hadmissible.1 hown
      obtain ⟨message, hmsg, rfl⟩ := hown
      obtain ⟨index, hat⟩ := hsent message hmsg
      rw [ReceiverEvent.operation, perform]
      by_cases hdeliv : Delivered manager root sent past index
      · obtain ⟨text, herr⟩ := htracks.deliver_again hcrypto huuid hat hdeliv
        rw [herr]
        refine ⟨states, position, htracks.of_same (fun other => ?_) htracks.receiving
          htracks.held fun _ => rfl⟩
        rw [delivered_append_sent_iff huuid hmsg hat, or_iff_left_iff_imp]
        rintro rfl
        exact hdeliv
      · obtain ⟨next, hok, hnext⟩ :=
          htracks.deliver_first hcrypto huuid hmsg hat hlimits hdeliv
        rw [hok]
        exact hnext
    · push Not at hown
      rcases hadmissible.2 hown with ⟨hlimits, hother⟩ | ⟨error, next, herr⟩
      · obtain ⟨states', hnext⟩ := htracks.receiveOther hown hlimits hother
        exact ⟨states', position, hnext⟩
      · have hclean := decryptGroupMessage_failsClean manager address framed store
        rw [ReceiverEvent.operation, perform, finalState_of_failsClean hclean herr]
        exact ⟨states, position, htracks.of_same (delivered_append_iff_of_not_sent hown)
          htracks.receiving htracks.held fun _ => rfl⟩

theorem Tracks.run
    (htracks : ∃ states position, Tracks manager address root sent past store states position)
    (hcrypto : LawfulCrypto manager.crypto root) (huuid : IsUuid root.senderKeyId)
    (hsent : ∀ message ∈ sent, ∃ index, SentAt manager root index message.1 message.2)
    (hrun : AdmissibleRun manager address root sent store events) :
    ∃ states position, Tracks manager address root sent (past ++ events)
      (receiverRun manager address store events) states position := by
  induction events generalizing store past with
  | nil =>
    rw [append_nil]
    exact htracks
  | cons event events ih =>
    obtain ⟨hadmissible, hretain, hrest⟩ := hrun
    obtain ⟨states, position, htracks⟩ := htracks
    have hnext := htracks.step hcrypto huuid hsent hadmissible hretain
    have hrun := ih hnext hrest
    rwa [append_assoc] at hrun

theorem Unknown.run (manager : SenderKeyManager) {senderKeyId : String}
    (hunknown : ∃ states, Unknown store address senderKeyId states)
    (hevents : ∀ event ∈ events, ¬ event.distributes senderKeyId) :
    ∃ states, Unknown (receiverRun manager address store events) address senderKeyId states := by
  induction events generalizing store with
  | nil => exact hunknown
  | cons event events ih =>
    obtain ⟨hevent, hrest⟩ := forall_mem_cons.mp hevents
    exact ih (Unknown.step hunknown hevent) hrest

theorem unknown_empty (address : SenderKeyAddress) (senderKeyId : String) :
    Unknown .empty address senderKeyId [] :=
  ⟨receiving_empty, nofun, fun _ => rfl⟩

theorem Unknown.distributed {message : SenderKeyDistributionMessage} (now : ℕ)
    (hunknown : Unknown store address root.senderKeyId states)
    (hmsg : currentDistribution root = .ok message) :
    ∃ states' position', Tracks manager address root sent []
      (finalState (processSenderKeyDistribution address message now store)) states' position' := by
  obtain ⟨⟨⟩, -, hfields⟩ := bind_eq_ok_iff.mp hmsg
  cases hfields
  rw [processSenderKeyDistribution_unknown hunknown.receiving rfl hunknown.states]
  have htake := length_take_le (maxSenderKeyStates - 1) states
  let current := receivedState ⟨senderKeyFormat, root.senderKeyId, root.chainId, root.generation,
    root.chainIndex, root.chainKey, root.publicSignatureKey⟩ now
  have hreceiving : Receiving
      (store.storeSenderKeyRecord address (current :: states.take (maxSenderKeyStates - 1)))
      address (current :: states.take (maxSenderKeyStates - 1)) := receiving_cons
    hunknown.receiving (List.take_sublist (maxSenderKeyStates - 1) states)
    (fun other hother => hunknown.states other (mem_of_mem_take hother))
    (by simp only [maxSenderKeyStates] at htake ⊢; omega) rfl
  have hnone (index : ℕ) : ¬ Delivered manager root sent [] index := by
    rintro ⟨_, -, -, hevent⟩
    cases hevent
  refine ⟨_, 0, hreceiving, ⟨_, mem_cons_self, rfl, rfl, rfl, rfl, rfl, rfl⟩, ?_, ?_, ?_⟩
  · exact fun index hdeliv => (hnone index hdeliv).elim
  · exact fun index hidx => (Nat.not_lt_zero index hidx).elim
  · exact fun index _ => hunknown.skipped _

/-- Deliveries of a sender's frames, in any order, with loss, duplicates, other senders' frames and
forged ones: the first delivery of a frame decrypts to its plaintext, a later one is refused as
duplicate, and a delivery that fails leaves the store unchanged. -/
theorem senderKey_delivery (manager : SenderKeyManager) (address : SenderKeyAddress)
    {sender : SenderKeyStore} {root : SenderKeyState} {message : SenderKeyDistributionMessage}
    (calls : List (Bytes × ℕ)) (before after : List ReceiverEvent) (now : ℕ)
    (hcrypto : LawfulCrypto manager.crypto root) (huuid : IsUuid root.senderKeyId)
    (hroot : sender.getSenderKey address = some root)
    (hmessage : currentDistribution root = .ok message)
    (hbefore : ∀ event ∈ before, ¬ event.distributes root.senderKeyId)
    (hafter : AdmissibleRun manager address root (encryptCalls manager address calls sender)
      (finalState (processSenderKeyDistribution address message now
        (receiverRun manager address .empty before))) after) :
    let store := receiverRun manager address (finalState (processSenderKeyDistribution address
      message now (receiverRun manager address .empty before))) after
    (∀ sent ∈ encryptCalls manager address calls sender,
      (ReceiverEvent.receive sent.2 ∉ after → WithinLimits manager store address sent.2 →
        ∃ next, manager.decryptGroupMessage address sent.2 store =
          .ok (encodeLosslessPlaintext sent.1) next) ∧
      (ReceiverEvent.receive sent.2 ∈ after →
        ∃ text, manager.decryptGroupMessage address sent.2 store =
          .error (.encryption .messageDuplicate text) store)) ∧
    ∀ framed, FailsClean store (manager.decryptGroupMessage address framed store) := by
  intro store
  refine ⟨fun sent hsent => ?_, fun framed => decryptGroupMessage_failsClean manager address framed
    store⟩
  obtain ⟨hat, hunique⟩ := encryptCalls_sentAt manager calls 0 huuid hroot
  obtain ⟨states, hunknown⟩ :=
    Unknown.run manager ⟨_, unknown_empty address root.senderKeyId⟩ hbefore
  obtain ⟨_, position, htracks⟩ := Tracks.run (hunknown.distributed now hmessage) hcrypto
    huuid (fun message hmessage => (hat message hmessage).imp fun _ => And.right) hafter
  obtain ⟨index, -, hindex⟩ := hat sent hsent
  have hdelivered : Delivered manager root (encryptCalls manager address calls sender)
      ([] ++ after) index ↔ ReceiverEvent.receive sent.2 ∈ after := by
    constructor
    · rintro ⟨other, hother, hotherAt, hevent⟩
      rwa [hunique other hother sent hsent index hotherAt hindex] at hevent
    · exact fun hevent => ⟨sent, hsent, hindex, hevent⟩
  constructor
  · intro hnew hlimits
    obtain ⟨next, hok, -⟩ := htracks.deliver_first hcrypto huuid hsent hindex hlimits
      (hdelivered.not.mpr hnew)
    exact ⟨next, hok⟩
  · intro hevent
    exact htracks.deliver_again hcrypto huuid hindex (hdelivered.mpr hevent)

/-! The second of two messages arrives first. -/

theorem exampleCrypto_lawful : LawfulCrypto exampleManager.crypto (newState exampleKey 1 7) where
  decrypt_encrypt cipherKey iv plaintextBytes := by
    refine congrArg Except.ok ?_
    rw [← length_append]
    exact drop_left
  verify_sign data := decide_eq_true rfl

def exampleCalls : List (Bytes × ℕ) := [([0x68, 0x69], 8), ([0xff], 9)]

def exampleSent : List (Bytes × Bytes) :=
  encryptCalls exampleManager exampleAddress exampleCalls exampleStore

def exampleFrameAt (position : ℕ) : Bytes := (exampleSent.map Prod.snd).getD position []

/-- The receiver after the second frame. -/
def exampleDelivered : SenderKeyStore :=
  receiverRun exampleManager exampleAddress
    (finalState (processSenderKeyDistribution exampleAddress exampleDistribution 9 .empty))
    [.receive (exampleFrameAt 1)]

theorem exampleFrames_delivered :
    (∃ next, exampleManager.decryptGroupMessage exampleAddress (exampleFrameAt 0) exampleDelivered =
      .ok "hi" next) ∧
    ∃ text, exampleManager.decryptGroupMessage exampleAddress (exampleFrameAt 1) exampleDelivered =
      .error (.encryption .messageDuplicate text) exampleDelivered := by
  have hsent : encryptCalls exampleManager exampleAddress exampleCalls exampleStore =
      [([0x68, 0x69], exampleFrameAt 0), ([0xff], exampleFrameAt 1)] := by
    decide
  have hrun : AdmissibleRun exampleManager exampleAddress (newState exampleKey 1 7)
      (encryptCalls exampleManager exampleAddress exampleCalls exampleStore)
      (finalState (processSenderKeyDistribution exampleAddress exampleDistribution 9
        (receiverRun exampleManager exampleAddress .empty []))) [.receive (exampleFrameAt 1)] := by
    refine ⟨⟨fun _ => ⟨by decide +kernel, by decide +kernel⟩, fun hnone => ?_⟩, ?_, trivial⟩
    · rw [hsent] at hnone
      exact absurd rfl (hnone ([0xff], exampleFrameAt 1) (mem_cons_of_mem _ mem_cons_self))
    · have hkey : (heldStates (receiverRun exampleManager exampleAddress
          (finalState (processSenderKeyDistribution exampleAddress exampleDistribution 9 .empty))
          [.receive (exampleFrameAt 1)]) exampleAddress).map SenderKeyState.senderKeyId =
          ["key-1"] := by
        decide
      exact mem_map.mp (hkey ▸ mem_singleton_self "key-1")
  obtain ⟨hdeliver, -⟩ := senderKey_delivery exampleManager exampleAddress exampleCalls []
    [.receive (exampleFrameAt 1)] 9 exampleCrypto_lawful exampleKey_uuid rfl rfl nofun hrun
  rw [hsent] at hdeliver
  obtain ⟨hfirst, -⟩ := hdeliver _ mem_cons_self
  obtain ⟨-, hagain⟩ := hdeliver _ (mem_cons_of_mem _ mem_cons_self)
  refine ⟨?_, hagain mem_cons_self⟩
  refine hfirst ?_ ⟨by decide +kernel, by decide +kernel⟩
  intro hmem
  have hsame := ReceiverEvent.receive.inj (mem_singleton.mp hmem)
  exact absurd hsame (by decide)

/-- The frames of a sender's calls parse, and their iterations rise, whichever of the calls fail. -/
theorem encryptCalls_iterations_rise (manager : SenderKeyManager) (calls : List (Bytes × ℕ))
    (position : ℕ) (huuid : IsUuid root.senderKeyId)
    (hcur : store.getSenderKey address = some (manager.advance^[position] root)) :
    (encryptCalls manager address calls store).Pairwise fun sent other =>
      ∃ message later, parseGroupMessage sent.2 = .ok message ∧
        parseGroupMessage other.2 = .ok later ∧ message.chainIndex < later.chainIndex := by
  induction calls generalizing store position with
  | nil => exact .nil
  | cons call calls ih =>
    rw [encryptCalls]
    cases hres : manager.encryptGroupMessage address call.1 call.2 store with
    | ok framed next =>
      obtain ⟨hfst, hnext⟩ := sentAt_of_encrypt hcur hres
      refine pairwise_cons.mpr ⟨fun other hother => ?_, ih _ hnext⟩
      obtain ⟨index, hlt, hat⟩ := (encryptCalls_sentAt manager calls _ huuid hnext).1 other hother
      obtain ⟨_, -, hparse⟩ := hfst.parse huuid
      obtain ⟨_, -, hlater⟩ := hat.parse huuid
      exact ⟨_, _, hparse, hlater, Nat.add_lt_add_left hlt _⟩
    | error error next =>
      rcases encryptGroupMessage_error hcur hres with hsame | hadvanced
      · exact ih _ hsame
      · rw [← Function.iterate_succ_apply' (f := manager.advance)] at hadvanced
        exact ih _ hadvanced

theorem exampleFrames_rise : exampleSent.Pairwise fun sent other =>
    ∃ message later, parseGroupMessage sent.2 = .ok message ∧
      parseGroupMessage other.2 = .ok later ∧ message.chainIndex < later.chainIndex :=
  encryptCalls_iterations_rise exampleManager exampleCalls 0 exampleKey_uuid rfl

end SignalProtocol.SenderKeys

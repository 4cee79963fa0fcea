import SignalProtocol.Proof.SpqrChains
import SignalProtocol.Proof.SpqrWire
import SignalProtocol.Proof.BraidAgreement

/-! # Epochs and labels

Root key and chain keys as a function of the epoch secrets, and the epoch and index under which a
message names its key. -/

namespace SignalProtocol.Spqr

open Braid Results List

section

variable (crypto : SpqrCrypto) (options : PairOptions) (info : ResolvedSPQRInfoStrings)

def EpochKeys.chainKey (keys : EpochKeys) : Side → Bytes
  | .alice => keys.a2bChainKey
  | .bob => keys.b2aChainKey

def firstEpochKeys : EpochKeys :=
  splitEpochKeys (crypto.braid.hkdf options.rootKey []
    (stringToBytes options.infoStrings.chainStart) 96)

def nextEpochKeys (keys : EpochKeys) (secret : Bytes) : EpochKeys :=
  splitEpochKeys (crypto.braid.hkdf secret keys.rootKey (stringToBytes info.chainAddEpoch) 96)

def epochKeysAfter (secrets : List Bytes) : EpochKeys :=
  secrets.foldl (nextEpochKeys crypto info) (firstEpochKeys crypto options)

def chainStart (secrets : List Bytes) (side : Side) (epoch : ℕ) : Bytes :=
  (epochKeysAfter crypto options info (secrets.take epoch)).chainKey side

end

section

variable {crypto : SpqrCrypto} {options : PairOptions} {info : ResolvedSPQRInfoStrings}

variable (crypto options info) in
theorem epochKeysAfter_eq_split (secrets : List Bytes) : ∃ ikm salt text,
    epochKeysAfter crypto options info secrets =
      splitEpochKeys (crypto.braid.hkdf ikm salt text 96) := by
  rcases secrets.eq_nil_or_concat with rfl | ⟨earlier, secret, rfl⟩
  · exact ⟨_, _, _, rfl⟩
  · rw [epochKeysAfter, concat_eq_append, foldl_append]
    exact ⟨_, _, _, rfl⟩

variable (hlaw : crypto.braid.Lawful)

include hlaw

theorem epochKeysAfter_length (secrets : List Bytes) :
    (epochKeysAfter crypto options info secrets).rootKey.length = 32 ∧
      ∀ side, ((epochKeysAfter crypto options info secrets).chainKey side).length = 32 := by
  obtain ⟨ikm, salt, text, hkeys⟩ :=
    epochKeysAfter_eq_split crypto options info secrets
  rw [hkeys]
  refine ⟨?_, fun side => ?_⟩
  · rw [splitEpochKeys, length_take, hlaw.hkdf_length]
    rfl
  · cases side <;>
      simp [splitEpochKeys, EpochKeys.chainKey, hlaw.hkdf_length]

theorem chainStart_length (secrets : List Bytes) (side : Side) (epoch : ℕ) :
    (chainStart crypto options info secrets side epoch).length = 32 :=
  (epochKeysAfter_length hlaw _).2 side

end

theorem chainStart_of_extends (crypto : SpqrCrypto) (options : PairOptions)
    (info : ResolvedSPQRInfoStrings) {secrets longer : List Bytes} (hext : secrets <+: longer)
    (side : Side) {epoch : ℕ} (hepoch : epoch ≤ secrets.length) :
    chainStart crypto options info longer side epoch = chainStart crypto options info secrets side epoch := by
  obtain ⟨rest, rfl⟩ := hext
  rw [chainStart, chainStart, List.take_append_of_le_length hepoch]

theorem orderChains_directionOf (side : Side) (keys : EpochKeys) :
    orderChains (directionOf side) keys =
      { send := ⟨keys.chainKey side, 0⟩, receive := ⟨keys.chainKey side.other, 0⟩ } := by
  cases side <;> rfl

abbrev Labels := ℕ → ℕ → Prop

theorem ReceivesFrom.with_wanted {crypto : SpqrCrypto} {infoString : String} {start : Bytes}
    {epoch : ℕ} {wanted wanted' used : ℕ → Prop} {state : SPQRState} {chains : EpochChains}
    (hrecv : ReceivesFrom crypto infoString start epoch wanted state chains)
    (hcounter : chains.receive.counter = 0 ∨ used chains.receive.counter)
    (hwanted : ∀ index, wanted' index →
      wanted index ∨ 0 < index ∧ ∀ earlier, used earlier → earlier < index) :
    ReceivesFrom crypto infoString start epoch wanted' state chains := by
  refine { hrecv with available := fun index hidx hle hheld => ?_ }
  rcases hwanted index hidx with hidx | ⟨hpos, habove⟩
  · exact hrecv.available index hidx hle hheld
  · rcases hcounter with hzero | hcounter
    · omega
    · have hlt := habove _ hcounter
      omega

def wireLabel (pqr : SPQRWireMessage) : Option (ℕ × ℕ) :=
  match pqr.epoch, pqr.chainIndex with
  | some epoch, some index => if 1 ≤ index then some (epoch - 1, index) else none
  | _, _ => none

def labelOf (msgBytes : Bytes) : Option (ℕ × ℕ) :=
  match decodeSPQRWire msgBytes with
  | .ok pqr => wireLabel pqr
  | .error _ => none

def NamesKey (crypto : SpqrCrypto) (infoString : String) (starts : ℕ → Bytes)
    (pqr : SPQRWireMessage) (messageKey : Option Bytes) : Prop :=
  (wireLabel pqr = none ∧ messageKey = none) ∨ ∃ epoch index, epoch ≤ maxUint32 ∧
    pqr.epoch = some (epoch + 1) ∧ pqr.chainIndex = some index ∧ 1 ≤ index ∧
    index ≤ maxIndex ∧ messageKey = some (messageKeyAt crypto infoString (starts epoch) index)

theorem wireLabel_eq {pqr : SPQRWireMessage} {epoch index : ℕ}
    (hepoch : pqr.epoch = some (epoch + 1)) (hidx : pqr.chainIndex = some index)
    (hpos : 1 ≤ index) : wireLabel pqr = some (epoch, index) := by
  simp [wireLabel, hepoch, hidx, hpos]

theorem spqrWireEpochToInternalEpoch_ok {epoch : ℕ} (hle : epoch ≤ maxUint32) :
    spqrWireEpochToInternalEpoch (epoch + 1) = .ok epoch := by
  simp only [maxUint32] at hle
  have hvalid : ¬ (epoch + 1 < 1 ∨ maxUint64 < epoch + 1) := by
    simp only [maxUint64]
    omega
  have hsafe : ¬ maxSafeInteger < epoch := by
    simp only [maxSafeInteger]
    omega
  rw [spqrWireEpochToInternalEpoch, assertUint64, if_neg hvalid, pure_eq_ok, ok_bind,
    bigintToSafeNumber, Nat.add_sub_cancel, if_neg hsafe]
  rfl

section

variable {crypto : SpqrCrypto}

theorem receiveKey_of_none {pqr : SPQRWireMessage} (hlabel : wireLabel pqr = none)
    (state : SPQRState) : receiveKey crypto pqr state = .ok none state := by
  obtain ⟨epoch, chainIndex, mode, _, _, _, _, _⟩ := pqr
  cases epoch with
  | none => rfl
  | some epoch =>
    cases chainIndex with
    | none => rfl
    | some index =>
      have hzero : ¬ 1 ≤ index := by
        intro hpos
        simp [wireLabel, hpos] at hlabel
      rw [receiveKey]
      dsimp only
      rw [if_neg hzero]
      rfl

theorem receiveKey_of_some {pqr : SPQRWireMessage} {epoch index : ℕ} (hle : epoch ≤ maxUint32)
    (hepoch : pqr.epoch = some (epoch + 1)) (hidx : pqr.chainIndex = some index)
    (hpos : 1 ≤ index) (state : SPQRState) :
    receiveKey crypto pqr state = deriveSPQRReceiveKey crypto index epoch state := by
  rw [receiveKey, hepoch, hidx]
  dsimp only
  rw [if_pos hpos, spqrWireEpochToInternalEpoch_ok hle, fromResult_ok_bind]

end

theorem negotiateVersion_eq {state : SPQRState} (hnegotiates : state.versionNegotiation.isSome) :
    negotiateVersion state = { state with versionNegotiation := some .complete } := by
  obtain ⟨status, hstatus⟩ := Option.isSome_iff_exists.mp hnegotiates
  rw [negotiateVersion, hstatus]
  cases status with
  | negotiating => rw [if_pos rfl]
  | complete =>
    rw [if_neg (by simp), ← hstatus]

structure NewKey (crypto : SpqrCrypto) (infoString : String) (starts : ℕ → Bytes) (used : Labels)
    (epoch : ℕ) (key : SPQRKeyResult) : Prop where
  epoch_eq : key.epoch = epoch
  messageKey_eq : key.messageKey = messageKeyAt crypto infoString (starts epoch) key.index
  index_pos : 0 < key.index
  index_le : key.index ≤ maxIndex
  above : ∀ earlier, used epoch earlier → earlier < key.index

def receiveCounter (state : SPQRState) (epoch : ℕ) : ℕ :=
  ((state.kdfChains.get? epoch).map fun chains => chains.receive.counter).getD 0

/-- The index of a message is neither too far ahead of the receive counter of its epoch nor too far
behind it. -/
def WithinLimits (state : SPQRState) (msgBytes : Bytes) : Prop :=
  ∀ epoch index, labelOf msgBytes = some (epoch, index) →
    index ≤ receiveCounter state epoch + state.resolvedLimits.maxMessageJump ∧
      receiveCounter state epoch ≤ index + state.resolvedLimits.maxOutOfOrderKeys

/-! ## Labels in a joint state

The labels of the messages that a party has sent, and those that its peer still waits for. -/

open Rs

variable {position index : ℕ}

def usedBy (party : SpqrParty) : Labels := fun epoch index =>
  ∃ message ∈ party.sent, labelOf message.msgBytes = some (epoch, index)

def waitsFor (party peer : SpqrParty) : Labels := fun epoch index =>
  ∃ position message, peer.sent[position]? = some message ∧ position ∉ party.delivered ∧
    labelOf message.msgBytes = some (epoch, index)

def AboveUsed (party : SpqrParty) (epoch index : ℕ) : Prop :=
  0 < index ∧ ∀ earlier, usedBy party epoch earlier → earlier < index

structure Labelled (party : SpqrParty) : Prop where
  pos : ∀ epoch index, usedBy party epoch index → 0 < index
  inj : ∀ (position other : ℕ) (message message' : SPQRSendResult) (label : ℕ × ℕ),
    party.sent[position]? = some message → party.sent[other]? = some message' →
    labelOf message.msgBytes = some label → labelOf message'.msgBytes = some label →
    position = other

section

variable {party peer : SpqrParty}

theorem Labelled.waitsFor_pos (hlabelled : Labelled peer) (epoch index : ℕ)
    (hwaits : waitsFor party peer epoch index) : 0 < index := by
  obtain ⟨position, message, hmsg, -, hlabel⟩ := hwaits
  exact hlabelled.pos epoch index ⟨message, mem_of_getElem? hmsg, hlabel⟩

variable {later : SpqrParty} {message : SPQRSendResult}

theorem usedBy_append (hsent : later.sent = party.sent ++ [message]) (epoch index : ℕ) :
    usedBy later epoch index ↔
      usedBy party epoch index ∨ labelOf message.msgBytes = some (epoch, index) := by
  simp only [usedBy, hsent, mem_append, mem_singleton, or_and_right, exists_or, exists_eq_left]

theorem Labelled.append (hlabelled : Labelled party)
    (hsent : later.sent = party.sent ++ [message])
    (hnew : ∀ epoch index, labelOf message.msgBytes = some (epoch, index) →
      AboveUsed party epoch index) : Labelled later := by
  have hfresh : ∀ earlier ∈ party.sent, ∀ label, labelOf earlier.msgBytes = some label →
      labelOf message.msgBytes ≠ some label := by
    intro earlier hprev label hused hlabel
    exact absurd ((hnew label.1 label.2 hlabel).2 label.2 ⟨earlier, hprev, hused⟩)
      (lt_irrefl _)
  constructor
  · intro epoch index hused
    rcases (usedBy_append hsent epoch index).mp hused with hused | hlabel
    · exact hlabelled.pos epoch index hused
    · exact (hnew epoch index hlabel).1
  · intro position other first second label hfst hsnd hlabel hlabel'
    rw [hsent] at hfst hsnd
    rcases getElem?_append_singleton hfst with hold | ⟨hlast, hval⟩ <;>
      rcases getElem?_append_singleton hsnd with hold' | ⟨hlast', hvalue'⟩
    · exact hlabelled.inj position other first second label hold hold' hlabel hlabel'
    · rw [hvalue'] at hlabel'
      exact absurd hlabel' (hfresh first (mem_of_getElem? hold) label hlabel)
    · rw [hval] at hlabel
      exact absurd hlabel (hfresh second (mem_of_getElem? hold') label hlabel')
    · rw [hlast, hlast']

theorem Labelled.of_sent_eq (hlabelled : Labelled party) (hsent : later.sent = party.sent) :
    Labelled later := by
  constructor
  · rintro epoch index ⟨found, hfound, hlabel⟩
    exact hlabelled.pos epoch index ⟨found, hsent ▸ hfound, hlabel⟩
  · intro position other first second label hfst hsnd
    rw [hsent] at hfst hsnd
    exact hlabelled.inj position other first second label hfst hsnd

variable {epoch : ℕ}

theorem waitsFor_of_sent_eq (hsent : later.sent = party.sent)
    (hwaits : waitsFor peer later epoch index) : waitsFor peer party epoch index := by
  obtain ⟨position, found, hfound, hrest⟩ := hwaits
  exact ⟨position, found, hsent ▸ hfound, hrest⟩

theorem waitsFor_append (hsent : later.sent = party.sent ++ [message])
    (hnew : ∀ epoch index, labelOf message.msgBytes = some (epoch, index) →
      AboveUsed party epoch index) (hwaits : waitsFor peer later epoch index) :
    waitsFor peer party epoch index ∨ AboveUsed party epoch index := by
  obtain ⟨position, found, hfound, hwait, hlabel⟩ := hwaits
  rw [hsent] at hfound
  rcases getElem?_append_singleton hfound with hfound | ⟨-, rfl⟩
  · exact .inl ⟨position, found, hfound, hwait, hlabel⟩
  · exact .inr (hnew epoch index hlabel)

theorem Labelled.waitsFor_deliver (hlabelled : Labelled peer)
    (hdeliv : later.delivered = position :: party.delivered)
    (hmsg : peer.sent[position]? = some message) (hwaits : waitsFor later peer epoch index) :
    waitsFor party peer epoch index ∧ labelOf message.msgBytes ≠ some (epoch, index) := by
  obtain ⟨other, found, hfound, hwait, hlabel⟩ := hwaits
  rw [hdeliv, mem_cons, not_or] at hwait
  exact ⟨⟨other, found, hfound, hwait.2, hlabel⟩, fun hsame =>
    hwait.1 (hlabelled.inj other position found message _ hfound hmsg hlabel hsame)⟩

end

/-! ## One party of a braid-mode pair

The chains of a party as a function of the epoch secrets, and what a call of `spqrSend` or
`spqrRecv` does to a state that follows them. -/

open OrderedMap

structure Emits (secrets : List Bytes) (keys : List OutputKey) : Prop where
  epochs : keys.map (·.epoch) = List.range' 1 keys.length
  secrets : keys.map (·.epochSecret) <+: secrets

structure SendsAbove (crypto : SpqrCrypto) (options : PairOptions) (secrets : List Bytes)
    (side : Side) (used : Labels) (state : SPQRState) (sendEpoch : ℕ) : Prop where
  sends : SendsFrom crypto spqrInfoStrings.chainNext (chainStart crypto options spqrInfoStrings secrets side)
    sendEpoch state
  used_le : ∀ epoch index, used epoch index → epoch ≤ sendEpoch
  used_current : ∀ index, used sendEpoch index → ∃ chains,
    state.kdfChains.get? sendEpoch = some chains ∧ index ≤ chains.send.counter

/-- The state of a party: its agent and its emitted keys, the labels used by its own messages and
by those of the peer, and the labels of the messages it still waits for. -/
structure Follows (crypto : SpqrCrypto) (options : PairOptions) (secrets : List Bytes)
    (side : Side) (agent : MLKEMBraidAgentState) (keys : List OutputKey)
    (used peerUsed wanted : Labels) (state : SPQRState) : Prop where
  emits : Emits secrets keys
  keys_length : keys.length ≤ 1
  mode_eq : state.mode = .braid
  braidState_eq : state.braidState = some agent
  negotiates : state.versionNegotiation.isSome
  direction_eq : state.direction = directionOf side
  infoStrings_eq : state.infoStrings = none
  epoch_eq : state.epoch = keys.length
  sckaEpoch_eq : state.sckaState.epoch = keys.length
  rootKey_eq : state.rootKey =
    (epochKeysAfter crypto options spqrInfoStrings (secrets.take keys.length)).rootKey
  chains_le : ∀ epoch chains, state.kdfChains.get? epoch = some chains → epoch ≤ keys.length
  held_le : ∀ name key, state.skippedKeys.get? name = some key → name.1 ≤ keys.length
  sending : ∃ sendEpoch ≤ keys.length, SendsAbove crypto options secrets side used state sendEpoch
  receiving : ∀ epoch ≤ keys.length, ∃ chains,
    (chains.receive.counter = 0 ∨ peerUsed epoch chains.receive.counter) ∧
    ReceivesFrom crypto spqrInfoStrings.chainNext
      (chainStart crypto options spqrInfoStrings secrets side.other epoch) epoch (wanted epoch) state chains

structure KeepsChains (count : ℕ) (state next : SPQRState) : Prop where
  limits_eq : next.limits = state.limits
  negotiation_eq : next.versionNegotiation = state.versionNegotiation
  chains_eq : ∀ epoch ≤ count, next.kdfChains.get? epoch = state.kdfChains.get? epoch

namespace Follows

variable {crypto : SpqrCrypto} {options : PairOptions} {secrets : List Bytes} {side : Side}
  {agent : MLKEMBraidAgentState} {keys : List OutputKey} {used peerUsed wanted : Labels}
  {state : SPQRState}
  (hfollow : Follows crypto options secrets side agent keys used peerUsed wanted state)

include hfollow

theorem keys_length_le : keys.length ≤ secrets.length := by
  simpa using hfollow.emits.secrets.length_le

theorem rootKey_length (hlaw : crypto.braid.Lawful) : state.rootKey.length = 32 := by
  rw [hfollow.rootKey_eq]
  exact (epochKeysAfter_length hlaw _).1

theorem rootKey_ne (hlaw : crypto.braid.Lawful) : state.rootKey ≠ [] := by
  intro hempty
  have hlen := hfollow.rootKey_length hlaw
  rw [hempty] at hlen
  cases hlen

theorem info_eq : state.resolvedInfoStrings = spqrInfoStrings := by
  rw [SPQRState.resolvedInfoStrings, hfollow.infoStrings_eq]
  rfl

theorem validate_ok (hlaw : crypto.braid.Lawful) : validateSPQRState state = .ok ⟨⟩ state :=
  validateSPQRState_ok (hfollow.rootKey_ne hlaw)

theorem with_agent (next : MLKEMBraidAgentState) {status : Option VersionStatus}
    (hstatus : status.isSome) :
    Follows crypto options secrets side next keys used peerUsed wanted
      { state with braidState := some next, versionNegotiation := status } where
  emits := hfollow.emits
  keys_length := hfollow.keys_length
  mode_eq := hfollow.mode_eq
  braidState_eq := rfl
  negotiates := hstatus
  direction_eq := hfollow.direction_eq
  infoStrings_eq := hfollow.infoStrings_eq
  epoch_eq := hfollow.epoch_eq
  sckaEpoch_eq := hfollow.sckaEpoch_eq
  rootKey_eq := hfollow.rootKey_eq
  chains_le := hfollow.chains_le
  held_le := hfollow.held_le
  sending := by
    obtain ⟨sendEpoch, hle, hsends⟩ := hfollow.sending
    exact ⟨sendEpoch, hle, ⟨hsends.sends.info_eq, hsends.sends.sendEpoch_eq,
      hsends.sends.chainKey, hsends.sends.unused⟩, hsends.used_le, hsends.used_current⟩
  receiving := by
    intro epoch hepoch
    obtain ⟨chains, hcounter, hrecv⟩ := hfollow.receiving epoch hepoch
    exact ⟨chains, hcounter, hrecv.info_eq, hrecv.get, hrecv.chainKey, hrecv.held, hrecv.available⟩

theorem with_secrets {longer : List Bytes} (hext : secrets <+: longer) :
    Follows crypto options longer side agent keys used peerUsed wanted state := by
  have hstart : ∀ side epoch, epoch ≤ keys.length →
      chainStart crypto options spqrInfoStrings longer side epoch =
        chainStart crypto options spqrInfoStrings secrets side epoch := fun side epoch hepoch =>
    chainStart_of_extends crypto options spqrInfoStrings hext side (hepoch.trans hfollow.keys_length_le)
  refine { hfollow with
    emits := ⟨hfollow.emits.epochs, hfollow.emits.secrets.trans hext⟩
    rootKey_eq := ?_
    sending := ?_
    receiving := ?_ }
  · obtain ⟨rest, rfl⟩ := hext
    rw [List.take_append_of_le_length hfollow.keys_length_le]
    exact hfollow.rootKey_eq
  · obtain ⟨sendEpoch, hle, hsends⟩ := hfollow.sending
    refine ⟨sendEpoch, hle, ⟨hsends.sends.info_eq, hsends.sends.sendEpoch_eq, ?_,
      hsends.sends.unused⟩, hsends.used_le, hsends.used_current⟩
    intro epoch chains hepoch hget
    rw [hstart side epoch (hfollow.chains_le epoch chains hget)]
    exact hsends.sends.chainKey epoch chains hepoch hget
  · intro epoch hepoch
    rw [hstart side.other epoch hepoch]
    exact hfollow.receiving epoch hepoch

theorem with_peerUsed {peerUsed' wanted' : Labels}
    (hused : ∀ epoch index, peerUsed epoch index → peerUsed' epoch index)
    (hwanted : ∀ epoch index, wanted' epoch index → wanted epoch index ∨
      0 < index ∧ ∀ earlier, peerUsed epoch earlier → earlier < index) :
    Follows crypto options secrets side agent keys used peerUsed' wanted' state := by
  refine { hfollow with receiving := fun epoch hepoch => ?_ }
  obtain ⟨chains, hcounter, hrecv⟩ := hfollow.receiving epoch hepoch
  exact ⟨chains, hcounter.imp_right (hused _ _), hrecv.with_wanted hcounter (hwanted epoch)⟩

theorem commitEpoch_follows {key : OutputKey} (hemits : Emits secrets (keys ++ [key]))
    (hlen : (keys ++ [key]).length ≤ 1) (hwanted : ∀ epoch index, wanted epoch index → 0 < index) :
    Follows crypto options secrets side agent (keys ++ [key]) used peerUsed wanted
      (commitEpoch state
        (epochKeysAfter crypto options spqrInfoStrings (secrets.take (keys ++ [key]).length)) .both
        (keys ++ [key]).length) := by
  have hcount : (keys ++ [key]).length = keys.length + 1 := by simp
  set nextKeys := epochKeysAfter crypto options spqrInfoStrings (secrets.take (keys ++ [key]).length) with hnextKeys
  have hordered : candidateChains state nextKeys .both (keys ++ [key]).length =
      { send := ⟨nextKeys.chainKey side, 0⟩, receive := ⟨nextKeys.chainKey side.other, 0⟩ } := by
    rw [candidateChains, hfollow.direction_eq]
    exact orderChains_directionOf side nextKeys
  have hget : ∀ epoch, (commitEpoch state nextKeys .both (keys ++ [key]).length).kdfChains.get?
      epoch = if epoch = (keys ++ [key]).length then
        some { send := ⟨nextKeys.chainKey side, 0⟩, receive := ⟨nextKeys.chainKey side.other, 0⟩ }
      else state.kdfChains.get? epoch := by
    intro epoch
    rw [commitEpoch, hordered]
    exact get?_set _ _ _ _
  refine {
    emits := hemits
    keys_length := hlen
    mode_eq := hfollow.mode_eq
    braidState_eq := hfollow.braidState_eq
    negotiates := hfollow.negotiates
    direction_eq := hfollow.direction_eq
    infoStrings_eq := hfollow.infoStrings_eq
    epoch_eq := rfl
    sckaEpoch_eq := rfl
    rootKey_eq := rfl
    chains_le := fun epoch chains hchains => ?_
    held_le := fun name held hheld => (hfollow.held_le name held hheld).trans (by omega)
    sending := ?_
    receiving := fun epoch hepoch => ?_ }
  · rw [hget] at hchains
    split at hchains
    · omega
    · exact (hfollow.chains_le epoch chains hchains).trans (by omega)
  · obtain ⟨sendEpoch, hle, hsends⟩ := hfollow.sending
    refine ⟨sendEpoch, by omega, ⟨hsends.sends.info_eq, hsends.sends.sendEpoch_eq,
      fun epoch chains hepoch hchains => ?_, fun epoch chains hepoch hchains => ?_⟩,
      hsends.used_le, fun index hidx => ?_⟩
    · rw [hget] at hchains
      split at hchains
      · rename_i heq
        cases hchains
        rw [heq]
        rfl
      · exact hsends.sends.chainKey epoch chains hepoch hchains
    · rw [hget] at hchains
      split at hchains
      · cases hchains
        rfl
      · exact hsends.sends.unused epoch chains hepoch hchains
    · rw [hget, if_neg (by omega)]
      exact hsends.used_current index hidx
  · rcases Nat.lt_or_eq_of_le hepoch with hprev | rfl
    · obtain ⟨chains, hcounter, hrecv⟩ := hfollow.receiving epoch (by omega)
      refine ⟨chains, hcounter, hrecv.info_eq, ?_, hrecv.chainKey, hrecv.held, hrecv.available⟩
      rw [hget, if_neg (by omega)]
      exact hrecv.get
    · refine ⟨_, .inl rfl, congrArg ResolvedSPQRInfoStrings.chainNext hfollow.info_eq,
        by rw [hget, if_pos rfl], rfl, fun index held hheld => ?_, fun index hidx hle => ?_⟩
      · have hle := hfollow.held_le _ held hheld
        dsimp only at hle
        omega
      · have hpos := hwanted _ index hidx
        dsimp only at hle
        omega

theorem addOutputKey_follows (hlaw : crypto.braid.Lawful) {outputKey : Option OutputKey}
    (hsecret : ∀ key, outputKey = some key → key.epochSecret.length = 32)
    (hemits : Emits secrets (keys ++ outputKey.toList))
    (hlen : (keys ++ outputKey.toList).length ≤ 1)
    (hwanted : ∀ epoch index, wanted epoch index → 0 < index) :
    ∃ next, addOutputKey crypto outputKey state = .ok ⟨⟩ next ∧
      KeepsChains keys.length state next ∧ Follows crypto options secrets side agent (keys ++ outputKey.toList) used peerUsed wanted
        next := by
  cases outputKey with
  | none =>
    refine ⟨state, rfl, ⟨rfl, rfl, fun _ _ => rfl⟩, ?_⟩
    rw [Option.toList_none, append_nil]
    exact hfollow
  | some key =>
    have hcount : (keys ++ [key]).length = keys.length + 1 := by simp
    refine ⟨_, ?_, ?_, hfollow.commitEpoch_follows hemits hlen hwanted⟩
    swap
    · exact ⟨rfl, rfl, fun epoch hepoch => get?_set_of_ne _ _ (by omega)⟩
    have hkeyEpoch : key.epoch = keys.length + 1 := by
      have hepochs := hemits.epochs
      simp only [Option.toList_some, map_append, map_cons, map_nil, hcount,
        List.range'_1_concat] at hepochs
      have hlast := (append_inj' hepochs rfl).2
      simp only [List.cons.injEq, and_true] at hlast
      omega
    have hnextEpoch : getNextSPQREpoch state = .ok (keys.length + 1) state := by
      rw [getNextSPQREpoch, bind_apply_ok (hfollow.validate_ok hlaw), get_bind,
        hfollow.epoch_eq, if_neg]
      · rfl
      · have hle := hfollow.keys_length
        simp only [maxSafeInteger]
        omega
    have hsecrets : secrets.take (keys.length + 1) =
        secrets.take keys.length ++ [key.epochSecret] := by
      obtain ⟨rest, hrest⟩ := hemits.secrets
      rw [← hrest]
      simp [List.take_append]
    have hkeys : epochKeysAfter crypto options spqrInfoStrings (secrets.take (keys.length + 1)) =
        splitEpochKeys (crypto.braid.hkdf key.epochSecret state.rootKey
          (stringToBytes spqrInfoStrings.chainAddEpoch) 96) := by
      rw [hsecrets, epochKeysAfter, foldl_append, ← epochKeysAfter, hfollow.rootKey_eq]
      rfl
    have hepochSecret : key.epochSecret.length = spqrEpochSecretLength := hsecret key rfl
    rw [addOutputKey, addSPQRBraidEpoch, bind_apply_ok hnextEpoch,
      if_neg (not_not.mpr hkeyEpoch), addSPQREpochSecret, bind_apply_ok hnextEpoch, get_bind,
      if_neg (not_not.mpr rfl),
      if_neg (not_not.mpr (hfollow.sckaEpoch_eq.trans hfollow.epoch_eq.symm)),
      if_neg (not_not.mpr hepochSecret),
      if_neg (not_not.mpr (hfollow.rootKey_length hlaw)), kdfSpqrEpoch,
      if_neg (not_not.mpr (hsecret key rfl)),
      if_neg (not_not.mpr (hfollow.rootKey_length hlaw)), hfollow.info_eq, pure_eq_ok,
      fromResult_ok_bind, ← hkeys, hcount]
    rfl

/-! ## The key of a send -/

/-- Moving the send epoch forward drops nothing: there are no epochs before the retained ones. -/
theorem atSendEpoch {sendEpoch epoch : ℕ}
    (hsends : SendsAbove crypto options secrets side used state sendEpoch)
    (hle : sendEpoch ≤ epoch) (hepoch : epoch ≤ keys.length) :
    Follows crypto options secrets side agent keys used peerUsed wanted
        (Spqr.atSendEpoch sendEpoch epoch state) ∧
      SendsAbove crypto options secrets side used (Spqr.atSendEpoch sendEpoch epoch state) epoch := by
  have hlen := hfollow.keys_length
  rcases Nat.lt_or_eq_of_le hle with hadv | rfl
  swap
  · rw [Spqr.atSendEpoch, if_neg (lt_irrefl _)]
    exact ⟨hfollow, hsends⟩
  have hnext : SendsAbove crypto options secrets side used
      (Spqr.atSendEpoch sendEpoch epoch state) epoch :=
    ⟨hsends.sends.atSendEpoch hle, fun other index hused => (hsends.used_le other index hused).trans
      hle, fun index hused => absurd (hsends.used_le epoch index hused) (not_le.mpr hadv)⟩
  have hkept : ∀ other, epoch - epochsToKeepPriorToSendEpoch ≤ other := by
    intro other
    simp only [epochsToKeepPriorToSendEpoch]
    omega
  refine ⟨?_, hnext⟩
  rw [Spqr.atSendEpoch, if_pos hadv] at hnext ⊢
  have hskip : ∀ name, (advanceSendEpoch epoch state).skippedKeys.get? name =
      state.skippedKeys.get? name := by
    intro name
    rw [advanceSendEpoch_skippedKeys, if_pos (hkept _)]
  refine { hfollow with
    chains_le := fun other chains hget => ?_
    held_le := fun name key hheld => hfollow.held_le name key (hskip name ▸ hheld)
    sending := ⟨epoch, hepoch, hnext⟩
    receiving := fun other hother => ?_ }
  · rw [advanceSendEpoch_get?, if_pos (hkept _)] at hget
    obtain ⟨found, hfound, -⟩ := Option.map_eq_some_iff.mp hget
    exact hfollow.chains_le other found hfound
  · obtain ⟨chains, hcounter, hrecv⟩ := hfollow.receiving other hother
    have hget := advanceSendEpoch_get? epoch state other
    rw [if_pos (hkept _), hrecv.get, Option.map_some] at hget
    refine ⟨_, ?_, hrecv.info_eq, hget, ?_, fun index key hheld =>
      hrecv.held index key (hskip _ ▸ hheld), fun index hidx hle hheld => ?_⟩
    · split <;> exact hcounter
    · split <;> exact hrecv.chainKey
    · rw [hskip]
      refine hrecv.available index hidx ?_ ?_
      · split at hle <;> exact hle
      · split at hheld <;> exact hheld

theorem storeSend {sendEpoch : ℕ}
    (hsends : SendsAbove crypto options secrets side used state sendEpoch) {chains : EpochChains}
    (hchains : state.kdfChains.get? sendEpoch = some chains) :
    Follows crypto options secrets side agent keys
      (fun epoch index => used epoch index ∨
        epoch = sendEpoch ∧ index = chains.send.counter + 1) peerUsed wanted
      (Spqr.storeSend state sendEpoch chains ⟨chainKeyAt crypto spqrInfoStrings.chainNext
          (chainStart crypto options spqrInfoStrings secrets side sendEpoch) (chains.send.counter + 1),
          chains.send.counter + 1⟩) := by
  have hle := hfollow.chains_le sendEpoch chains hchains
  have hget := get?_set state.kdfChains sendEpoch
  refine { hfollow with
    chains_le := fun epoch found hfound => ?_
    sending := ⟨sendEpoch, hle, ⟨hsends.sends.info_eq, hsends.sends.sendEpoch_eq,
      fun epoch found hepoch hfound => ?_, fun epoch found hepoch hfound => ?_⟩,
      fun epoch index hused => ?_, fun index hused => ⟨_, get?_set_self _ _ _, ?_⟩⟩
    receiving := fun epoch hepoch => ?_ }
  · replace hfound := (hget _ _).symm.trans hfound
    split at hfound
    · omega
    · exact hfollow.chains_le epoch found hfound
  · replace hfound := (hget _ _).symm.trans hfound
    split at hfound
    · rename_i heq
      cases hfound
      rw [heq]
    · exact hsends.sends.chainKey epoch found hepoch hfound
  · replace hfound := (hget _ _).symm.trans hfound
    rw [if_neg (by omega)] at hfound
    exact hsends.sends.unused epoch found hepoch hfound
  · rcases hused with hused | ⟨rfl, -⟩
    · exact hsends.used_le epoch index hused
    · exact le_rfl
  · rcases hused with hused | ⟨-, rfl⟩
    · obtain ⟨found, hfound, hidx⟩ := hsends.used_current index hused
      cases hchains.symm.trans hfound
      exact hidx.trans (Nat.le_succ _)
    · exact le_rfl
  · obtain ⟨found, hcounter, hrecv⟩ := hfollow.receiving epoch hepoch
    by_cases heq : epoch = sendEpoch
    · obtain rfl := heq
      cases hchains.symm.trans hrecv.get
      refine ⟨_, ?_, hrecv.info_eq, get?_set_self _ _ _, ?_, hrecv.held, ?_⟩
      · exact hcounter
      · exact hrecv.chainKey
      · exact hrecv.available
    · exact ⟨found, hcounter, hrecv.info_eq,
        (get?_set_of_ne _ _ heq).trans hrecv.get, hrecv.chainKey,
        hrecv.held, hrecv.available⟩

/-- A send derives no key, or the next key of the epoch, or fails; the state follows anyway. -/
theorem deriveSPQRSendKey_cases (hlaw : crypto.braid.Lawful) (epoch : ℕ) :
    (∃ error next, deriveSPQRSendKey crypto (some epoch) state = .error error next ∧
      Follows crypto options secrets side agent keys used peerUsed wanted next) ∨
    deriveSPQRSendKey crypto (some epoch) state = .ok none state ∨
    ∃ key next, deriveSPQRSendKey crypto (some epoch) state = .ok (some key) next ∧
      NewKey crypto spqrInfoStrings.chainNext
        (chainStart crypto options spqrInfoStrings secrets side) used epoch key ∧ epoch ≤ keys.length ∧
      Follows crypto options secrets side agent keys
        (fun other index => used other index ∨ other = epoch ∧ index = key.index)
        peerUsed wanted next := by
  obtain ⟨sendEpoch, -, hsends⟩ := hfollow.sending
  have hprev : state.sendEpoch.getD 0 = sendEpoch := by rw [hsends.sends.sendEpoch_eq]; rfl
  rw [deriveSPQRSendKey, bind_apply_ok (hfollow.validate_ok hlaw), get_bind]
  by_cases hcompl : isSpqrBootstrapComplete state = true
  swap
  · rw [if_neg hcompl]
    exact .inr (.inl rfl)
  rw [if_pos hcompl, Option.getD_some, hprev]
  cases hchains : state.kdfChains.get? epoch with
  | none => exact .inl ⟨_, state, rfl, hfollow⟩
  | some chains =>
    have hepoch := hfollow.chains_le epoch chains hchains
    rw [if_neg (by simp)]
    by_cases hdecreased : epoch < sendEpoch
    · rw [if_pos hdecreased]
      exact .inl ⟨_, state, rfl, hfollow⟩
    rw [if_neg hdecreased]
    obtain ⟨hatFollows, hatSends⟩ :=
      hfollow.atSendEpoch hsends (not_lt.mp hdecreased) hepoch
    rw [nextSendKey_atSendEpoch]
    rcases nextSendKey_cases hlaw (chainStart_length hlaw _ _ _) hatSends.sends.info_eq
        (fun chains hget => hatSends.sends.chainKey epoch chains le_rfl hget) with
      ⟨error, herr⟩ | ⟨found, hfound, hbound, hok⟩
    · rw [bind_apply_error herr]
      exact .inl ⟨error, _, rfl, hatFollows⟩
    · rw [bind_apply_ok hok]
      refine .inr (.inr ⟨_, _, rfl, ⟨rfl, rfl, Nat.succ_pos _, hbound, fun earlier hused => ?_⟩,
        hepoch, hatFollows.storeSend hatSends hfound⟩)
      obtain ⟨current, hcur, hle⟩ := hatSends.used_current earlier hused
      cases hfound.symm.trans hcur
      exact Nat.lt_succ_of_le hle

/-- Whatever the outcome, a receive waits for all other labels as before. -/
theorem deriveSPQRReceiveKey_follows (hlaw : crypto.braid.Lawful) {epoch index : ℕ}
    (hepoch : epoch ≤ keys.length) (hused : peerUsed epoch index) :
    Follows crypto options secrets side agent keys used peerUsed
      (fun other position => wanted other position ∧ ¬ (other = epoch ∧ position = index))
      (finalState (deriveSPQRReceiveKey crypto index epoch state)) := by
  obtain ⟨chains, hcounter, hrecv⟩ := hfollow.receiving epoch hepoch
  obtain ⟨honly, chains', hcounter', hreceives'⟩ := deriveSPQRReceiveKey_keeps hlaw
    (chainStart_length hlaw _ _ _) hrecv (hfollow.rootKey_ne hlaw) index
  set next := finalState (deriveSPQRReceiveKey crypto index epoch state)
  have hinfo : next.infoStrings = state.infoStrings := by rw [honly.rest]
  have hlimits : next.resolvedLimits = state.resolvedLimits := by rw [honly.rest]; rfl
  have hresolve : next.resolvedInfoStrings = state.resolvedInfoStrings := by
    rw [honly.rest]
    rfl
  have hchain : ∀ other chains, next.kdfChains.get? other = some chains →
      ∃ found, state.kdfChains.get? other = some found ∧ found.send = chains.send := by
    intro other chains hchains
    have hsend := honly.send other
    rw [hchains, Option.map_some] at hsend
    exact Option.map_eq_some_iff.mp hsend.symm
  refine {
    emits := hfollow.emits
    keys_length := hfollow.keys_length
    mode_eq := by rw [honly.rest]; exact hfollow.mode_eq
    braidState_eq := by rw [honly.rest]; exact hfollow.braidState_eq
    negotiates := by rw [honly.rest]; exact hfollow.negotiates
    direction_eq := by rw [honly.rest]; exact hfollow.direction_eq
    infoStrings_eq := hinfo.trans hfollow.infoStrings_eq
    epoch_eq := by rw [honly.rest]; exact hfollow.epoch_eq
    sckaEpoch_eq := by rw [honly.rest]; exact hfollow.sckaEpoch_eq
    rootKey_eq := by rw [honly.rest]; exact hfollow.rootKey_eq
    chains_le := fun other chains hchains => ?_
    held_le := fun name key hheld => ?_
    sending := ?_
    receiving := fun other hother => ?_ }
  · obtain ⟨found, hfound, -⟩ := hchain other chains hchains
    exact hfollow.chains_le other found hfound
  · by_cases hname : name.1 = epoch
    · exact hname.trans_le hepoch
    · exact hfollow.held_le name key ((honly.skipped_of_ne name hname).symm.trans hheld)
  · obtain ⟨sendEpoch, hle, hsends⟩ := hfollow.sending
    refine ⟨sendEpoch, hle, ⟨hresolve ▸ hsends.sends.info_eq, ?_, fun other chains hother hget =>
      ?_, fun other chains hother hget => ?_⟩, hsends.used_le, fun position hpos => ?_⟩
    · rw [honly.rest]
      exact hsends.sends.sendEpoch_eq
    · obtain ⟨found, hfound, hsend⟩ := hchain other chains hget
      rw [← hsend]
      exact hsends.sends.chainKey other found hother hfound
    · obtain ⟨found, hfound, hsend⟩ := hchain other chains hget
      rw [← hsend]
      exact hsends.sends.unused other found hother hfound
    · obtain ⟨found, hfound, hle⟩ := hsends.used_current position hpos
      have hsend := honly.send sendEpoch
      rw [hfound, Option.map_some] at hsend
      obtain ⟨stored, hstored, hstoredSend⟩ := Option.map_eq_some_iff.mp hsend
      exact ⟨stored, hstored, by rw [hstoredSend]; exact hle⟩
  · by_cases heq : other = epoch
    · obtain rfl := heq
      refine ⟨chains', ?_, { hreceives' with
        available := fun position hpos => hreceives'.available position
          ⟨hpos.1, fun hsame => hpos.2 ⟨rfl, hsame⟩⟩ }⟩
      rcases hcounter' with hsame | hmoved
      · rw [hsame]
        exact hcounter
      · rw [hmoved]
        exact .inr hused
    · obtain ⟨found, hfoundCounter, hfound⟩ := hfollow.receiving other hother
      have hskip : ∀ position, next.skippedKeys.get? (other, position) =
          state.skippedKeys.get? (other, position) :=
        fun position => honly.skipped_of_ne (other, position) heq
      refine ⟨found, hfoundCounter, hresolve ▸ hfound.info_eq,
        (honly.chains_of_ne other heq).trans hfound.get, hfound.chainKey,
        fun position key hheld => hfound.held position key (hskip position ▸ hheld),
        fun position hpos hle hheld => ?_⟩
      rw [hskip]
      exact hfound.available position hpos.1 hle (hlimits ▸ hheld)

end Follows

/-- What a party sends: nothing, or bytes that carry at most one chunk of its agent, and the label
of the key that was returned with them. -/
inductive Sound (crypto : SpqrCrypto) (options : PairOptions) (secrets : List Bytes)
    (side : Side) (sent : List MLKEMBraidMessage) (message : SPQRSendResult) : Prop where
  | silent (hbytes : message.msgBytes = []) (hkey : message.messageKey = none)
  | wire (pqr : SPQRWireMessage) (hbytes : message.msgBytes ≠ [])
      (hdecode : decodeSPQRWire message.msgBytes = .ok pqr) (hmode : pqr.mode ≠ .direct)
      (hchunk : pqr.mode = .braid → ∃ chunk ∈ sent, chunk.type ≠ .none ∧
        receivedChunk pqr = .ok chunk)
      (hkey : NamesKey crypto spqrInfoStrings.chainNext
        (chainStart crypto options spqrInfoStrings secrets side) pqr message.messageKey)

theorem wireMessageOf_encodable (result : SendResult) (key : Option SPQRKeyResult) {wireEpoch : ℕ}
    (hframed : Framed result.message) (hpos : 1 ≤ wireEpoch) (hle : wireEpoch ≤ 2)
    (hidx : ∀ found, key = some found → found.index ≤ maxIndex) :
    Encodable (wireMessageOf {} (chunkOf result) key wireEpoch) := by
  refine ⟨⟨wireEpoch, rfl, hpos, hle.trans (by decide)⟩, ?_, ?_⟩
  · cases key with
    | none => exact Nat.zero_le _
    | some found => exact (hidx found rfl).trans (by decide)
  · cases hframed with
    | bare htype hchunkIndex hdata =>
      rcases htype with htype | htype
      · have hchunk : chunkOf result = none := by rw [chunkOf, if_pos htype]
        rw [hchunk]
        exact .none rfl rfl rfl rfl rfl rfl
      · have hchunk : chunkOf result = some result.message := by
          rw [chunkOf, if_neg (by simp [htype])]
        rw [hchunk]
        exact .acknowledgment rfl (congrArg some htype) hchunkIndex hdata rfl rfl
    | chunk index data htype hchunkIndex hdata hbound hlen =>
      have hchunk : chunkOf result = some result.message := by
        rw [chunkOf, if_neg htype.1]
      rw [hchunk]
      exact .chunk _ index data rfl rfl (by simpa [braidMessageTypeRequiresChunk] using htype)
        hchunkIndex hbound hdata hlen rfl rfl

theorem receivedChunk_wireMessageOf {result : SendResult} {key : Option SPQRKeyResult}
    (hpos : 1 ≤ result.message.epoch) (hle : result.message.epoch ≤ 2)
    (htype : result.message.type ≠ .none) :
    receivedChunk (decodedForm (wireMessageOf {} (chunkOf result) key result.message.epoch)) =
      .ok result.message := by
  have hvalid : ¬ (result.message.epoch < 1 ∨ maxUint64 < result.message.epoch) := by
    simp only [maxUint64]
    omega
  rw [chunkOf, if_neg htype, receivedChunk, spqrWireEpochToBigInt, assertUint64]
  simp only [decodedForm, wireMessageOf, Option.getD_some, if_neg hvalid]
  rfl

theorem sendKem_braid {state : SPQRState} (hmode : state.mode = .braid) (crypto : SpqrCrypto)
    (randomBytes : RandomBytes) : sendKem crypto randomBytes state = .ok {} state := by
  rw [sendKem, get_bind, if_neg (by simp [hmode])]
  rfl

end SignalProtocol.Spqr

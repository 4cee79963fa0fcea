import SignalProtocol.Proof.AgentEpoch
import SignalProtocol.Proof.SpqrSendChain

/-! # The first hand-over

The message that would make the waiting party the key side of the next epoch is of type `None`,
and `spqrSend` never puts its chunk on the wire. -/

namespace SignalProtocol.Spqr

open Braid Rs Results

variable {side : Side}

/-- A party has sent its second ciphertext component in an epoch that the other one has
completed. -/
structure WaitsForSwap (joint : SpqrJoint) (side : Side) (epoch : ℕ) : Prop where
  waiting : ∃ agent, (joint side).state.braidState = some agent ∧ agent.state = .ct2Sampled ∧
    agent.epoch = epoch
  finished : ∃ agent, (joint side.other).state.braidState = some agent ∧
    agent.state = .noHeaderReceived ∧ agent.epoch = epoch + 1

/-- Delivering a message of the other party makes a party the key side of an epoch. -/
def TakesOver (crypto : SpqrCrypto) (field : GaloisField16) (joint : SpqrJoint) (side : Side)
    (epoch position : ℕ) (message : SPQRSendResult) : Prop :=
  ∃ agent, ((joint side).receive crypto field position message).state.braidState = some agent ∧
    agent.state = .keysUnsampled ∧ agent.epoch = epoch

section

variable {field : GaloisField16} {K : Type*} [Field K] {I : field.Interpretation K}
  {crypto : SpqrCrypto} {options : PairOptions} {braid : Joint} {joint : SpqrJoint}

theorem KeySide.isAliceState {crypto : BraidCrypto} {epoch : ℕ} {data : EpochData}
    {agent : MLKEMBraidAgentState} (hside : KeySide I crypto epoch data agent) :
    agent.state.isAliceState = true := by
  cases hside with
  | keysUnsampled hstate | keysSampled hstate | headerSent hstate | ct1Received hstate
  | ekSentCt1Received hstate => rw [hstate]; rfl

theorem Tracks.waitsForSwap_iff (htracks : Tracks I crypto options braid joint) (side : Side)
    (epoch : ℕ) :
    WaitsForSwap joint side epoch ↔ side = .bob ∧ epoch = 1 ∧ HandedOver I crypto.braid braid := by
  have hagent : ∀ side agent, (joint side).state.braidState = some agent →
      agent = (braid side).agent := fun side agent hstored =>
    Option.some.inj (hstored.symm.trans (htracks.follows side).braidState_eq)
  constructor
  · rintro ⟨⟨agent, hstored, hstate, hepoch⟩, ⟨peer, hpeer, hpeerState, -⟩⟩
    obtain rfl := hagent side agent hstored
    obtain rfl := hagent side.other peer hpeer
    rcases htracks.first with ⟨data, halign⟩ | hhanded
    · have halice := KeySide.isAliceState halign.keySide
      cases side with
      | alice => simp [hstate, MLKEMBraidState.isAliceState] at halice
      | bob => simp [Side.other] at hpeerState; simp [hpeerState, MLKEMBraidState.isAliceState] at halice
    · obtain ⟨data, hover⟩ := hhanded
      cases side with
      | alice =>
        rw [hover.completed] at hstate
        simp [nextCiphertextSide] at hstate
      | bob => exact ⟨rfl, hepoch.symm.trans hover.waitingSide.epoch_eq, data, hover⟩
  · rintro ⟨rfl, rfl, data, hover⟩
    refine ⟨⟨_, (htracks.follows .bob).braidState_eq, hover.waiting_state,
      hover.waitingSide.epoch_eq⟩, ⟨_, (htracks.follows .alice).braidState_eq, ?_, ?_⟩⟩
    · rw [hover.completed]
      rfl
    · rw [hover.completed]
      rfl

theorem Tracks.keepsWaiting (hlaw : crypto.braid.Lawful)
    (htracks : Tracks I crypto options braid joint) {epoch : ℕ}
    (hwaits : WaitsForSwap joint side epoch) {next : SpqrJoint}
    (hstep : SpqrStep crypto field joint next) : WaitsForSwap next side epoch := by
  obtain ⟨rfl, rfl, hhanded⟩ := (htracks.waitsForSwap_iff side epoch).mp hwaits
  cases hstep with
  | send actor randomBytes hrandom =>
    exact ((htracks.send hlaw actor hrandom).waitsForSwap_iff _ _).mpr
      ⟨rfl, rfl, (HandedOver.send hhanded hlaw actor randomBytes).2⟩
  | receive actor position message hmsg =>
    obtain ⟨after, hkeeps, hafter⟩ := htracks.receive hlaw actor hmsg
    exact (hafter.waitsForSwap_iff _ _).mpr ⟨rfl, rfl, hkeeps hhanded⟩

theorem Tracks.not_takesOver (hlaw : crypto.braid.Lawful)
    (htracks : Tracks I crypto options braid joint) {epoch position : ℕ}
    (hwaits : WaitsForSwap joint side epoch) {message : SPQRSendResult}
    (hmsg : (joint side.other).sent[position]? = some message) :
    ¬ TakesOver crypto field joint side (epoch + 1) position message := by
  rintro ⟨agent, hagent, hstate, -⟩
  obtain ⟨⟨waiting, hwait, hwaitingState, -⟩, -⟩ := htracks.keepsWaiting hlaw hwaits
    (.receive side position message hmsg)
  rw [Function.update_self, hagent, Option.some.injEq] at hwait
  rw [← hwait, hstate] at hwaitingState
  cases hwaitingState

theorem Tracks.epoch_le (htracks : Tracks I crypto options braid joint) (side : Side) :
    (joint side).state.epoch ≤ 1 := by
  rw [(htracks.follows side).epoch_eq]
  exact (htracks.follows side).keys_length

end

/-- The epochs of the braid do not turn over on the wire: whatever the other party sends, a party
that waits for the swap stays where it is, and no run from here takes either party beyond the first
epoch. -/
theorem spqr_braid_never_takes_over {crypto : SpqrCrypto} (hlawful : crypto.braid.Lawful)
    {options : PairOptions} {joint : SpqrJoint}
    (hreachable : (spqrSystem crypto gf16 (initializeSPQRBraid crypto) options).Reachable joint) :
    (∀ side epoch, WaitsForSwap joint side epoch →
      (∀ position message, (joint side.other).sent[position]? = some message →
        ¬ TakesOver crypto gf16 joint side (epoch + 1) position message) ∧
      ∀ next, SpqrStep crypto gf16 joint next → WaitsForSwap next side epoch) ∧
    ∀ later, Relation.ReflTransGen (SpqrStep crypto gf16) joint later →
      ∀ side, (later side).state.epoch ≤ 1 := by
  obtain ⟨K, inst, ⟨I⟩⟩ := TableField.gf16_implementsField
  refine ⟨fun side epoch hwaits => ?_, fun later hrun side => ?_⟩
  · obtain ⟨braid, htracks⟩ := Tracks.of_reachable (I := I) hlawful hreachable
    exact ⟨fun position message hmessage => htracks.not_takesOver hlawful hwaits hmessage,
      fun next hstep => htracks.keepsWaiting hlawful hwaits hstep⟩
  · obtain ⟨start, hstart, hbefore⟩ := hreachable
    obtain ⟨braid, htracks⟩ := Tracks.of_reachable (I := I) hlawful
      ⟨start, hstart, hbefore.trans hrun⟩
    exact htracks.epoch_le side

structure SpqrPair where
  alice : SpqrParty
  bob : SpqrParty

def SpqrPair.get (pair : SpqrPair) : Side → SpqrParty
  | .alice => pair.alice
  | .bob => pair.bob

def SpqrPair.set (pair : SpqrPair) (party : SpqrParty) : Side → SpqrPair
  | .alice => { pair with alice := party }
  | .bob => { pair with bob := party }

theorem SpqrPair.get_set (pair : SpqrPair) (side : Side) (party : SpqrParty) :
    (pair.set party side).get = Function.update pair.get side party := by
  funext actor
  cases side <;> cases actor <;> rfl

def SpqrPair.send (pair : SpqrPair) (side : Side) : SpqrPair :=
  pair.set ((pair.get side).send plainSpqrCrypto gf16 sevens) side

def SpqrPair.exchange (pair : SpqrPair) (side : Side) : SpqrPair :=
  let sent := pair.send side
  let position := (sent.get side).sent.length - 1
  match (sent.get side).sent[position]? with
  | none => sent
  | some message =>
    sent.set ((sent.get side.other).receive plainSpqrCrypto gf16 position message) side.other

abbrev plainSystem : TransitionSystem SpqrJoint :=
  spqrSystem plainSpqrCrypto gf16 (initializeSPQRBraid plainSpqrCrypto) { rootKey := plainSecret }

variable {pair : SpqrPair}

theorem SpqrPair.send_reachable (hreach : plainSystem.Reachable pair.get)
    (side : Side) : plainSystem.Reachable (pair.send side).get := by
  rw [SpqrPair.send, SpqrPair.get_set]
  exact hreach.step (.send side sevens fun _ => List.length_replicate)

theorem SpqrPair.exchange_reachable (hreach : plainSystem.Reachable pair.get) (side : Side) :
    plainSystem.Reachable (pair.exchange side).get := by
  have hsent := SpqrPair.send_reachable hreach side
  rw [SpqrPair.exchange]
  split
  · exact hsent
  · rename_i message hmsg
    rw [SpqrPair.get_set]
    exact hsent.step (.receive side.other _ message (by rw [Side.other_other]; exact hmsg))

theorem SpqrPair.run_reachable (senders : List Side) (hreach : plainSystem.Reachable pair.get) :
    plainSystem.Reachable (senders.foldl SpqrPair.exchange pair).get := by
  induction senders generalizing pair with
  | nil => exact hreach
  | cons side senders ih => exact ih (SpqrPair.exchange_reachable hreach side)

/-- The header, the first ciphertext component, the encapsulation key and the second ciphertext
component, each in as many messages as it has chunks. -/
def firstEpochSenders : List Side :=
  List.replicate 3 .alice ++ List.replicate 30 .bob ++ List.replicate 36 .alice ++
    List.replicate 5 .bob

/-- Both parties after the first epoch, and after Alice's next message. -/
def handOverPair : SpqrPair :=
  (firstEpochSenders.foldl SpqrPair.exchange ⟨plainPair .alice, plainPair .bob⟩).send .alice

theorem handOverPair_reachable : plainSystem.Reachable handOverPair.get := by
  have hstart : plainSystem.Reachable
      (SpqrPair.mk (plainPair .alice) (plainPair .bob)).get := by
    have hsame : (SpqrPair.mk (plainPair .alice) (plainPair .bob)).get = plainPair := by
      funext side
      cases side <;> rfl
    rw [hsame]
    exact .of_init plainPair_start
  exact SpqrPair.send_reachable (SpqrPair.run_reachable firstEpochSenders hstart) .alice

theorem handOverPair_facts :
    ((handOverPair.get .bob).state.braidState.map fun agent => (agent.state, agent.epoch)) =
      some (.ct2Sampled, 1) ∧
    ((handOverPair.get Side.bob.other).state.braidState.map fun agent => (agent.state, agent.epoch)) =
      some (.noHeaderReceived, 2) ∧
    (handOverPair.get Side.bob.other).sent[39]? = some ⟨[1, 2, 1, 0], some plainSecret⟩ ∧
    (handOverPair.get .alice).state.epoch ≤
      max ((handOverPair.get .alice).state.sendEpoch.getD 0) 1 := by
  decide +kernel

theorem handOverPair_waits : WaitsForSwap handOverPair.get .bob 1 := by
  obtain ⟨hbob, halice, -⟩ := handOverPair_facts
  obtain ⟨waiting, hwait, hwaitingState⟩ := Option.map_eq_some_iff.mp hbob
  obtain ⟨finished, hfin, hfinishedState⟩ := Option.map_eq_some_iff.mp halice
  rw [Prod.mk.injEq] at hwaitingState hfinishedState
  exact ⟨⟨waiting, hwait, hwaitingState⟩, ⟨finished, hfin, hfinishedState⟩⟩

/-- Bob waits for the swap, Alice's next message does not bring it about, and no schedule takes both
parties beyond the first epoch. -/
theorem handOverPair_stuck : plainSystem.Reachable handOverPair.get ∧
    WaitsForSwap handOverPair.get .bob 1 ∧
    (handOverPair.get Side.bob.other).sent[39]? = some ⟨[1, 2, 1, 0], some plainSecret⟩ ∧
    ¬ TakesOver plainSpqrCrypto gf16 handOverPair.get .bob 2 39
      ⟨[1, 2, 1, 0], some plainSecret⟩ ∧
    ¬ ∃ later, Relation.ReflTransGen (SpqrStep plainSpqrCrypto gf16) handOverPair.get later ∧
      ∀ side, 1 < (later side).state.epoch := by
  obtain ⟨K, inst, ⟨I⟩⟩ := TableField.gf16_implementsField
  have hreachable := handOverPair_reachable
  obtain ⟨braid, htracks⟩ := Tracks.of_reachable (I := I) plainSpqrCrypto_lawful hreachable
  obtain ⟨-, -, hsent, -⟩ := handOverPair_facts
  refine ⟨hreachable, handOverPair_waits, hsent, htracks.not_takesOver plainSpqrCrypto_lawful
    handOverPair_waits hsent, ?_⟩
  rintro ⟨later, hrun, hepochs⟩
  obtain ⟨start, hstart, hbefore⟩ := hreachable
  obtain ⟨braid', htracks'⟩ := Tracks.of_reachable (I := I) plainSpqrCrypto_lawful
    ⟨start, hstart, hbefore.trans hrun⟩
  exact absurd (hepochs .alice) (not_lt.mpr (htracks'.epoch_le .alice))

/-- At the hand-over, Alice's next message leaves Bob where he is. -/
theorem spqr_braid_never_takes_over_handOver :
    ¬ TakesOver plainSpqrCrypto gf16 handOverPair.get .bob 2 39
      ⟨[1, 2, 1, 0], some plainSecret⟩ ∧
    (handOverPair.get .bob).state.epoch ≤ 1 := by
  have hnever := spqr_braid_never_takes_over plainSpqrCrypto_lawful handOverPair_reachable
  exact ⟨(hnever.1 .bob 1 handOverPair_waits).1 39 _ handOverPair_facts.2.2.1, hnever.2 _ .refl .bob⟩

/-! ## The retention window

The epochs of one party that still have a chain, next to those that a receive accepts. -/

open OrderedMap

variable {agent : MLKEMBraidAgentState}
  {chains : EpochChains} {error : ProtocolError} {options : SPQRInitOptions}

inductive PartyStep (crypto : SpqrCrypto) (field : GaloisField16) (state : SPQRState) :
    SPQRState → Prop where
  | send (randomBytes : RandomBytes) :
      PartyStep crypto field state (finalState (spqrSend crypto field randomBytes state))
  | receive (msgBytes : Option Bytes) :
      PartyStep crypto field state (finalState (spqrRecv crypto field msgBytes state))

def partySystem (crypto : SpqrCrypto) (field : GaloisField16) (options : SPQRInitOptions) :
    TransitionSystem SPQRState where
  init state := initializeSPQRBraid crypto options = .ok state
  step := PartyStep crypto field

/-- The refusal of an epoch that is further back than the retained ones. -/
def epochTooOld (epoch oldestEpoch : ℕ) : ProtocolError :=
  .encryption .spqrEpochOutOfRange s!"Epoch too old: {epoch} < oldest kept {oldestEpoch}"

def RefusesAsTooOld (crypto : SpqrCrypto) (state : SPQRState) (index epoch : ℕ) : Prop :=
  ∃ oldestEpoch final, deriveSPQRReceiveKey crypto index epoch state =
    .error (epochTooOld epoch oldestEpoch) final

def SendNeeds (crypto : SpqrCrypto) (field : GaloisField16) (state : SPQRState) (epoch : ℕ) :
    Prop :=
  ∃ randomBytes kem middle result next override,
    sendKem crypto randomBytes state = .ok kem middle ∧
    sendBraid crypto field randomBytes middle = .ok result next ∧
    sendKeyEpoch result = .ok override ∧ override.getD next.epoch = epoch

structure Windowed (floor : ℕ) (state : SPQRState) : Prop where
  mode_eq : state.mode = .braid
  agent : ∃ agent, state.braidState = some agent ∧ state.epoch ≤ agent.epoch
  floor_le : floor ≤ state.epoch
  sendEpoch_le : state.sendEpoch.getD 0 ≤ state.epoch
  window : ∀ epoch, (state.kdfChains.get? epoch).isSome ↔
    state.sendEpoch.getD 0 ≤ epoch + 1 ∧ epoch ≤ state.epoch

section

variable {crypto : SpqrCrypto} {field : GaloisField16} {floor : ℕ} {state : SPQRState}
  (randomBytes : RandomBytes) (pqr : SPQRWireMessage)

namespace Windowed

section

variable (hwind : Windowed floor state)

include hwind

theorem epoch_le_agent (hagent : state.braidState = some agent) : state.epoch ≤ agent.epoch := by
  obtain ⟨found, hfound, hle⟩ := hwind.agent
  cases hfound.symm.trans hagent
  exact hle

/-- The window depends on the epochs with a chain, not on the chains. -/
theorem of_same {next : SPQRState}
    (hmode : next.mode = state.mode) (hbraid : next.braidState = state.braidState)
    (hepoch : next.epoch = state.epoch) (hsendEpoch : next.sendEpoch = state.sendEpoch)
    (hchains : ∀ epoch, (next.kdfChains.get? epoch).isSome = (state.kdfChains.get? epoch).isSome) :
    Windowed floor next where
  mode_eq := hmode.trans hwind.mode_eq
  agent := by rw [hbraid, hepoch]; exact hwind.agent
  floor_le := by rw [hepoch]; exact hwind.floor_le
  sendEpoch_le := by rw [hsendEpoch, hepoch]; exact hwind.sendEpoch_le
  window epoch := by rw [hchains, hsendEpoch, hepoch]; exact hwind.window epoch

theorem with_agent (hle : state.epoch ≤ agent.epoch) :
    Windowed floor { state with braidState := some agent } :=
  { hwind with
    agent := ⟨agent, rfl, hle⟩ }

theorem commitEpoch (keys : EpochKeys)
    (hagent : ∃ agent, state.braidState = some agent ∧ state.epoch + 1 ≤ agent.epoch) :
    Windowed floor (commitEpoch state keys .both (state.epoch + 1)) where
  mode_eq := hwind.mode_eq
  agent := hagent
  floor_le := hwind.floor_le.trans (Nat.le_succ _)
  sendEpoch_le := hwind.sendEpoch_le.trans (Nat.le_succ _)
  window epoch := by
    have hwin := hwind.window epoch
    have hle := hwind.sendEpoch_le
    simp only [Spqr.commitEpoch, get?_set]
    split
    · rename_i heq
      simp only [Option.isSome_some, true_iff]
      omega
    · rw [hwin]
      omega

variable {epoch : ℕ}

theorem atSendEpoch (hle : epoch ≤ state.epoch) :
    Windowed floor (atSendEpoch (state.sendEpoch.getD 0) epoch state) := by
  rw [Spqr.atSendEpoch]
  split
  · rename_i hadv
    refine ⟨hwind.mode_eq, hwind.agent, hwind.floor_le, hle, fun other => ?_⟩
    have hwin := hwind.window other
    change _ ↔ epoch ≤ other + 1 ∧ other ≤ state.epoch
    rw [advanceSendEpoch_get?, epochsToKeepPriorToSendEpoch]
    split
    · rw [Option.isSome_map, hwin]
      omega
    · simp only [Option.isSome_none, Bool.false_eq_true, false_iff]
      omega
  · exact hwind

theorem storeSend (hget : state.kdfChains.get? epoch = some chains) (chain : KDFChain) :
    Windowed floor (storeSend state epoch chains chain) := by
  refine hwind.of_same rfl rfl rfl rfl fun other => ?_
  rw [Spqr.storeSend, get?_set]
  split
  · rename_i heq
    rw [heq, hget]
    rfl
  · rfl

end

end Windowed

/-! ## The steps of the party -/

theorem addOutputKey_commits (crypto : SpqrCrypto) (outputKey : Option OutputKey)
    (state : SPQRState) :
    finalState (addOutputKey crypto outputKey state) = state ∨
    ∃ key keys, outputKey = some key ∧ key.epoch = state.epoch + 1 ∧
      finalState (addOutputKey crypto outputKey state) =
        commitEpoch state keys .both (state.epoch + 1) := by
  cases outputKey with
  | none => exact .inl rfl
  | some key =>
    rw [addOutputKey, addSPQRBraidEpoch]
    rcases getNextSPQREpoch_cases state with ⟨error, herr⟩ | hok
    · rw [bind_apply_error herr]
      exact .inl rfl
    rw [bind_apply_ok hok]
    by_cases hnext : key.epoch = state.epoch + 1
    · rw [if_neg (not_not_intro hnext)]
      rcases addSPQREpochSecret_commits crypto key.epochSecret .both (state.epoch + 1) state with
        ⟨error, herr⟩ | ⟨_, _, _, hcommit⟩
      · rw [herr]
        exact .inl rfl
      · rw [hcommit]
        exact .inr ⟨key, _, rfl, hnext, rfl⟩
    · rw [if_pos hnext]
      exact .inl rfl

theorem addOutputKey_windowed (outputKey : Option OutputKey) :
    Triple (fun state => Windowed floor state ∧ ∀ key, outputKey = some key →
        ∃ agent, state.braidState = some agent ∧ key.epoch ≤ agent.epoch)
      (addOutputKey crypto outputKey) (fun _ => Windowed floor) (Windowed floor) := by
  intro state hstate
  obtain ⟨hwind, hkey⟩ := hstate
  have hfinal : Windowed floor (finalState (addOutputKey crypto outputKey state)) := by
    rcases addOutputKey_commits crypto outputKey state with
      hsame | ⟨key, keys, hsome, hnext, hcommit⟩
    · rw [hsame]
      exact hwind
    · rw [hcommit]
      obtain ⟨agent, hagent, hle⟩ := hkey key hsome
      exact hwind.commitEpoch keys ⟨agent, hagent, hnext.ge.trans hle⟩
  refine ⟨fun value next hrun => ?_, fun error next hrun => ?_⟩
  · rwa [hrun] at hfinal
  · rwa [hrun] at hfinal

theorem onBraid_windowed {α : Type} {computation : AgentM α}
    {post : α → MLKEMBraidAgentState → Prop}
    (hvalid : Triple (InEpoch agent.epoch) computation post (InEpoch agent.epoch))
    (hpost : ∀ value next, post value next → agent.epoch ≤ next.epoch) :
    Triple (fun state => Windowed floor state ∧ state.braidState = some agent)
      (onBraid agent computation)
      (fun value state => Windowed floor state ∧
        ∃ next, state.braidState = some next ∧ post value next)
      (Windowed floor) := by
  intro state hstate
  obtain ⟨hwind, hagent⟩ := hstate
  obtain ⟨hok, herr⟩ := hvalid agent rfl
  have hepoch := hwind.epoch_le_agent hagent
  rw [onBraid]
  cases hrun : computation agent with
  | ok value next =>
    have hnext := hok value next hrun
    refine ⟨fun returned final hfinal => ?_, ?_⟩
    · cases hfinal
      exact ⟨hwind.with_agent (hepoch.trans (hpost value next hnext)), next, rfl, hnext⟩
    · rintro error final ⟨⟩
  | error error next =>
    have hnext : next.epoch = agent.epoch := herr error next hrun
    refine ⟨?_, fun stopped final hfinal => ?_⟩
    · rintro value final ⟨⟩
    · cases hfinal
      exact hwind.with_agent (hepoch.trans hnext.ge)

theorem sendKem_windowed :
    Triple (Windowed floor) (sendKem crypto randomBytes) (fun _ => Windowed floor)
      (Windowed floor) := by
  apply Triple.of_finalState
  intro state hstate
  rw [sendKem_braid hstate.mode_eq]
  exact hstate

theorem sendBraid_windowed :
    Triple (Windowed floor) (sendBraid crypto field randomBytes)
      (fun result state => Windowed floor state ∧
        ∃ sent, result = some sent ∧ floor ≤ sent.sendingEpoch)
      (Windowed floor) := by
  intro state hstate
  obtain ⟨agent, hagent, hle⟩ := hstate.agent
  have hsend : Triple (InEpoch agent.epoch) (Braid.send crypto.braid field randomBytes)
      (SentIn agent.epoch) (InEpoch agent.epoch) := send_sentIn crypto.braid field randomBytes
  rw [sendBraid, get_bind, hstate.mode_eq, hagent]
  refine Triple.bind (onBraid_windowed hsend fun _ _ hsent => hsent.agent_eq.ge)
    (fun result middle hmiddle => ?_) state ⟨hstate, hagent⟩
  obtain ⟨hwind, next, hnext, hsent⟩ := hmiddle
  refine Triple.bind (addOutputKey_windowed result.outputKey)
    (fun _ => .pure _ fun final hfinal => ⟨hfinal, result, rfl, ?_⟩) middle
    ⟨hwind, fun key hkey => ⟨next, hnext, ?_⟩⟩
  · exact ((hsent.outputKey_eq key hkey).trans hsent.agent_eq.symm).le
  · rw [hsent.sendingEpoch_eq]
    exact hstate.floor_le.trans hle

theorem validateSPQRState_keeps {invariant : SPQRState → Prop} :
    Triple invariant validateSPQRState (fun _ => invariant) invariant :=
  Triple.andThen (.get fun _ => id) fun _ =>
    .ite (fun _ => .throw _ fun _ => id) fun _ => .pure _ fun _ => id

theorem nextSendKey_commits (crypto : SpqrCrypto) (epoch : ℕ) (state : SPQRState) :
    finalState (nextSendKey crypto epoch state) = state ∨
    ∃ chains chain, state.kdfChains.get? epoch = some chains ∧
      finalState (nextSendKey crypto epoch state) = storeSend state epoch chains chain := by
  rw [nextSendKey, get_bind]
  cases hget : state.kdfChains.get? epoch with
  | none => exact .inl rfl
  | some chains =>
    dsimp only
    split
    · exact .inl rfl
    split
    · exact .inl rfl
    cases kdfChainKeySPQR crypto chains.send.chainKey (chains.send.counter + 1)
        state.resolvedInfoStrings.chainNext with
    | error error => exact .inl rfl
    | ok result => exact .inr ⟨chains, _, rfl, rfl⟩

theorem deriveSPQRSendKey_windowed (override : Option ℕ) :
    Triple (Windowed floor) (deriveSPQRSendKey crypto override) (fun _ => Windowed floor)
      (Windowed floor) := by
  refine validateSPQRState_keeps.andThen fun _ => Triple.of_finalState fun state hstate => ?_
  rw [get_bind]
  split
  · dsimp only
    split
    · exact hstate
    split
    · exact hstate
    rename_i hchain _
    have hle : override.getD state.epoch ≤ state.epoch :=
      ((hstate.window _).mp (Option.isSome_iff_ne_none.mpr (by simpa using hchain))).2
    rw [nextSendKey_atSendEpoch, finalState_bind_of_same fun _ _ => rfl]
    have hmoved := hstate.atSendEpoch hle
    rcases nextSendKey_commits crypto (override.getD state.epoch)
        (atSendEpoch (state.sendEpoch.getD 0) (override.getD state.epoch) state) with
      hsame | ⟨chains, chain, hget, hstored⟩
    · rw [hsame]
      exact hmoved
    · rw [hstored]
      exact hmoved.storeSend hget chain
  · exact hstate

theorem spqrSend_windowed :
    Triple (Windowed floor) (spqrSend crypto field randomBytes) (fun _ => Windowed floor)
      (Windowed floor) := by
  have hbraid : Triple (Windowed floor) (sendBraid crypto field randomBytes)
      (fun _ => Windowed floor) (Windowed floor) :=
    (sendBraid_windowed randomBytes).weaken_post fun _ _ hsent => hsent.1
  refine (sendKem_windowed randomBytes).andThen fun kem => hbraid.andThen fun result => ?_
  refine Triple.andThen (.fromResult (fun _ _ _ => id) fun _ => id) fun epoch => ?_
  refine (deriveSPQRSendKey_windowed epoch).andThen fun key => .ite (fun _ => ?_) fun _ =>
    .pure _ fun _ => id
  refine Triple.andThen (.get fun _ => id) fun found => ?_
  refine Triple.andThen (.fromResult (fun _ _ _ => id) fun _ => id) fun wireEpoch => ?_
  exact Triple.andThen (.fromResult (fun _ _ _ => id) fun _ => id) fun msgBytes =>
    .pure _ fun _ => id

theorem deriveSPQRReceiveKey_windowed (index epoch : ℕ) :
    Triple (Windowed floor) (deriveSPQRReceiveKey crypto index epoch) (fun _ => Windowed floor)
      (Windowed floor) := by
  apply Triple.of_finalState
  intro state hstate
  have honly : OnlyReceive epoch state
      (finalState (deriveSPQRReceiveKey crypto index epoch state)) :=
    (KeyCall.derive epoch index).run_onlyReceive crypto state
  have hrest := honly.rest
  refine hstate.of_same (by rw [hrest]) (by rw [hrest]) (by rw [hrest]) (by rw [hrest])
    fun other => ?_
  simpa only [Option.isSome_map] using congrArg Option.isSome (honly.send other)

theorem receiveDirect_windowed :
    Triple (Windowed floor) (receiveDirect crypto pqr) (fun _ => Windowed floor)
      (Windowed floor) := by
  refine receiveDirect_keeps crypto (fun state key hstate => ?_) (fun ciphertext => ?_)
    (fun state hstate => ?_) pqr
  · exact hstate.of_same rfl rfl rfl rfl fun _ => rfl
  · -- In braid mode, a ciphertext of direct mode is refused.
    refine validateSPQRState_keeps.andThen fun _ => Triple.of_finalState fun state hstate => ?_
    rw [get_bind, if_pos hstate.mode_eq]
    exact hstate
  · exact hstate.of_same rfl rfl rfl rfl fun _ => rfl

theorem receivePayload_windowed :
    Triple (Windowed floor) (receivePayload crypto field pqr) (fun _ => Windowed floor)
      (Windowed floor) := by
  refine Triple.get_eq.bind fun found => ?_
  split
  · exact (receiveDirect_windowed pqr).weaken (fun _ hfound => hfound.2) fun _ _ => id
  · rename_i agent _ _ hagent
    have hrecv : ∀ chunk, Triple (InEpoch agent.epoch) (Braid.receive crypto.braid field chunk)
        (ReceivedIn agent.epoch) (InEpoch agent.epoch) :=
      fun chunk => receive_receivedIn crypto.braid field chunk
    have hchunk : Triple (fun state => Windowed floor state ∧ state.braidState = some agent)
        (do
          let chunk ← fromResult (receivedChunk pqr)
          let result ← onBraid agent (Braid.receive crypto.braid field chunk)
          addOutputKey crypto result.outputKey)
        (fun _ => Windowed floor) (Windowed floor) := by
      refine Triple.andThen (.fromResult (fun _ _ _ => id) fun _ hstate => hstate.1) fun chunk => ?_
      refine Triple.bind (onBraid_windowed (hrecv chunk) fun _ _ hemitted => hemitted.le_agent)
        fun result middle hmiddle => ?_
      obtain ⟨hwind, next, hnext, hemitted⟩ := hmiddle
      exact addOutputKey_windowed result.outputKey middle
        ⟨hwind, fun key hkey => ⟨next, hnext, hemitted.outputKey_le key hkey⟩⟩
    refine hchunk.weaken (fun state hstate => ?_) fun _ _ => id
    obtain ⟨rfl, hwind⟩ := hstate
    exact ⟨hwind, hagent⟩
  · exact .pure _ fun _ hfound => hfound.2

theorem spqrRecv_windowed (msgBytes : Option Bytes) :
    Triple (Windowed floor) (spqrRecv crypto field msgBytes) (fun _ => Windowed floor)
      (Windowed floor) := by
  refine spqrRecv_keeps crypto field (fun state hstate => ?_) receivePayload_windowed
    deriveSPQRReceiveKey_windowed msgBytes
  rw [negotiateVersion]
  split
  · exact hstate.of_same rfl rfl rfl rfl fun _ => rfl
  · exact hstate

theorem Windowed.step (hwind : Windowed floor state) {next : SPQRState}
    (hstep : PartyStep crypto field state next) : Windowed floor next := by
  cases hstep with
  | send randomBytes => exact (spqrSend_windowed randomBytes).finalState hwind
  | receive msgBytes => exact (spqrRecv_windowed msgBytes).finalState hwind

theorem Windowed.run (hwind : Windowed floor state) {later : SPQRState}
    (hrun : Relation.ReflTransGen (PartyStep crypto field) state later) : Windowed floor later := by
  induction hrun with
  | refl => exact hwind
  | tail _ hlast ih => exact ih.step hlast

theorem Windowed.of_fresh (hmode : state.mode = .braid)
    (hagent : ∃ agent, state.braidState = some agent) (hepoch : state.epoch = 0)
    (hsendEpoch : state.sendEpoch = some 0)
    (hchains : state.kdfChains = OrderedMap.empty.set 0 chains) : Windowed 0 state where
  mode_eq := hmode
  agent := by
    obtain ⟨agent, hagent⟩ := hagent
    exact ⟨agent, hagent, by omega⟩
  floor_le := Nat.zero_le _
  sendEpoch_le := by rw [hsendEpoch, hepoch]; exact le_rfl
  window epoch := by
    rw [hchains, hsendEpoch, hepoch, Option.getD_some, get?_set]
    by_cases hzero : epoch = 0
    · simp [hzero]
    · rw [if_neg hzero]
      change ((∅ : OrderedMap ℕ EpochChains).get? epoch).isSome ↔ _
      simp [hzero]

theorem Windowed.of_init
    (hinit : initializeSPQRBraid crypto options = .ok state) : Windowed 0 state := by
  rw [initializeSPQRBraid] at hinit
  split at hinit
  all_goals
    rw [bind_eq_ok_iff] at hinit
    obtain ⟨agent, -, hinit⟩ := hinit
    dsimp only at hinit
    rw [bind_eq_ok_iff] at hinit
    obtain ⟨keys, -, hinit⟩ := hinit
    cases hinit
    exact .of_fresh rfl ⟨agent, rfl⟩ rfl rfl rfl

theorem Windowed.of_reachable
    (hreach : (partySystem crypto field options).Reachable state) : Windowed 0 state :=
  hreach.invariant (fun _ => Windowed.of_init) fun _ _ hbefore => hbefore.step

/-- The current epoch does not decrease. -/
theorem Windowed.from_now (hwind : Windowed floor state) : Windowed state.epoch state :=
  { hwind with floor_le := le_rfl }

variable {index epoch : ℕ}
  {text : String}

theorem receiveChainFor_inRange (hchain : (state.kdfChains.get? epoch).isSome)
    (hle : epoch ≤ state.epoch) (hwithin : state.epoch ≤ epoch + 1)
    (hcheck : receiveChainFor state index epoch = .error error) :
    error ≠ .encryption .spqrEpochOutOfRange text := by
  obtain ⟨chains, hget⟩ := Option.isSome_iff_exists.mp hchain
  simp only [receiveChainFor, hget, throw_eq_error, pure_eq_ok, epochsToKeepPriorToSendEpoch]
    at hcheck
  split at hcheck
  · omega
  split at hcheck
  · cases hcheck
    simp
  split at hcheck
  · omega
  split at hcheck
  · cases hcheck
    simp
  · cases hcheck

theorem stepReceiveChain_inRange {final : SPQRState}
    (hchain : (state.kdfChains.get? epoch).isSome) (hle : epoch ≤ state.epoch)
    (hwithin : state.epoch ≤ epoch + 1)
    (hrun : stepReceiveChain crypto index epoch state = .error error final) :
    error ≠ .encryption .spqrEpochOutOfRange text := by
  rw [stepReceiveChain, get_bind] at hrun
  cases hcheck : receiveChainFor state index epoch with
  | error stopped =>
    rw [hcheck, fromResult_error_bind] at hrun
    cases hrun
    exact receiveChainFor_inRange hchain hle hwithin hcheck
  | ok chains =>
    rw [hcheck, fromResult_ok_bind] at hrun
    cases hwalk : (List.range' (chains.receive.counter + 1) (index - chains.receive.counter)).foldlM
        (walkReceiveChain crypto state.resolvedInfoStrings.chainNext
          state.resolvedLimits.maxOutOfOrderKeys epoch index)
        ⟨chains.receive.chainKey, none, []⟩ with
    | error stopped =>
      rw [hwalk, fromResult_error_bind] at hrun
      cases hrun
      have hround : ∀ walk currentN, FailsOnly PlainError
          (walkReceiveChain crypto state.resolvedInfoStrings.chainNext
            state.resolvedLimits.maxOutOfOrderKeys epoch index walk currentN) := by
        intro walk currentN
        have hderive : FailsOnly PlainError (kdfChainKeySPQR crypto walk.chainKey currentN
            state.resolvedInfoStrings.chainNext) :=
          .ite (.throw trivial) (.ite (.throw trivial) (.pure _))
        exact hderive.bind fun _ => .ite (.pure _) (.ite (.pure _) (.pure _))
      rintro rfl
      exact FailsOnly.foldlM hround _ _ _ hwalk
    | ok walk =>
      rw [hwalk, fromResult_ok_bind] at hrun
      cases hkey : walk.messageKey with
      | none =>
        rw [hkey] at hrun
        cases hrun
        simp
      | some messageKey =>
        rw [hkey] at hrun
        cases hrun

theorem RefusesAsTooOld.lt (hrefuse : RefusesAsTooOld crypto state index epoch)
    (hchain : (state.kdfChains.get? epoch).isSome) (hle : epoch ≤ state.epoch) :
    epoch + 1 < state.epoch := by
  by_contra hwithin
  obtain ⟨oldestEpoch, final, hrun⟩ := hrefuse
  rw [epochTooOld, deriveSPQRReceiveKey] at hrun
  by_cases hroot : state.rootKey = []
  · rw [bind_apply_error (validateSPQRState_error hroot)] at hrun
    cases hrun
  rw [bind_apply_ok (validateSPQRState_ok hroot), get_bind] at hrun
  split at hrun
  · split at hrun
    · cases hrun
    cases hheld : state.skippedKeys.get? (epoch, index) with
    | some storedKey =>
      rw [hheld] at hrun
      cases hrun
    | none =>
      rw [hheld] at hrun
      dsimp only at hrun
      rw [bind_apply] at hrun
      cases hstep : stepReceiveChain crypto index epoch state with
      | ok key next =>
        rw [hstep] at hrun
        cases hrun
      | error error next =>
        rw [hstep] at hrun
        cases hrun
        exact stepReceiveChain_inRange hchain hle (not_lt.mp hwithin) hstep rfl
  · cases hrun

theorem receiveChainFor_tooOld (hidx : index ≤ maxIndex) (hlt : epoch + 1 < state.epoch) :
    receiveChainFor state index epoch = .error (epochTooOld epoch (state.epoch - 1)) := by
  rw [receiveChainFor, if_neg (by omega), if_neg (by omega), epochsToKeepPriorToSendEpoch,
    if_pos (by omega)]
  rfl

theorem refusesAsTooOld_of {oldestEpoch : ℕ} (hroot : state.rootKey ≠ [])
    (hcompl : isSpqrBootstrapComplete state = true)
    (hfresh : isBelowTrimHorizon state epoch index = false)
    (hheld : state.skippedKeys.get? (epoch, index) = none)
    (hcheck : receiveChainFor state index epoch = .error (epochTooOld epoch oldestEpoch)) :
    RefusesAsTooOld crypto state index epoch := by
  have hstep : stepReceiveChain crypto index epoch state =
      .error (epochTooOld epoch oldestEpoch) state := by
    rw [stepReceiveChain, get_bind, hcheck, fromResult_error_bind]
  refine ⟨oldestEpoch, state, ?_⟩
  rw [deriveSPQRReceiveKey, bind_apply_ok (validateSPQRState_ok hroot), get_bind,
    if_pos hcompl, if_neg (by simp [hfresh]), hheld]
  exact bind_apply_error hstep

/-- No epoch with a chain is refused as too old. -/
def AcceptsRetained (crypto : SpqrCrypto) (state : SPQRState) : Prop :=
  ∀ epoch ≤ state.epoch, (state.kdfChains.get? epoch).isSome →
    ∀ index, ¬ RefusesAsTooOld crypto state index epoch

/-- A chain that is there and refused is a chain that no later send asks for. -/
def RefusesUnneeded (crypto : SpqrCrypto) (field : GaloisField16) (state : SPQRState) : Prop :=
  ∀ epoch index, RefusesAsTooOld crypto state index epoch →
    (state.kdfChains.get? epoch).isSome →
    ∀ later, Relation.ReflTransGen (PartyStep crypto field) state later →
      ¬ SendNeeds crypto field later epoch

section

variable (hwind : Windowed floor state)

include hwind

theorem Windowed.le_of_sendNeeds
    (hneeds : SendNeeds crypto field state epoch) : floor ≤ epoch + 1 := by
  obtain ⟨randomBytes, kem, middle, result, next, override, hkem, hbraid, hepoch, rfl⟩ := hneeds
  have hmiddle := (sendKem_windowed randomBytes state hwind).1 kem middle hkem
  obtain ⟨-, sent, rfl, hfloor⟩ :=
    (sendBraid_windowed randomBytes middle hmiddle).1 result next hbraid
  rw [sendKeyEpoch, bind_eq_ok_iff] at hepoch
  obtain ⟨internal, hinternal, hoverride⟩ := hepoch
  cases hoverride
  rw [spqrWireEpochToInternalEpoch, bind_eq_ok_iff] at hinternal
  obtain ⟨_, -, hsafe⟩ := hinternal
  rw [bigintToSafeNumber] at hsafe
  split at hsafe
  · cases hsafe
  · cases hsafe
    rw [Option.getD_some]
    omega

theorem Windowed.refusesUnneeded :
    RefusesUnneeded crypto field state := by
  intro epoch index hrefuse hchain later hrun hneeds
  have hlt := hrefuse.lt hchain ((hwind.window epoch).mp hchain).2
  have hle := (hwind.from_now.run hrun).le_of_sendNeeds hneeds
  omega

theorem Windowed.acceptsRetained
    (hcaught : state.epoch ≤ max (state.sendEpoch.getD 0) 1) : AcceptsRetained crypto state := by
  intro epoch hle hchain index hrefuse
  have hlt := hrefuse.lt hchain hle
  have hretain := ((hwind.window epoch).mp hchain).1
  omega

theorem Windowed.refuses_oldest (hahead : max (state.sendEpoch.getD 0) 1 < state.epoch) :
    ∃ epoch ≤ state.epoch, (state.kdfChains.get? epoch).isSome ∧ ∀ index, index ≤ maxIndex →
      receiveChainFor state index epoch = .error (epochTooOld epoch (state.epoch - 1)) := by
  refine ⟨state.sendEpoch.getD 0 - 1, by omega, (hwind.window _).mpr (by omega), ?_⟩
  exact fun index hidx => receiveChainFor_tooOld hidx (by omega)

end

end

/-- No later send asks for a chain that a receive refuses. -/
theorem spqr_receive_window {crypto : SpqrCrypto} {field : GaloisField16}
    {options : SPQRInitOptions} {state : SPQRState}
    (hreachable : (partySystem crypto field options).Reachable state) :
    RefusesUnneeded crypto field state ∧
    (state.epoch ≤ max (state.sendEpoch.getD 0) 1 → AcceptsRetained crypto state) ∧
    (max (state.sendEpoch.getD 0) 1 < state.epoch →
      ∃ epoch ≤ state.epoch, (state.kdfChains.get? epoch).isSome ∧ ∀ index, index ≤ maxIndex →
        receiveChainFor state index epoch = .error (epochTooOld epoch (state.epoch - 1))) := by
  have hwind := Windowed.of_reachable hreachable
  exact ⟨hwind.refusesUnneeded, hwind.acceptsRetained, hwind.refuses_oldest⟩

theorem party_reachable {crypto : SpqrCrypto} {field : GaloisField16} {options : PairOptions}
    {joint : SpqrJoint}
    (hreach : (spqrSystem crypto field (initializeSPQRBraid crypto) options).Reachable joint)
    (side : Side) :
    (partySystem crypto field (options.forSide side)).Reachable (joint side).state := by
  refine hreach.invariant (motive := fun joint =>
    (partySystem crypto field (options.forSide side)).Reachable (joint side).state)
    (fun start hstart => ⟨_, (hstart side).1, .refl⟩) fun before after hbefore hstep => ?_
  cases hstep with
  | send actor randomBytes hrandom =>
    by_cases hactor : side = actor
    · subst hactor
      rw [Function.update_self, SpqrParty.send_state]
      exact hbefore.step (.send randomBytes)
    · rw [Function.update_of_ne hactor]
      exact hbefore
  | receive actor position message hmsg =>
    by_cases hactor : side = actor
    · subst hactor
      rw [Function.update_self]
      exact hbefore.step (.receive (some message.msgBytes))
    · rw [Function.update_of_ne hactor]
      exact hbefore

def receiveHeaderChunks (chunks : List UInt8) (state : SPQRState) : SPQRState :=
  chunks.foldl (fun state chunk => finalState (spqrRecv plainSpqrCrypto gf16
    (some ([1, 2, chunk + 1, 1, chunk] ++ plainSecret)) state)) state

def aheadParty : SPQRState :=
  finalState (spqrSend plainSpqrCrypto gf16 sevens
    (receiveHeaderChunks [0, 1, 2] (handOverPair.get .alice).state))

abbrev aliceSystem : TransitionSystem SPQRState :=
  partySystem plainSpqrCrypto gf16 (PairOptions.forSide { rootKey := plainSecret } .alice)

theorem receiveHeaderChunks_reachable (chunks : List UInt8) {state : SPQRState}
    (hreach : aliceSystem.Reachable state) :
    aliceSystem.Reachable (receiveHeaderChunks chunks state) := by
  induction chunks generalizing state with
  | nil => exact hreach
  | cons chunk chunks ih => exact ih (hreach.step (.receive _))

theorem aheadParty_reachable : aliceSystem.Reachable aheadParty := by
  have hstart : aliceSystem.Reachable (handOverPair.get .alice).state :=
    party_reachable handOverPair_reachable .alice
  rw [aheadParty]
  exact (receiveHeaderChunks_reachable _ hstart).step (.send sevens)

theorem aheadParty_facts :
    aheadParty.epoch = 2 ∧ aheadParty.sendEpoch = some 1 ∧ aheadParty.rootKey ≠ [] ∧
    isSpqrBootstrapComplete aheadParty = true ∧
    isBelowTrimHorizon aheadParty 0 36 = false ∧
    aheadParty.skippedKeys.get? (0, 36) = none ∧
    (aheadParty.kdfChains.get? 0).isSome ∧
    receiveChainFor aheadParty 36 0 = .error (epochTooOld 0 1) := by
  decide +kernel

theorem aheadParty_refuses : RefusesAsTooOld plainSpqrCrypto aheadParty 36 0 := by
  obtain ⟨-, -, hroot, hcompl, hfresh, hheld, -, hcheck⟩ := aheadParty_facts
  exact refusesAsTooOld_of hroot hcompl hfresh hheld hcheck

/-- Alice keeps the chain of the initial epoch and refuses its next message as too old. -/
theorem retained_epoch_refused : ∃ state, aliceSystem.Reachable state ∧
    ∃ epoch ≤ state.epoch, (state.kdfChains.get? epoch).isSome ∧
      ∃ index, RefusesAsTooOld plainSpqrCrypto state index epoch := by
  obtain ⟨-, -, -, -, -, -, hchain, -⟩ := aheadParty_facts
  exact ⟨aheadParty, aheadParty_reachable, 0, Nat.zero_le _, hchain, 36, aheadParty_refuses⟩

/-- After the first epoch, Alice accepts every epoch that she has a chain for. -/
theorem spqr_receive_window_handOver :
    AcceptsRetained plainSpqrCrypto (handOverPair.get .alice).state :=
  (spqr_receive_window (party_reachable handOverPair_reachable .alice)).2.1
    handOverPair_facts.2.2.2

/-- Whatever bytes a braid-mode party is given, its current epoch never goes back, and its chains are
those of the epochs from just before its send epoch to the current one, without a gap. -/
theorem spqr_chains_are_window {crypto : SpqrCrypto} {field : GaloisField16}
    {options : SPQRInitOptions} {state later : SPQRState}
    (hreachable : (partySystem crypto field options).Reachable state)
    (hrun : Relation.ReflTransGen (partySystem crypto field options).step state later) :
    state.epoch ≤ later.epoch ∧ ∀ epoch, (later.kdfChains.get? epoch).isSome ↔
      later.sendEpoch.getD 0 ≤ epoch + 1 ∧ epoch ≤ later.epoch := by
  have hwind := (Windowed.of_reachable hreachable).from_now.run hrun
  exact ⟨hwind.floor_le, hwind.window⟩

theorem spqr_chains_are_window_ahead : (aheadParty.kdfChains.get? 2).isSome := by
  obtain ⟨hepoch, hsend, -⟩ := aheadParty_facts
  exact ((spqr_chains_are_window aheadParty_reachable .refl).2 2).mpr (by simp [hepoch, hsend])

end SignalProtocol.Spqr

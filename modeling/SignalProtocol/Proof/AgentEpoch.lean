import SignalProtocol.Braid.StateMachine
import SignalProtocol.Library.Triple

/-! # The epoch of an agent

A send stays in the epoch of its agent and reports it. -/

namespace SignalProtocol.Braid

open Rs Results

def InEpoch (epoch : ℕ) (agent : MLKEMBraidAgentState) : Prop := agent.epoch = epoch

def StaysIn {α : Type} (epoch : ℕ) (computation : AgentM α) : Prop :=
  Triple (InEpoch epoch) computation (fun _ => InEpoch epoch) (InEpoch epoch)

structure SentIn (epoch : ℕ) (result : SendResult) (agent : MLKEMBraidAgentState) : Prop where
  agent_eq : agent.epoch = epoch
  sendingEpoch_eq : result.sendingEpoch = epoch
  outputKey_eq : ∀ key, result.outputKey = some key → key.epoch = epoch

structure EmittedBy (epoch : ℕ) (outputKey : Option OutputKey) (agent : MLKEMBraidAgentState) :
    Prop where
  le_agent : epoch ≤ agent.epoch
  outputKey_le : ∀ key, outputKey = some key → key.epoch ≤ agent.epoch

section

variable {epoch : ℕ}

theorem InEpoch.emittedBy_none {agent : MLKEMBraidAgentState} (hepoch : InEpoch epoch agent) :
    EmittedBy epoch none agent :=
  ⟨hepoch.ge, nofun⟩

theorem transition_staysIn (event : TransitionEvent) : StaysIn epoch (transition event) := by
  apply Triple.of_finalState
  intro agent hagent
  rw [transition, get_bind]
  cases stateTransitions agent.state event with
  | some nextState => exact hagent
  | none => exact hagent

theorem fromResult_staysIn {α : Type} (result : Except ProtocolError α) :
    StaysIn epoch (fromResult result) :=
  .fromResult (fun _ _ _ => id) fun _ => id

theorem get_staysIn : StaysIn epoch get :=
  .get fun _ => id

/-- The two places that move an agent on: the completed ciphertext and the role swap. -/
theorem enterNextEpoch_inEpoch :
    Triple (InEpoch epoch)
      (modify fun agent => resetForNewEpoch { agent with epoch := agent.epoch + 1 } agent.state :
        AgentM PUnit)
      (fun _ => InEpoch (epoch + 1)) (InEpoch epoch) :=
  .modify _ fun _ hagent => congrArg (· + 1) hagent

theorem sendChunk_sentIn (field : GaloisField16)
    {encoderOf : MLKEMBraidAgentState → Option EncoderState}
    {update : MLKEMBraidAgentState → EncoderState → MLKEMBraidAgentState}
    (hupdate : ∀ agent encoder, (update agent encoder).epoch = agent.epoch) {missing : String}
    {type : MessageType} :
    Triple (InEpoch epoch) (sendChunk field encoderOf update missing type) (SentIn epoch)
      (InEpoch epoch) := by
  have hencoder : StaysIn epoch
      (onEncoder encoderOf update missing (getNextEncoderChunk field)) := by
    apply Triple.of_finalState
    intro agent hagent
    rw [onEncoder]
    split
    · exact hagent
    · split
      · exact (hupdate agent _).trans hagent
      · exact (hupdate agent _).trans hagent
  refine hencoder.andThen fun chunk => ?_
  refine Triple.get_eq.bind fun found => .pure _ fun agent hagent => ?_
  obtain ⟨rfl, hepoch⟩ := hagent
  exact ⟨hepoch, hepoch, nofun⟩

theorem sendBare_sentIn (type : MessageType) :
    Triple (InEpoch epoch) (sendBare type) (SentIn epoch) (InEpoch epoch) := by
  refine Triple.get_eq.bind fun found => .pure _ fun agent hagent => ?_
  obtain ⟨rfl, hepoch⟩ := hagent
  exact ⟨hepoch, hepoch, nofun⟩

variable (crypto : BraidCrypto) (field : GaloisField16) (randomBytes : RandomBytes)

theorem sendAlice_sentIn :
    Triple (InEpoch epoch) (sendAlice crypto field randomBytes) (SentIn epoch) (InEpoch epoch) := by
  refine get_staysIn.andThen fun agent => ?_
  cases agent.state with
  | keysUnsampled =>
    refine (fromResult_staysIn _).andThen fun keyPair => ?_
    refine Triple.andThen (.modify _ fun _ => id) fun _ => get_staysIn.andThen fun state => ?_
    refine (fromResult_staysIn _).andThen fun headerEncoder => ?_
    refine Triple.andThen (.modify _ fun _ => id) fun _ => ?_
    refine (fromResult_staysIn _).andThen fun ekEncoder => ?_
    refine Triple.andThen (.modify _ fun _ => id) fun _ => ?_
    refine (transition_staysIn _).andThen fun _ => ?_
    apply sendChunk_sentIn
    exact fun _ _ => rfl
  | keysSampled | headerSent | ct1Received =>
    apply sendChunk_sentIn
    exact fun _ _ => rfl
  | ekSentCt1Received => exact sendBare_sentIn _
  | _ => exact .throw _ fun _ => id

theorem bobSampleCt1_sentIn (ekSeed hek : Bytes) :
    Triple (InEpoch epoch) (bobSampleCt1 crypto field ekSeed hek randomBytes) (SentIn epoch)
      (InEpoch epoch) := by
  refine (fromResult_staysIn _).andThen fun encapsulation => ?_
  refine Triple.andThen (.modify _ fun _ => id) fun _ => ?_
  refine (fromResult_staysIn _).andThen fun ct1Encoder => ?_
  refine Triple.andThen (.modify _ fun _ => id) fun _ => get_staysIn.andThen fun state => ?_
  refine (fromResult_staysIn _).andThen fun outputKeyBytes => ?_
  refine (fromResult_staysIn _).andThen fun auth => ?_
  refine Triple.andThen (.modify _ fun _ => id) fun _ => ?_
  refine (transition_staysIn _).andThen fun _ => ?_
  have hchunk : Triple (InEpoch epoch) (bobSendCt1Chunk field) (SentIn epoch) (InEpoch epoch) := by
    apply sendChunk_sentIn
    exact fun _ _ => rfl
  refine hchunk.bind fun result => Triple.get_eq.bind fun found => .pure _ fun agent hagent => ?_
  obtain ⟨rfl, hsent⟩ := hagent
  refine ⟨hsent.agent_eq, hsent.sendingEpoch_eq, fun key hkey => ?_⟩
  cases hkey
  exact hsent.agent_eq

theorem sendBob_sentIn :
    Triple (InEpoch epoch) (sendBob crypto field randomBytes) (SentIn epoch) (InEpoch epoch) := by
  have hheader : Triple (InEpoch epoch) (bobSendFromHeaderReceived crypto field randomBytes)
      (SentIn epoch) (InEpoch epoch) := by
    intro agent hagent
    rw [bobSendFromHeaderReceived]
    cases agent.ekSeed with
    | none => exact Triple.throw _ (fun _ => id) agent hagent
    | some ekSeed =>
      cases agent.hek with
      | none => exact Triple.throw _ (fun _ => id) agent hagent
      | some hek =>
        obtain ⟨hok, herr⟩ :=
          bobSampleCt1_sentIn crypto field randomBytes ekSeed hek agent hagent
        dsimp only
        cases hrun : bobSampleCt1 crypto field ekSeed hek randomBytes agent with
        | ok result next =>
          refine ⟨fun value final hfinal => ?_, ?_⟩
          · cases hfinal
            exact hok result next hrun
          · rintro error final ⟨⟩
        | error error next =>
          refine ⟨?_, fun stopped final hfinal => ?_⟩
          · rintro value final ⟨⟩
          · cases hfinal
            exact herr error next hrun
  refine get_staysIn.andThen fun agent => ?_
  cases agent.state with
  | noHeaderReceived | ct1Acknowledged => exact sendBare_sentIn _
  | headerReceived => exact hheader
  | ct1Sampled | ekReceivedCt1Sampled | ct2Sampled =>
    apply sendChunk_sentIn
    exact fun _ _ => rfl
  | _ => exact .throw _ fun _ => id

theorem send_sentIn :
    Triple (InEpoch epoch) (send crypto field randomBytes) (SentIn epoch) (InEpoch epoch) :=
  get_staysIn.andThen fun _ =>
    .ite (fun _ => sendAlice_sentIn crypto field randomBytes)
      fun _ => sendBob_sentIn crypto field randomBytes

theorem finishCt1_staysIn (decoder : DecoderState) : StaysIn epoch (finishCt1 field decoder) := by
  refine .ite (fun _ => (fromResult_staysIn _).andThen fun ct1 => ?_) fun _ => .pure _ fun _ => id
  exact Triple.andThen (.modify _ fun _ => id) fun _ => transition_staysIn _

variable (message : MLKEMBraidMessage)

theorem receiveCt1_staysIn (data : Bytes) : StaysIn epoch (receiveCt1 field message data) := by
  refine get_staysIn.andThen fun agent => Triple.andThen (.modify _ fun _ => id) fun _ => ?_
  refine (fromResult_staysIn _).andThen fun decoder => Triple.andThen (.modify _ fun _ => id)
    fun _ => ?_
  refine .ite (fun _ => (transition_staysIn _).andThen fun _ => ?_) fun _ => ?_
  · exact finishCt1_staysIn field decoder
  · exact finishCt1_staysIn field decoder

theorem completeCt2_emits (decoder : DecoderState) :
    Triple (InEpoch epoch) (completeCt2 crypto field message decoder)
      (fun key => EmittedBy epoch (some key)) (InEpoch epoch) := by
  have hget : Triple (InEpoch epoch) (get : AgentM MLKEMBraidAgentState)
      (fun found agent => InEpoch epoch agent ∧ found.epoch = epoch) (InEpoch epoch) :=
    .get fun _ hagent => ⟨hagent, hagent⟩
  refine hget.bind fun found => Triple.assuming fun hfound => ?_
  cases found.ct1Decoded with
  | none => exact .throw _ fun _ => id
  | some ct1 =>
    refine (fromResult_staysIn _).andThen fun ct2Data => ?_
    refine (fromResult_staysIn _).andThen fun sharedSecret => ?_
    refine (fromResult_staysIn _).andThen fun outputKeyBytes => ?_
    refine (fromResult_staysIn _).andThen fun auth => ?_
    refine Triple.andThen (.modify _ fun _ => id) fun _ => ?_
    refine (fromResult_staysIn _).andThen fun _ => (transition_staysIn _).andThen fun _ => ?_
    refine enterNextEpoch_inEpoch.bind fun _ => .pure _ fun agent hagent => ?_
    have hnext : agent.epoch = epoch + 1 := hagent
    refine ⟨by omega, fun key hkey => ?_⟩
    cases hkey
    dsimp only
    omega

theorem receiveCt2_emits (data : Bytes) :
    Triple (InEpoch epoch) (receiveCt2 crypto field message data) (EmittedBy epoch)
      (InEpoch epoch) := by
  have hfinish : ∀ decoder, Triple (InEpoch epoch) (finishCt2 crypto field message decoder)
      (EmittedBy epoch) (InEpoch epoch) := by
    intro decoder
    refine get_staysIn.andThen fun agent => .ite (fun _ => ?_) fun _ => ?_
    · exact (completeCt2_emits crypto field message decoder).bind fun key =>
        .pure _ fun _ => id
    · exact .pure _ fun _ => InEpoch.emittedBy_none
  refine get_staysIn.andThen fun agent => (fromResult_staysIn _).andThen fun decoder => ?_
  refine Triple.andThen (.modify _ fun _ => id) fun _ => ?_
  refine .ite (fun _ => (transition_staysIn _).andThen fun _ => ?_) fun _ => ?_
  · exact hfinish decoder
  · exact hfinish decoder

abbrev ReceivedIn (epoch : ℕ) (result : ReceiveResult) (agent : MLKEMBraidAgentState) : Prop :=
  EmittedBy epoch result.outputKey agent

theorem receiveAlice_receivedIn :
    Triple (InEpoch epoch) (receiveAlice crypto field message) (ReceivedIn epoch)
      (InEpoch epoch) := by
  have hnothing : ∀ receivingEpoch, Triple (InEpoch epoch)
      (pure { receivingEpoch } : AgentM ReceiveResult) (ReceivedIn epoch) (InEpoch epoch) :=
    fun _ => .pure _ fun _ => InEpoch.emittedBy_none
  refine get_staysIn.andThen fun agent => .ite (fun _ => hnothing _) fun _ =>
    .ite (fun _ => .throw _ fun _ => id) fun _ => ?_
  split
  · refine .ite (fun _ => ?_) fun _ => hnothing _
    exact (receiveCt1_staysIn field message _).andThen fun _ => hnothing _
  · rename_i data _ _
    refine .ite (fun _ => ?_) fun _ => hnothing _
    have hcand : Triple (InEpoch epoch) (onCandidate (receiveCt2 crypto field message data))
        (EmittedBy epoch) (InEpoch epoch) :=
      Triple.onCandidate (receiveCt2_emits crypto field message data) fun _ => id
    exact hcand.bind fun outputKey => .pure _ fun _ => id
  · exact hnothing _

theorem receiveHeader_staysIn (data : Bytes) :
    StaysIn epoch (receiveHeader crypto field message data) := by
  refine get_staysIn.andThen fun agent => (fromResult_staysIn _).andThen fun decoder => ?_
  refine Triple.andThen (.modify _ fun _ => id) fun _ => .ite (fun _ => ?_) fun _ =>
    .pure _ fun _ => id
  refine (fromResult_staysIn _).andThen fun headerData => ?_
  refine (fromResult_staysIn _).andThen fun _ => ?_
  exact Triple.andThen (.modify _ fun _ => id) fun _ => transition_staysIn _

theorem bobSampleCt2_staysIn : StaysIn epoch (bobSampleCt2 crypto) := by
  refine get_staysIn.andThen fun agent => ?_
  split
  · refine Triple.andThen (.modify _ fun _ => id) fun _ => ?_
    refine (fromResult_staysIn _).andThen fun ct2 => ?_
    refine Triple.andThen (.modify _ fun _ => id) fun _ => ?_
    split
    · exact .throw _ fun _ => id
    · exact (fromResult_staysIn _).andThen fun ct2Encoder => .modify _ fun _ => id
  · exact .throw _ fun _ => id

theorem receiveEk_staysIn (data : Bytes) : StaysIn epoch (receiveEk crypto field message data) := by
  have hsample : ∀ event, StaysIn epoch (do transition event; bobSampleCt2 crypto) :=
    fun event => (transition_staysIn event).andThen fun _ => bobSampleCt2_staysIn crypto
  refine get_staysIn.andThen fun agent => (fromResult_staysIn _).andThen fun decoder => ?_
  refine Triple.andThen (.modify _ fun _ => id) fun _ => .ite (fun _ => ?_) fun _ => ?_
  · refine (fromResult_staysIn _).andThen fun ekVector => ?_
    refine (fromResult_staysIn _).andThen fun _ => ?_
    refine Triple.andThen (.modify _ fun _ => id) fun _ => ?_
    refine .ite (fun _ => .ite (fun _ => hsample _) fun _ => transition_staysIn _) fun _ => ?_
    exact .ite (fun _ => hsample _) fun _ => .pure _ fun _ => id
  · exact .ite (fun _ => transition_staysIn _) fun _ => .pure _ fun _ => id

theorem receiveBobCurrent_staysIn :
    StaysIn epoch (receiveBobCurrent crypto field message) := by
  have hnothing : StaysIn epoch (pure ⟨⟩ : AgentM PUnit) := .pure _ fun _ => id
  have hsample : StaysIn epoch (do transition .ekCt1Ack; bobSampleCt2 crypto) :=
    (transition_staysIn _).andThen fun _ => bobSampleCt2_staysIn crypto
  refine get_staysIn.andThen fun agent => ?_
  cases message.type with
  | hdr =>
    cases message.data with
    | none => exact hnothing
    | some data =>
      refine .ite (fun _ => ?_) fun _ => hnothing
      exact Triple.onCandidate (receiveHeader_staysIn crypto field message data) fun _ => id
  | ek | ekCt1Ack =>
    refine .ite (fun _ => hsample) fun _ => ?_
    cases message.data with
    | none => exact hnothing
    | some data =>
      refine .ite (fun _ => ?_) fun _ => hnothing
      exact Triple.onCandidate (receiveEk_staysIn crypto field message data) fun _ => id
  | ct1Ack => exact .ite (fun _ => hsample) fun _ => hnothing
  | _ => exact hnothing

theorem receiveBob_receivedIn :
    Triple (InEpoch epoch) (receiveBob crypto field message) (ReceivedIn epoch)
      (InEpoch epoch) := by
  refine get_staysIn.andThen fun agent => .ite
    (fun _ => .pure _ fun _ => InEpoch.emittedBy_none) fun _ => .ite (fun _ => ?_) fun _ =>
    .ite (fun _ => .throw _ fun _ => id) fun _ => ?_
  · refine (transition_staysIn _).andThen fun _ => ?_
    refine enterNextEpoch_inEpoch.bind fun _ => .pure _ fun agent hagent => ⟨?_, nofun⟩
    exact (Nat.le_succ epoch).trans hagent.ge
  · exact (receiveBobCurrent_staysIn crypto field message).andThen fun _ =>
      .pure _ fun _ => InEpoch.emittedBy_none

theorem receive_receivedIn :
    Triple (InEpoch epoch) (receive crypto field message) (ReceivedIn epoch) (InEpoch epoch) :=
  get_staysIn.andThen fun _ =>
    .ite (fun _ => receiveAlice_receivedIn crypto field message)
      fun _ => receiveBob_receivedIn crypto field message

end

end SignalProtocol.Braid

import SignalProtocol.Proof.BraidKeySide

/-! # The ciphertext side of an epoch

What an agent in one of Bob's states holds, what it sends, what receiving any message of the key
side does to it, and the role swap that ends its epoch. -/

namespace SignalProtocol.Braid

open Rs Results

variable {field : GaloisField16} {K : Type*} [Field K] (I : field.Interpretation K) {chunk : Bytes}

def Unsampled (agent : MLKEMBraidAgentState) : Prop :=
  agent.state = .noHeaderReceived ∨ agent.state = .headerReceived

section

variable (crypto : BraidCrypto) (epoch : ℕ) (data : EpochData)

structure EncapsulationHeld (field : GaloisField16) (agent : MLKEMBraidAgentState) : Prop where
  auth : agent.auth = data.nextAuth crypto epoch
  ekSeed : agent.ekSeed = some data.keyPair.ekSeed
  hek : agent.hek = some data.keyPair.hek
  encapsSecret : agent.encapsSecret = some data.encapsulation.encapsSecret
  ct1ForMac : agent.ct1ForMac = some data.encapsulation.ct1
  ct1Encoder : ∃ encoder, agent.ct1Encoder = some encoder ∧
    Streams field data.encapsulation.ct1 encoder

inductive CiphertextSide (agent : MLKEMBraidAgentState) : Prop where
  | noHeaderReceived (hstate : agent.state = .noHeaderReceived) (hepoch : agent.epoch = epoch)
      (hauth : agent.auth = data.auth)
      (hheader : ∃ decoder, agent.headerDecoder = some decoder ∧
        Collects I (data.headerTransfer crypto epoch) decoder)
      (hek : agent.ekDecoder = none)
  | headerReceived (hstate : agent.state = .headerReceived) (hepoch : agent.epoch = epoch)
      (hauth : agent.auth = data.auth) (hekSeed : agent.ekSeed = some data.keyPair.ekSeed)
      (hhek : agent.hek = some data.keyPair.hek) (hek : agent.ekDecoder = none)
  | ct1Sampled (hstate : agent.state = .ct1Sampled) (hepoch : agent.epoch = epoch)
      (hheld : EncapsulationHeld crypto epoch data field agent)
      (hek : ∀ decoder, agent.ekDecoder = some decoder → Collects I data.keyPair.ekVector decoder)
  | ekReceivedCt1Sampled (hstate : agent.state = .ekReceivedCt1Sampled)
      (hepoch : agent.epoch = epoch) (hheld : EncapsulationHeld crypto epoch data field agent)
      (hekVector : agent.ekVector = some data.keyPair.ekVector)
  | ct1Acknowledged (hstate : agent.state = .ct1Acknowledged) (hepoch : agent.epoch = epoch)
      (hheld : EncapsulationHeld crypto epoch data field agent)
      (hek : ∀ decoder, agent.ekDecoder = some decoder → Collects I data.keyPair.ekVector decoder)
  | ct2Sampled (hstate : agent.state = .ct2Sampled) (hepoch : agent.epoch = epoch)
      (hauth : agent.auth = data.nextAuth crypto epoch)
      (hct2 : ∃ encoder, agent.ct2Encoder = some encoder ∧
        Streams field (data.ct2Transfer crypto epoch) encoder)

end

section

variable {crypto : BraidCrypto} {epoch : ℕ} {data : EpochData} {agent : MLKEMBraidAgentState}

theorem send_of_bob (randomBytes : RandomBytes) (hrole : agent.state.isAliceState = false) :
    send crypto field randomBytes agent = sendBob crypto field randomBytes agent := by
  rw [send, get_bind, hrole, if_neg (by simp)]

theorem receive_of_bob_current {message : MLKEMBraidMessage} {next : MLKEMBraidAgentState}
    (hrole : agent.state.isAliceState = false) (hepoch : message.epoch = agent.epoch)
    (hrun : receiveBobCurrent crypto field message agent = .ok ⟨⟩ next) :
    receive crypto field message agent = .ok ⟨message.epoch, none⟩ next := by
  rw [receive, get_bind, hrole, if_neg (by simp), receiveBob, get_bind, hepoch, if_neg (by omega),
    if_neg (by omega), if_neg (by omega), bind_apply_ok hrun]
  rfl

theorem receiveBobCurrent_ct2Sampled (message : MLKEMBraidMessage)
    (hstate : agent.state = .ct2Sampled) :
    receiveBobCurrent crypto field message agent = .ok ⟨⟩ agent := by
  rw [receiveBobCurrent, get_bind, hstate]
  cases htype : message.type <;> cases hdata : message.data <;> rfl

theorem EncapsulationHeld.with_ct1Encoder {encoder : EncoderState}
    (hheld : EncapsulationHeld crypto epoch data field agent)
    (hstreams : Streams field data.encapsulation.ct1 encoder) :
    EncapsulationHeld crypto epoch data field { agent with ct1Encoder := some encoder } :=
  ⟨hheld.auth, hheld.ekSeed, hheld.hek, hheld.encapsSecret, hheld.ct1ForMac,
    ⟨encoder, rfl, hstreams⟩⟩

variable {I}

section

variable (hside : CiphertextSide I crypto epoch data agent)

include hside

theorem CiphertextSide.epoch_eq :
    agent.epoch = epoch := by
  cases hside <;> assumption

theorem CiphertextSide.isAliceState :
    agent.state.isAliceState = false := by
  cases hside <;> simp [*, MLKEMBraidState.isAliceState]

theorem CiphertextSide.of_noHeaderReceived (hstate : agent.state = .noHeaderReceived) :
    agent.auth = data.auth ∧ (∃ decoder, agent.headerDecoder = some decoder ∧
      Collects I (data.headerTransfer crypto epoch) decoder) ∧ agent.ekDecoder = none := by
  cases hside with
  | noHeaderReceived _ _ hauth hheader hek => exact ⟨hauth, hheader, hek⟩
  | headerReceived hother | ct1Sampled hother | ekReceivedCt1Sampled hother
  | ct1Acknowledged hother | ct2Sampled hother => simp [hother] at hstate

theorem CiphertextSide.of_headerReceived (hstate : agent.state = .headerReceived) :
    agent.auth = data.auth ∧ agent.ekSeed = some data.keyPair.ekSeed ∧
      agent.hek = some data.keyPair.hek ∧ agent.ekDecoder = none := by
  cases hside with
  | headerReceived _ _ hauth hekSeed hhek hek => exact ⟨hauth, hekSeed, hhek, hek⟩
  | noHeaderReceived hother | ct1Sampled hother | ekReceivedCt1Sampled hother
  | ct1Acknowledged hother | ct2Sampled hother => simp [hother] at hstate

theorem CiphertextSide.of_collectingEk
    (hstate : agent.state = .ct1Sampled ∨ agent.state = .ct1Acknowledged) :
    EncapsulationHeld crypto epoch data field agent ∧
      ∀ decoder, agent.ekDecoder = some decoder → Collects I data.keyPair.ekVector decoder := by
  cases hside with
  | ct1Sampled _ _ hheld hek | ct1Acknowledged _ _ hheld hek => exact ⟨hheld, hek⟩
  | noHeaderReceived hother | headerReceived hother | ekReceivedCt1Sampled hother
  | ct2Sampled hother => simp [hother] at hstate

theorem CiphertextSide.of_ekReceivedCt1Sampled (hstate : agent.state = .ekReceivedCt1Sampled) :
    EncapsulationHeld crypto epoch data field agent ∧
      agent.ekVector = some data.keyPair.ekVector := by
  cases hside with
  | ekReceivedCt1Sampled _ _ hheld hekVector => exact ⟨hheld, hekVector⟩
  | noHeaderReceived hother | headerReceived hother | ct1Sampled hother
  | ct1Acknowledged hother | ct2Sampled hother => simp [hother] at hstate

theorem CiphertextSide.of_ct2Sampled
    (hstate : agent.state = .ct2Sampled) : agent.auth = data.nextAuth crypto epoch := by
  cases hside with
  | ct2Sampled _ _ hauth => exact hauth
  | noHeaderReceived hother | headerReceived hother | ct1Sampled hother
  | ekReceivedCt1Sampled hother | ct1Acknowledged hother => simp [hother] at hstate

end

variable (hlaw : crypto.Lawful)

include hlaw

/-- From `HeaderReceived` the agent samples its encapsulation, emits the key of the epoch and
sends the first chunk. -/
theorem ciphertextSide_send_headerReceived {randomBytes : RandomBytes}
    (hrandom : (randomBytes 32).length = 32) (hvalid : data.Valid crypto)
    (hencaps : data.encapsulation =
      crypto.encaps1 data.keyPair.ekSeed data.keyPair.hek (randomBytes 32))
    (hside : CiphertextSide I crypto epoch data agent) (hstate : agent.state = .headerReceived) :
    ∃ message next, send crypto field randomBytes agent =
        .ok ⟨message, next.epoch, some (data.outputKey crypto epoch)⟩ next ∧
      next.state = .ct1Sampled ∧ CiphertextSide I crypto epoch data next ∧
      message.epoch = next.epoch ∧ Framed message ∧ message.type = .ct1 ∧
      FromCiphertextSide I crypto epoch data message := by
  obtain rfl := hside.epoch_eq
  obtain ⟨hauth, hekSeed, hhek, hekDecoder⟩ := hside.of_headerReceived hstate
  obtain ⟨encoder, hencoder, hstreams, hcursor⟩ := createEncoderState_ok field
    (ct1_transferable hlaw hvalid)
  have hencaps1 : kemEncaps1 crypto data.keyPair.ekSeed data.keyPair.hek (randomBytes 32) =
      .ok data.encapsulation := by
    rw [kemEncaps1, checkSize_ok (ekSeed_length hlaw hvalid),
      checkSize_ok (hek_length hlaw hvalid), checkSize_ok hrandom, hencaps]
    rfl
  set sampled : MLKEMBraidAgentState := { agent with
    state := .ct1Sampled
    auth := data.nextAuth crypto agent.epoch
    encapsSecret := some data.encapsulation.encapsSecret
    ct1 := some data.encapsulation.ct1
    ct1Encoder := some encoder
    ct1ForMac := some data.encapsulation.ct1 } with hsampled
  obtain ⟨message, next, hnext, hkeeps, hmsgEpoch, htype, hcarries⟩ :=
    sendChunk_fresh I (·.ct1Encoder) (fun state encoder => { state with ct1Encoder := encoder })
      "No CT1 encoder" .ct1 sampled (ct1_transferable hlaw hvalid) rfl hstreams
      (by rw [hcursor]; decide)
  have hrun : bobSampleCt1 crypto field data.keyPair.ekSeed data.keyPair.hek randomBytes agent =
      .ok ⟨message, agent.epoch, some (data.outputKey crypto agent.epoch)⟩
        { sampled with ct1Encoder := some next } := by
    simp only [bobSampleCt1, hencaps1, fromResult_ok_bind, modify_bind, hencoder, get_bind,
      kdfOk_ok hlaw hvalid, hauth, authUpdate_ok hlaw hvalid]
    rw [bind_apply_ok (transition_apply .ct1Sampled (by rw [hstate]; rfl)), bobSendCt1Chunk]
    exact bind_apply_ok hnext
  refine ⟨message, { sampled with ct1Encoder := some next }, ?_, rfl, ?_, hmsgEpoch,
    hcarries.framed (by simp [htype]), htype, ?_⟩
  · rw [send_of_bob _ hside.isAliceState, sendBob, get_bind, hstate]
    simp only [bobSendFromHeaderReceived, hekSeed, hhek, hrun]
    rfl
  · exact .ct1Sampled rfl rfl
      ⟨rfl, hekSeed, hhek, rfl, rfl, ⟨next, rfl, hkeeps⟩⟩ (by simp [hsampled, hekDecoder])
  · exact ⟨hmsgEpoch.le, fun _ => .inr (.inl ⟨htype, hcarries⟩)⟩

/-- In every other state the agent keeps its state, and sends nothing but chunks of its
encapsulation. -/
theorem ciphertextSide_send (randomBytes : RandomBytes) (hvalid : data.Valid crypto)
    (hside : CiphertextSide I crypto epoch data agent) (hstate : agent.state ≠ .headerReceived) :
    Sends (send crypto field randomBytes agent)
      (fun next => next.state = agent.state ∧ next.headerDecoder = agent.headerDecoder ∧
        CiphertextSide I crypto epoch data next)
      (fun message => FromCiphertextSide I crypto epoch data message ∧
        (Unsampled agent → message.type = .none) ∧
        (message.type = .ct2 → agent.state = .ct2Sampled)) := by
  rw [send_of_bob _ hside.isAliceState, sendBob, get_bind]
  cases hside with
  | headerReceived hcur => exact absurd hcur hstate
  | noHeaderReceived hcur hepoch hauth hheader hek =>
    rw [hcur]
    refine (sendBare_sends .none (.inl rfl) agent).imp ?_ ?_
    · rintro next rfl
      exact ⟨hcur, rfl, .noHeaderReceived hcur hepoch hauth hheader hek⟩
    · rintro message next rfl hmsgEpoch htype
      exact ⟨⟨(hmsgEpoch.trans hepoch).le, fun _ => .inl htype⟩, fun _ => htype,
        fun hct2 => by simp [htype] at hct2⟩
  | ct1Acknowledged hcur hepoch hheld hek =>
    rw [hcur]
    refine (sendBare_sends .none (.inl rfl) agent).imp ?_ ?_
    · rintro next rfl
      exact ⟨hcur, rfl, .ct1Acknowledged hcur hepoch hheld hek⟩
    · rintro message next rfl hmsgEpoch htype
      exact ⟨⟨(hmsgEpoch.trans hepoch).le, fun _ => .inl htype⟩, fun _ => htype,
        fun hct2 => by simp [htype] at hct2⟩
  | ct1Sampled hcur hepoch hheld hek =>
    obtain ⟨encoder, hencoder, hstreams⟩ := hheld.ct1Encoder
    rw [hcur]
    refine (sendChunk_sends I _ _ _ .ct1 (by decide) (ct1_transferable hlaw hvalid) hencoder
      hstreams).imp ?_ ?_
    · rintro next ⟨encoder, rfl, hstreams⟩
      exact ⟨hcur, rfl, .ct1Sampled hcur hepoch (hheld.with_ct1Encoder hstreams) hek⟩
    · rintro message next ⟨encoder, rfl, -⟩ hmsgEpoch ⟨htype, hcarries⟩
      exact ⟨⟨(hmsgEpoch.trans hepoch).le, fun _ => .inr (.inl ⟨htype, hcarries⟩)⟩,
        fun hunsamp => by simp [Unsampled, hcur] at hunsamp,
        fun hct2 => by simp [htype] at hct2⟩
  | ekReceivedCt1Sampled hcur hepoch hheld hekVector =>
    obtain ⟨encoder, hencoder, hstreams⟩ := hheld.ct1Encoder
    rw [hcur]
    refine (sendChunk_sends I _ _ _ .ct1 (by decide) (ct1_transferable hlaw hvalid) hencoder
      hstreams).imp ?_ ?_
    · rintro next ⟨encoder, rfl, hstreams⟩
      exact ⟨hcur, rfl,
        .ekReceivedCt1Sampled hcur hepoch (hheld.with_ct1Encoder hstreams) hekVector⟩
    · rintro message next ⟨encoder, rfl, -⟩ hmsgEpoch ⟨htype, hcarries⟩
      exact ⟨⟨(hmsgEpoch.trans hepoch).le, fun _ => .inr (.inl ⟨htype, hcarries⟩)⟩,
        fun hunsamp => by simp [Unsampled, hcur] at hunsamp,
        fun hct2 => by simp [htype] at hct2⟩
  | ct2Sampled hcur hepoch hauth hct2 =>
    obtain ⟨encoder, hencoder, hstreams⟩ := hct2
    rw [hcur]
    refine (sendChunk_sends I _ _ _ .ct2 (by decide) (ct2Transfer_transferable hlaw hvalid epoch)
      hencoder hstreams).imp ?_ ?_
    · rintro next ⟨encoder, rfl, hstreams⟩
      exact ⟨hcur, rfl, .ct2Sampled hcur hepoch hauth ⟨encoder, rfl, hstreams⟩⟩
    · rintro message next ⟨encoder, rfl, -⟩ hmsgEpoch ⟨htype, hcarries⟩
      exact ⟨⟨(hmsgEpoch.trans hepoch).le, fun _ => .inr (.inr ⟨htype, hcarries⟩)⟩,
        fun hunsamp => by simp [Unsampled, hcur] at hunsamp, fun _ => rfl⟩

/-! ## Receiving -/

section

variable (hvalid : data.Valid crypto)

include hvalid

variable {message : MLKEMBraidMessage}

theorem receiveHeader_ok (hcarries : CarriesChunk I (data.headerTransfer crypto epoch) message)
    (hchunk : message.data = some chunk) (hmsg : message.epoch = epoch)
    (hside : CiphertextSide I crypto epoch data agent) (hstate : agent.state = .noHeaderReceived) :
    ∃ next, receiveHeader crypto field message chunk agent = .ok ⟨⟩ next ∧ Unsampled next ∧
      CiphertextSide I crypto epoch data next := by
  have hepoch := hside.epoch_eq
  obtain ⟨hauth, ⟨decoder, hdecoder, hcollects⟩, hek⟩ := hside.of_noHeaderReceived hstate
  have hstored : ∀ other, agent.headerDecoder = some other →
      Collects I (data.headerTransfer crypto epoch) other := by
    rw [hdecoder]
    rintro other ⟨⟩
    exact hcollects
  obtain ⟨grown, hadd, hgrown⟩ :=
    addMessageChunk_ok I hcarries hchunk (headerTransfer_length hlaw hvalid epoch) hstored
  have hverify : Authenticator.vfyHdr crypto data.auth epoch data.header
      (Authenticator.macHdr crypto data.auth epoch data.header) = .ok () := if_pos rfl
  rw [receiveHeader, get_bind]
  simp only [hadd, fromResult_ok_bind, modify_bind]
  by_cases hcompl : isDecoderComplete grown = true
  · have hdec := getDecodedMessage_ok
      (headerTransfer_transferable hlaw hvalid epoch) hgrown hcompl
    refine ⟨{ agent with
      state := .headerReceived
      headerDecoder := some grown
      ekSeed := some data.keyPair.ekSeed
      hek := some data.keyPair.hek }, ?_, .inr rfl, .headerReceived rfl hepoch hauth rfl rfl hek⟩
    rw [if_pos hcompl]
    simp only [hdec, fromResult_ok_bind, headerTransfer_take hlaw hvalid,
      headerTransfer_drop hlaw hvalid, header_take hlaw hvalid, header_drop hlaw hvalid,
      hauth, hmsg, hverify, modify_bind]
    rw [transition_apply .headerReceived (by rw [hstate]; rfl)]
  · refine ⟨{ agent with headerDecoder := some grown }, ?_, .inl hstate,
      .noHeaderReceived hstate hepoch hauth ⟨grown, rfl, hgrown⟩ hek⟩
    rw [if_neg hcompl]
    rfl

theorem bobSampleCt2_ok (hstate : agent.state = .ct2Sampled)
    (hepoch : agent.epoch = epoch) (hheld : EncapsulationHeld crypto epoch data field agent)
    (hekVector : agent.ekVector = some data.keyPair.ekVector) :
    ∃ next, bobSampleCt2 crypto agent = .ok ⟨⟩ next ∧ next.state = .ct2Sampled ∧
      CiphertextSide I crypto epoch data next := by
  obtain ⟨encoder, hencoder, hstreams, -⟩ := createEncoderState_ok field
    (ct2Transfer_transferable hlaw hvalid epoch)
  have htransfer : createEncoderState (data.ct2 ++ Authenticator.macCt crypto
      (data.nextAuth crypto epoch) epoch (data.encapsulation.ct1 ++ data.ct2)) = .ok encoder :=
    hencoder
  refine ⟨{ agent with
    encapsSecret := none
    ct2 := some data.ct2
    ct2Encoder := some encoder
    ct1ForMac := none }, ?_, hstate,
    .ct2Sampled hstate hepoch hheld.auth ⟨encoder, rfl, hstreams⟩⟩
  rw [bobSampleCt2, get_bind, hheld.encapsSecret, hheld.ekSeed, hekVector]
  simp only [modify_bind, kemEncaps2_ok hlaw hvalid, fromResult_ok_bind, hheld.ct1ForMac,
    hheld.auth, hepoch, htransfer, modify_apply]
  rw [hheld.ekSeed, hekVector]

theorem acknowledgeCt1_ok (event : TransitionEvent)
    (agent : MLKEMBraidAgentState) (hnext : stateTransitions agent.state event = some .ct2Sampled)
    (hepoch : agent.epoch = epoch) (hheld : EncapsulationHeld crypto epoch data field agent)
    (hekVector : agent.ekVector = some data.keyPair.ekVector) :
    ∃ next, (transition event >>= fun _ => bobSampleCt2 crypto) agent = .ok ⟨⟩ next ∧
      next.state = .ct2Sampled ∧ CiphertextSide I crypto epoch data next := by
  rw [bind_apply_ok (transition_apply .ct2Sampled hnext)]
  exact bobSampleCt2_ok hlaw hvalid rfl hepoch
    ⟨hheld.auth, hheld.ekSeed, hheld.hek, hheld.encapsSecret, hheld.ct1ForMac, hheld.ct1Encoder⟩
    hekVector

/-- An `ek_vector` chunk completes the key or is collected; an acknowledgment that comes with it
is recorded. -/
theorem receiveEk_ok (hcarries : CarriesChunk I data.keyPair.ekVector message)
    (hchunk : message.data = some chunk) (hside : CiphertextSide I crypto epoch data agent)
    (hstate : agent.state = .ct1Sampled ∨ agent.state = .ct1Acknowledged) :
    ∃ next, receiveEk crypto field message chunk agent = .ok ⟨⟩ next ∧ ¬ Unsampled next ∧
      CiphertextSide I crypto epoch data next := by
  have hepoch := hside.epoch_eq
  obtain ⟨hheld, hek⟩ := hside.of_collectingEk hstate
  have hsize : data.keyPair.ekVector.length = ekSize := ekVector_length hlaw hvalid
  obtain ⟨grown, hadd, hgrown⟩ := addMessageChunk_ok I hcarries hchunk hsize hek
  have hheld' : ∀ state ekVector, EncapsulationHeld crypto epoch data field
      { agent with state, ekVector, ekDecoder := some grown } := fun _ _ =>
    ⟨hheld.auth, hheld.ekSeed, hheld.hek, hheld.encapsSecret, hheld.ct1ForMac, hheld.ct1Encoder⟩
  have hgrown' : ∀ decoder, some grown = some decoder →
      Collects I data.keyPair.ekVector decoder := by
    rintro decoder ⟨⟩
    exact hgrown
  have hbinding : verifyEkHashBinding crypto (agent.ekSeed.getD []) data.keyPair.ekVector
      (agent.hek.getD []) message.epoch = .ok () := by
    rw [hheld.ekSeed, hheld.hek]
    exact if_pos (hek_eq hlaw hvalid).symm
  rw [receiveEk, get_bind]
  simp only [hadd, fromResult_ok_bind, modify_bind]
  by_cases hcompl : isDecoderComplete grown = true
  · have hdec := getDecodedMessage_ok
      (ekVector_transferable hlaw hvalid) hgrown hcompl
    rw [if_pos hcompl]
    simp only [hdec, fromResult_ok_bind, hbinding, modify_bind]
    rcases hstate with hstate | hstate
    · rw [if_pos hstate]
      by_cases hack : message.type = .ekCt1Ack
      · rw [if_pos hack]
        obtain ⟨next, hnext, hnextState, hkeeps⟩ := acknowledgeCt1_ok (I := I) hlaw hvalid
          .ekCt1AckEkComplete
          { agent with ekVector := some data.keyPair.ekVector, ekDecoder := some grown } (by rw [hstate]; rfl) hepoch (hheld' _ _) rfl
        exact ⟨next, hnext, by simp [Unsampled, hnextState], hkeeps⟩
      · rw [if_neg hack, transition_apply .ekReceivedCt1Sampled (by rw [hstate]; rfl)]
        exact ⟨_, rfl, by simp [Unsampled], .ekReceivedCt1Sampled rfl hepoch (hheld' _ _) rfl⟩
    · rw [if_neg (by rw [hstate]; decide), if_pos hstate]
      obtain ⟨next, hnext, hnextState, hkeeps⟩ := acknowledgeCt1_ok (I := I) hlaw hvalid
        .ekComplete
        { agent with ekVector := some data.keyPair.ekVector, ekDecoder := some grown } (by rw [hstate]; rfl) hepoch (hheld' _ _) rfl
      exact ⟨next, hnext, by simp [Unsampled, hnextState], hkeeps⟩
  · rw [if_neg hcompl]
    by_cases hack : message.type = .ekCt1Ack ∧ agent.state = .ct1Sampled
    · rw [if_pos hack, transition_apply .ct1Acknowledged (by rw [hack.2]; rfl)]
      exact ⟨_, rfl, by simp [Unsampled], .ct1Acknowledged rfl hepoch (hheld' _ _) hgrown'⟩
    · rw [if_neg hack]
      refine ⟨_, rfl, by rcases hstate with hstate | hstate <;> simp [Unsampled, hstate], ?_⟩
      rcases hstate with hstate | hstate
      · exact .ct1Sampled hstate hepoch (hheld' _ _) hgrown'
      · exact .ct1Acknowledged hstate hepoch (hheld' _ _) hgrown'

/-- Whatever the key side sent in this epoch is handled without an error. -/
theorem receiveBobCurrent_ok (hside : CiphertextSide I crypto epoch data agent)
    (hmsg : FromKeySide I crypto epoch data message) (hepoch : message.epoch = epoch) :
    ∃ next, receiveBobCurrent crypto field message agent = .ok ⟨⟩ next ∧
      (Unsampled next ↔ Unsampled agent) ∧ CiphertextSide I crypto epoch data next := by
  rw [receiveBobCurrent, get_bind]
  have hsame : ∃ next, (pure ⟨⟩ : AgentM PUnit) agent = .ok ⟨⟩ next ∧
      (Unsampled next ↔ Unsampled agent) ∧ CiphertextSide I crypto epoch data next :=
    ⟨agent, rfl, Iff.rfl, hside⟩
  have hacknowledge : agent.state = .ekReceivedCt1Sampled → ∃ next,
      (transition .ekCt1Ack >>= fun _ => bobSampleCt2 crypto) agent = .ok ⟨⟩ next ∧
      (Unsampled next ↔ Unsampled agent) ∧ CiphertextSide I crypto epoch data next := by
    intro hreceived
    obtain ⟨hheld, hekVector⟩ := hside.of_ekReceivedCt1Sampled hreceived
    obtain ⟨next, hnext, hnextState, hkeeps⟩ := acknowledgeCt1_ok (I := I) hlaw hvalid
      .ekCt1Ack agent (by rw [hreceived]; rfl) hside.epoch_eq hheld hekVector
    exact ⟨next, hnext, by simp [Unsampled, hnextState, hreceived], hkeeps⟩
  rcases hmsg.content hepoch with ⟨htype, hcarries⟩ | ⟨htype, hcarries⟩ | htype
  · obtain ⟨index, chunk, -, hchunk, -⟩ := id hcarries
    rw [htype, hchunk]
    by_cases hreceiving : agent.state = .noHeaderReceived
    · obtain ⟨next, hnext, hunsamp, hkeeps⟩ :=
        receiveHeader_ok hlaw hvalid hcarries hchunk hepoch hside hreceiving
      refine ⟨next, ?_, ⟨fun _ => .inl hreceiving, fun _ => hunsamp⟩, hkeeps⟩
      simp only [if_pos hreceiving, onCandidate_ok hnext]
    · simp only [if_neg hreceiving]
      exact hsame
  · obtain ⟨index, chunk, -, hchunk, -⟩ := id hcarries
    have hbranch : ∃ next, (if agent.state = .ekReceivedCt1Sampled ∧ message.type = .ekCt1Ack then
        transition .ekCt1Ack >>= fun _ => bobSampleCt2 crypto
      else if agent.state = .ct1Sampled ∨ agent.state = .ct1Acknowledged then
        onCandidate (receiveEk crypto field message chunk)
      else pure ⟨⟩) agent = .ok ⟨⟩ next ∧
        (Unsampled next ↔ Unsampled agent) ∧ CiphertextSide I crypto epoch data next := by
      by_cases hack : agent.state = .ekReceivedCt1Sampled ∧ message.type = .ekCt1Ack
      · rw [if_pos hack]
        exact hacknowledge hack.1
      by_cases hcollect : agent.state = .ct1Sampled ∨ agent.state = .ct1Acknowledged
      · obtain ⟨next, hnext, hsampled, hkeeps⟩ :=
          receiveEk_ok hlaw hvalid hcarries hchunk hside hcollect
        refine ⟨next, by rw [if_neg hack, if_pos hcollect, onCandidate_ok hnext],
          ⟨fun hunsamp => absurd hunsamp hsampled, ?_⟩, hkeeps⟩
        rcases hcollect with hcur | hcur <;> simp [Unsampled, hcur]
      · rw [if_neg hack, if_neg hcollect]
        exact hsame
    rcases htype with htype | htype <;> rw [htype] at hbranch ⊢ <;> rw [hchunk] <;> exact hbranch
  · rw [htype]
    by_cases hreceived : agent.state = .ekReceivedCt1Sampled
    · simp only [if_pos hreceived]
      exact hacknowledge hreceived
    · simp only [if_neg hreceived]
      exact hsame

/-- Receiving any message of the key side never throws and keeps the agent on the ciphertext
side. -/
theorem ciphertextSide_receive (hside : CiphertextSide I crypto epoch data agent)
    (hmsg : FromKeySide I crypto epoch data message) :
    ∃ next, receive crypto field message agent = .ok ⟨message.epoch, none⟩ next ∧
      CiphertextSide I crypto epoch data next ∧ (Unsampled next ↔ Unsampled agent) ∧
      (next = agent ∨ message.epoch = epoch ∧ agent.state ≠ .ct2Sampled) := by
  have hepoch := hside.epoch_eq
  rcases Nat.lt_or_eq_of_le hmsg.epoch_le with hlower | hcur
  · exact ⟨agent, receive_of_earlier (by omega), hside, Iff.rfl, .inl rfl⟩
  by_cases hstate : agent.state = .ct2Sampled
  · exact ⟨agent, receive_of_bob_current hside.isAliceState (by omega)
      (receiveBobCurrent_ct2Sampled message hstate), hside, Iff.rfl, .inl rfl⟩
  · obtain ⟨next, hnext, hunsamp, hkeeps⟩ :=
      receiveBobCurrent_ok hlaw hvalid hside hmsg hcur
    exact ⟨next, receive_of_bob_current hside.isAliceState (by omega) hnext, hkeeps, hunsamp,
      .inr ⟨hcur, hstate⟩⟩

end

omit hlaw in
variable (crypto field) in
/-- The role swap: a message of the next epoch makes the agent the key side of that epoch. -/
theorem receive_nextEpoch {message : MLKEMBraidMessage} (hstate : agent.state = .ct2Sampled)
    (hmsg : message.epoch = agent.epoch + 1) :
    receive crypto field message agent = .ok ⟨message.epoch, none⟩
      { state := .keysUnsampled, epoch := agent.epoch + 1, auth := agent.auth } := by
  rw [receive, get_bind, if_neg (by rw [hstate]; decide), receiveBob, get_bind,
    if_neg (by omega), if_pos ⟨hstate, hmsg⟩,
    bind_apply_ok (transition_apply .keysUnsampled (by rw [hstate]; rfl)), modify_bind]
  rfl

end

end SignalProtocol.Braid

import SignalProtocol.Proof.BraidCiphertextSide

/-! # Key agreement of the braid

The joint invariant: either both sides work on one epoch, or the key side has completed it and
waits for the role swap. -/

namespace SignalProtocol.Braid

open Rs Results List

variable {field : GaloisField16} {K : Type*} [Field K] (I : field.Interpretation K)
  {randomBytes : RandomBytes} {shorter longer : List OutputKey} {receivingEpoch : ℕ}

section

variable (crypto : BraidCrypto) (epoch : ℕ) (data : EpochData)

structure Aligned (keyParty ctParty : Participant) : Prop where
  valid : data.Valid crypto
  epoch_pos : 0 < epoch
  keySide : KeySide I crypto epoch data keyParty.agent
  ciphertextSide : CiphertextSide I crypto epoch data ctParty.agent
  fromKeySide : ∀ message ∈ keyParty.sent, FromKeySide I crypto epoch data message
  fromCiphertextSide : ∀ message ∈ ctParty.sent, FromCiphertextSide I crypto epoch data message
  fresh : keyParty.agent.state = .keysUnsampled →
    (∀ message ∈ keyParty.sent, message.epoch < epoch) ∧
      ctParty.agent.state = .noHeaderReceived ∧
      ctParty.agent.headerDecoder = some (createDecoderState headerSize)
  unsampled : Unsampled ctParty.agent →
    (keyParty.agent.state = .keysUnsampled ∨ keyParty.agent.state = .keysSampled) ∧
      ∀ message ∈ ctParty.sent, message.epoch = epoch → message.type = .none
  lastTransfer : ∀ message ∈ ctParty.sent, message.epoch = epoch → message.type = .ct2 →
    ctParty.agent.state = .ct2Sampled
  keys : keyParty.keys.map (·.epoch) = List.range' 1 (epoch - 1)
  keys_unsampled : Unsampled ctParty.agent → ctParty.keys = keyParty.keys
  keys_sampled : ¬ Unsampled ctParty.agent →
    ctParty.keys = keyParty.keys ++ [data.outputKey crypto epoch]

structure HandOver (finished waiting : Participant) : Prop where
  valid : data.Valid crypto
  epoch_pos : 0 < epoch
  completed : finished.agent = nextCiphertextSide crypto epoch data
  waitingSide : CiphertextSide I crypto epoch data waiting.agent
  waiting_state : waiting.agent.state = .ct2Sampled
  fromFinished : ∀ message ∈ finished.sent, message.epoch ≤ epoch + 1 ∧
    (message.epoch = epoch + 1 → message.type = .none)
  fromWaiting : ∀ message ∈ waiting.sent, message.epoch ≤ epoch
  keys : finished.keys.map (·.epoch) = List.range' 1 epoch
  keys_eq : waiting.keys = finished.keys

end

/-- A call of `Send` that fails, or reports the epoch it ends in and frames its message. -/
def Reports (result : EStateM.Result ProtocolError MLKEMBraidAgentState SendResult) : Prop :=
  (∃ message next outputKey, result = .ok ⟨message, next.epoch, outputKey⟩ next ∧
    message.epoch = next.epoch ∧ Framed message ∧
    ∀ key, outputKey = some key → key.epochSecret.length = 32) ∨
  ∃ error next, result = .error error next

/-- A call of `Receive` that returns, with a key of the right size if it emits one. -/
def Accepts (result : EStateM.Result ProtocolError MLKEMBraidAgentState ReceiveResult) : Prop :=
  ∃ received next, result = .ok received next ∧
    ∀ key, received.outputKey = some key → key.epochSecret.length = 32

theorem Accepts.of_none {result : EStateM.Result ProtocolError MLKEMBraidAgentState ReceiveResult}
    {next : MLKEMBraidAgentState}
    (hok : result = .ok ⟨receivingEpoch, none⟩ next) : Accepts result :=
  ⟨_, next, hok, fun _ hkey => nomatch hkey⟩

def Agreement (crypto : BraidCrypto) (joint : Joint) : Prop :=
  ∃ side epoch data, Aligned I crypto epoch data (joint side) (joint side.other) ∨
    HandOver I crypto epoch data (joint side) (joint side.other)

section

variable {crypto : BraidCrypto} {epoch : ℕ} {data : EpochData} {participant : Participant}

theorem Participant.send_of_sends
    {good : MLKEMBraidAgentState → Prop} {emits : MLKEMBraidMessage → Prop}
    (hsends : Sends (Braid.send crypto field randomBytes participant.agent) good emits) :
    Reports (Braid.send crypto field randomBytes participant.agent) ∧
      good (participant.send crypto field randomBytes).agent ∧
      (participant.send crypto field randomBytes).keys = participant.keys ∧
      ∀ message ∈ (participant.send crypto field randomBytes).sent,
        message ∈ participant.sent ∨ emits message := by
  rcases hsends with ⟨message, next, hok, hgood, hepoch, hframed, hemits⟩ | ⟨next, herr, hgood⟩
  · rw [Participant.send, hok]
    refine ⟨.inl ⟨message, next, none, rfl, hepoch, hframed, fun _ hkey => nomatch hkey⟩, hgood, append_nil _, fun other hother => ?_⟩
    rcases mem_append.mp hother with hother | hother
    · exact .inl hother
    · rw [mem_singleton] at hother
      rw [hother]
      exact .inr hemits
  · rw [Participant.send, herr]
    exact ⟨.inr ⟨_, next, rfl⟩, hgood, rfl, fun other hother => .inl hother⟩

variable {message : MLKEMBraidMessage} {next : MLKEMBraidAgentState}

theorem Participant.receive_of_ok {result : ReceiveResult}
    (hok : Braid.receive crypto field message participant.agent = .ok result next) :
    participant.receive crypto field message =
      ⟨next, participant.sent, participant.keys ++ result.outputKey.toList⟩ := by
  rw [Participant.receive, hok]

theorem Participant.receive_of_none
    (hok : Braid.receive crypto field message participant.agent = .ok ⟨receivingEpoch, none⟩ next) :
    participant.receive crypto field message = { participant with agent := next } := by
  rw [Participant.receive_of_ok hok, Option.toList_none, append_nil]

end

/-! ## Steps of an aligned pair -/

namespace Aligned

variable {crypto : BraidCrypto} {epoch : ℕ} {data : EpochData} {keyParty ctParty : Participant}
  (halign : Aligned I crypto epoch data keyParty ctParty) (hlawful : crypto.Lawful)

include halign hlawful

theorem send_keysUnsampled (hrandom : (randomBytes 64).length = 64)
    (hstate : keyParty.agent.state = .keysUnsampled) :
    Reports (Braid.send crypto field randomBytes keyParty.agent) ∧ ∃ data, Aligned I crypto epoch data (keyParty.send crypto field randomBytes) ctParty := by
  obtain ⟨hprev, hctState, hdecoder⟩ := halign.fresh hstate
  obtain ⟨hepoch, hauth, hct1, hct2⟩ := halign.keySide.of_keysUnsampled hstate
  obtain ⟨hctAuth, -, hek⟩ := halign.ciphertextSide.of_noHeaderReceived hctState
  have hunsamp : Unsampled ctParty.agent := .inl hctState
  obtain ⟨sampled, hvalid, hsampledAuth, hkeyPair, -⟩ :=
    EpochData.exists_valid halign.valid.rootKey_length hlawful (randomBytes 64) []
  obtain ⟨hreports, ⟨hsent, hkeySide⟩, hkeys, hmsgs⟩ := Participant.send_of_sends
    (keySide_send_keysUnsampled I hlawful hrandom hvalid (by rw [hkeyPair])
      (.keysUnsampled hstate hepoch (hauth.trans hsampledAuth.symm) hct1 hct2) hstate)
  refine ⟨hreports, sampled, {
    valid := hvalid
    epoch_pos := halign.epoch_pos
    keySide := hkeySide
    ciphertextSide := .noHeaderReceived hctState halign.ciphertextSide.epoch_eq
      (hctAuth.trans hsampledAuth.symm) ⟨_, hdecoder, ?_⟩ hek
    fromKeySide := ?_
    fromCiphertextSide := ?_
    fresh := fun hagain => by simp [hsent] at hagain
    unsampled := fun _ => ⟨.inr hsent, (halign.unsampled hunsamp).2⟩
    lastTransfer := halign.lastTransfer
    keys := by rw [hkeys]; exact halign.keys
    keys_unsampled := fun _ => by rw [hkeys]; exact halign.keys_unsampled hunsamp
    keys_sampled := fun hsampled => absurd hunsamp hsampled }⟩
  · rw [← headerTransfer_length hlawful hvalid epoch]
    exact createDecoderState_collects I _
  · intro message hmsg
    rcases hmsgs message hmsg with hmsg | hmsg
    · have hlower := hprev message hmsg
      exact ⟨hlower.le, fun heq => by omega⟩
    · exact hmsg
  · intro message hmsg
    exact ⟨(halign.fromCiphertextSide message hmsg).epoch_le,
      fun heq => .inl ((halign.unsampled hunsamp).2 message hmsg heq)⟩

theorem send_keySide (hrandom : ∀ length, (randomBytes length).length = length) :
    Reports (Braid.send crypto field randomBytes keyParty.agent) ∧
    ∃ data, Aligned I crypto epoch data (keyParty.send crypto field randomBytes) ctParty := by
  by_cases hstate : keyParty.agent.state = .keysUnsampled
  · exact halign.send_keysUnsampled I hlawful (hrandom 64) hstate
  obtain ⟨hreports, ⟨hsent, hkeySide⟩, hkeys, hmsgs⟩ := Participant.send_of_sends
    (keySide_send I randomBytes hlawful halign.valid halign.keySide hstate)
  refine ⟨hreports, data, { halign with
    keySide := hkeySide
    fromKeySide := ?_
    fresh := fun hagain => absurd (hsent.symm.trans hagain) hstate
    unsampled := fun hunsamp => by rw [hsent]; exact halign.unsampled hunsamp
    keys := by rw [hkeys]; exact halign.keys
    keys_unsampled := by rw [hkeys]; exact halign.keys_unsampled
    keys_sampled := by rw [hkeys]; exact halign.keys_sampled }⟩
  intro message hmsg
  rcases hmsgs message hmsg with hmsg | hmsg
  · exact halign.fromKeySide message hmsg
  · exact hmsg

theorem send_headerReceived
    (hrandom : (randomBytes 32).length = 32) (hstate : ctParty.agent.state = .headerReceived) :
    Reports (Braid.send crypto field randomBytes ctParty.agent) ∧
    ∃ data, Aligned I crypto epoch data keyParty (ctParty.send crypto field randomBytes) := by
  have hunsamp : Unsampled ctParty.agent := .inr hstate
  obtain ⟨hkeyState, hnone⟩ := halign.unsampled hunsamp
  obtain ⟨hauth, hekSeed, hhek, hek⟩ := halign.ciphertextSide.of_headerReceived hstate
  obtain ⟨seed, hseed⟩ := halign.valid.keyPair
  obtain ⟨sampled, hvalid, hsampledAuth, hkeyPair, hencaps⟩ :=
    EpochData.exists_valid halign.valid.rootKey_length hlawful seed (randomBytes 32)
  have hsameKeys : sampled.keyPair = data.keyPair := hkeyPair.trans hseed.symm
  obtain ⟨message, next, hsend, hnextState, hnextSide, hepoch, hframed, htype, hcontent⟩ :=
    ciphertextSide_send_headerReceived (I := I) hlawful hrandom hvalid
      (by rw [hencaps, hkeyPair])
      (.headerReceived hstate halign.ciphertextSide.epoch_eq (hauth.trans hsampledAuth.symm)
        (by rw [hekSeed, hsameKeys]) (by rw [hhek, hsameKeys]) hek) hstate
  have hsampled : ¬ Unsampled next := by simp [Unsampled, hnextState]
  have hparty : ctParty.send crypto field randomBytes =
      ⟨next, ctParty.sent ++ [message], ctParty.keys ++ [sampled.outputKey crypto epoch]⟩ := by
    rw [Participant.send, hsend]
    rfl
  have hreports : Reports (Braid.send crypto field randomBytes ctParty.agent) := by
    refine .inl ⟨message, next, _, hsend, hepoch, hframed, ?_⟩
    rintro key ⟨⟩
    exact hlawful.hkdf_length _ _ _ _
  rw [hparty]
  refine ⟨hreports, sampled, {
    valid := hvalid
    epoch_pos := halign.epoch_pos
    keySide := halign.keySide.resample hkeyState hsampledAuth hsameKeys
    ciphertextSide := hnextSide
    fromKeySide := fun message hmsg =>
      (halign.fromKeySide message hmsg).resample hsampledAuth hsameKeys
    fromCiphertextSide := ?_
    fresh := fun hfresh => ?_
    unsampled := fun hagain => absurd hagain hsampled
    lastTransfer := ?_
    keys := halign.keys
    keys_unsampled := fun hagain => absurd hagain hsampled
    keys_sampled := fun _ => by rw [halign.keys_unsampled hunsamp] }⟩
  · intro other hother
    rcases mem_append.mp hother with hother | hother
    · exact ⟨(halign.fromCiphertextSide other hother).epoch_le,
        fun heq => .inl (hnone other hother heq)⟩
    · rw [mem_singleton] at hother
      rw [hother]
      exact hcontent
  · obtain ⟨-, hctState, -⟩ := halign.fresh hfresh
    simp [hctState] at hstate
  · intro other hother heq hct2
    rcases mem_append.mp hother with hother | hother
    · simp [hnone other hother heq] at hct2
    · rw [mem_singleton.mp hother, htype] at hct2
      cases hct2

theorem send_ciphertextSide (hrandom : ∀ length, (randomBytes length).length = length) :
    Reports (Braid.send crypto field randomBytes ctParty.agent) ∧
    ∃ data, Aligned I crypto epoch data keyParty (ctParty.send crypto field randomBytes) := by
  by_cases hstate : ctParty.agent.state = .headerReceived
  · exact halign.send_headerReceived I hlawful (hrandom 32) hstate
  obtain ⟨hreports, ⟨hsent, hdecoder, hside⟩, hkeys, hmsgs⟩ := Participant.send_of_sends
    (ciphertextSide_send hlawful randomBytes halign.valid halign.ciphertextSide hstate)
  have hsame : Unsampled (ctParty.send crypto field randomBytes).agent ↔
      Unsampled ctParty.agent := by
    rw [Unsampled, hsent, Unsampled]
  refine ⟨hreports, data, { halign with
    ciphertextSide := hside
    fromCiphertextSide := ?_
    fresh := by rw [hsent, hdecoder]; exact halign.fresh
    unsampled := fun hunsamp => ?_
    lastTransfer := ?_
    keys_unsampled := by rw [hkeys, hsame]; exact halign.keys_unsampled
    keys_sampled := by rw [hkeys, hsame]; exact halign.keys_sampled }⟩
  · intro message hmsg
    rcases hmsgs message hmsg with hmsg | hmsg
    · exact halign.fromCiphertextSide message hmsg
    · exact hmsg.1
  · rw [hsame] at hunsamp
    refine ⟨(halign.unsampled hunsamp).1, fun message hmsg heq => ?_⟩
    rcases hmsgs message hmsg with hmsg | hmsg
    · exact (halign.unsampled hunsamp).2 message hmsg heq
    · exact hmsg.2.1 hunsamp
  · intro message hmsg heq hct2
    rw [hsent]
    rcases hmsgs message hmsg with hmsg | hmsg
    · exact halign.lastTransfer message hmsg heq hct2
    · exact hmsg.2.2 hct2

variable {message : MLKEMBraidMessage}

theorem receive_keySide (hmsg : message ∈ ctParty.sent) :
    Accepts (Braid.receive crypto field message keyParty.agent) ∧
    (Aligned I crypto epoch data (keyParty.receive crypto field message) ctParty ∨
      HandOver I crypto epoch data (keyParty.receive crypto field message) ctParty) := by
  have hpos := halign.epoch_pos
  rcases keySide_receive I hlawful halign.valid halign.keySide
    (halign.fromCiphertextSide message hmsg) with
    ⟨next, hnext, hside, hchange⟩ | ⟨hepoch, htype, hnext⟩
  · refine ⟨.of_none hnext, .inl ?_⟩
    rw [Participant.receive_of_none hnext]
    rcases hchange with rfl | ⟨hepoch, htype, hbefore, hafter⟩
    · exact halign
    · exact { halign with
        keySide := hside
        fresh := fun hfresh => absurd hfresh hafter
        unsampled := fun hunsamp =>
          absurd ((halign.unsampled hunsamp).2 message hmsg hepoch) htype }
  · have hstate := halign.lastTransfer message hmsg hepoch htype
    have hsampled : ¬ Unsampled ctParty.agent := by simp [Unsampled, hstate]
    refine ⟨⟨_, _, hnext, ?_⟩, .inr ?_⟩
    · rintro key ⟨⟩
      exact hlawful.hkdf_length _ _ _ _
    rw [Participant.receive_of_ok hnext]
    exact {
      valid := halign.valid
      epoch_pos := hpos
      completed := rfl
      waitingSide := halign.ciphertextSide
      waiting_state := hstate
      fromFinished := fun other hother => by
        have hle := (halign.fromKeySide other hother).epoch_le
        exact ⟨by omega, fun heq => by omega⟩
      fromWaiting := fun other hother => (halign.fromCiphertextSide other hother).epoch_le
      keys := by
        rw [Option.toList_some, map_append, halign.keys, map_singleton]
        change List.range' 1 (epoch - 1) ++ [epoch] = List.range' 1 epoch
        obtain ⟨completed, rfl⟩ := Nat.exists_eq_add_of_le' hpos
        rw [Nat.add_sub_cancel, List.range'_1_concat, Nat.add_comm 1 completed]
      keys_eq := halign.keys_sampled hsampled }

theorem receive_ciphertextSide (hmsg : message ∈ keyParty.sent) :
    Accepts (Braid.receive crypto field message ctParty.agent) ∧
    Aligned I crypto epoch data keyParty (ctParty.receive crypto field message) := by
  obtain ⟨next, hnext, hside, hunsamp, hchange⟩ := ciphertextSide_receive hlawful
    halign.valid halign.ciphertextSide (halign.fromKeySide message hmsg)
  refine ⟨.of_none hnext, ?_⟩
  rw [Participant.receive_of_none hnext]
  rcases hchange with rfl | ⟨hepoch, hstate⟩
  · exact halign
  · exact { halign with
      ciphertextSide := hside
      fresh := fun hfresh => by
        have hlower := (halign.fresh hfresh).1 message hmsg
        omega
      unsampled := fun hagain => halign.unsampled (hunsamp.mp hagain)
      lastTransfer := fun other hother heq hct2 =>
        absurd (halign.lastTransfer other hother heq hct2) hstate
      keys_unsampled := fun hagain => halign.keys_unsampled (hunsamp.mp hagain)
      keys_sampled := fun hagain => halign.keys_sampled fun hbefore =>
        hagain (hunsamp.mpr hbefore) }

end Aligned

namespace HandOver

variable {crypto : BraidCrypto} {epoch : ℕ} {data : EpochData} {finished waiting : Participant}
  (hover : HandOver I crypto epoch data finished waiting)

include hover

theorem send_finished (randomBytes : RandomBytes) :
    Reports (Braid.send crypto field randomBytes finished.agent) ∧
    HandOver I crypto epoch data (finished.send crypto field randomBytes) waiting := by
  have hsend : Braid.send crypto field randomBytes finished.agent =
      .ok ⟨⟨epoch + 1, .none, none, none⟩, epoch + 1, none⟩ finished.agent := by
    rw [hover.completed]
    rfl
  have hparty : finished.send crypto field randomBytes =
      { finished with sent := finished.sent ++ [⟨epoch + 1, .none, none, none⟩] } := by
    rw [Participant.send, hsend]
    simp
  rw [hparty]
  have hreports : Reports (Braid.send crypto field randomBytes finished.agent) := by
    rw [hover.completed]
    exact .inl ⟨⟨epoch + 1, .none, none, none⟩, nextCiphertextSide crypto epoch data, none, rfl,
      rfl, .bare (.inl rfl) rfl rfl, fun _ hkey => nomatch hkey⟩
  refine ⟨hreports, ?_⟩
  refine { hover with fromFinished := fun message hmsg => ?_ }
  rcases mem_append.mp hmsg with hmsg | hmsg
  · exact hover.fromFinished message hmsg
  · rw [mem_singleton.mp hmsg]
    exact ⟨le_rfl, fun _ => rfl⟩

theorem send_waiting (hlawful : crypto.Lawful) (randomBytes : RandomBytes) :
    Reports (Braid.send crypto field randomBytes waiting.agent) ∧
    HandOver I crypto epoch data finished (waiting.send crypto field randomBytes) := by
  have hstate : waiting.agent.state ≠ .headerReceived := by simp [hover.waiting_state]
  obtain ⟨hreports, ⟨hsent, -, hside⟩, hkeys, hmsgs⟩ := Participant.send_of_sends
    (ciphertextSide_send hlawful randomBytes hover.valid hover.waitingSide hstate)
  refine ⟨hreports, ?_⟩
  refine { hover with
    waitingSide := hside
    waiting_state := hsent.trans hover.waiting_state
    fromWaiting := fun message hmsg => ?_
    keys_eq := hkeys.trans hover.keys_eq }
  rcases hmsgs message hmsg with hmsg | hmsg
  · exact hover.fromWaiting message hmsg
  · exact hmsg.1.epoch_le

theorem receive_finished {message : MLKEMBraidMessage} (hmsg : message ∈ waiting.sent) :
    Accepts (Braid.receive crypto field message finished.agent) ∧
    HandOver I crypto epoch data (finished.receive crypto field message) waiting := by
  have hle := hover.fromWaiting message hmsg
  have hnext : Braid.receive crypto field message finished.agent =
      .ok ⟨message.epoch, none⟩ finished.agent := by
    refine receive_of_earlier ?_
    rw [hover.completed]
    exact Nat.lt_succ_of_le hle
  exact ⟨.of_none hnext, by rw [Participant.receive_of_none hnext]; exact hover⟩

theorem swap (hlawful : crypto.Lawful) :
    ∃ data, Aligned I crypto (epoch + 1) data
      { waiting with agent :=
        { state := .keysUnsampled, epoch := epoch + 1, auth := waiting.agent.auth } }
      finished := by
  have hauth := hover.waitingSide.of_ct2Sampled hover.waiting_state
  have hrootKey : (data.nextAuth crypto epoch).rootKey.length = 32 :=
    nextAuth_rootKey_length hlawful epoch
  obtain ⟨next, hvalid, hnextAuth, -, -⟩ := EpochData.exists_valid hrootKey hlawful [] []
  have hunsamp : Unsampled finished.agent := .inl (by rw [hover.completed]; rfl)
  exact ⟨next, {
    valid := hvalid
    epoch_pos := Nat.succ_pos epoch
    keySide := .keysUnsampled rfl rfl (hauth.trans hnextAuth.symm) rfl rfl
    ciphertextSide := by
      rw [hover.completed]
      refine .noHeaderReceived rfl rfl hnextAuth.symm ⟨_, rfl, ?_⟩ rfl
      rw [← headerTransfer_length hlawful hvalid (epoch + 1)]
      exact createDecoderState_collects I _
    fromKeySide := fun message hmsg => by
      have hle := hover.fromWaiting message hmsg
      exact ⟨by omega, fun heq => by omega⟩
    fromCiphertextSide := fun message hmsg => by
      obtain ⟨hle, hnone⟩ := hover.fromFinished message hmsg
      exact ⟨hle, fun heq => .inl (hnone heq)⟩
    fresh := fun _ => ⟨fun message hmsg =>
        Nat.lt_succ_of_le (hover.fromWaiting message hmsg),
      by rw [hover.completed]; exact ⟨rfl, rfl⟩⟩
    unsampled := fun _ => ⟨.inl rfl, fun message hmsg =>
      (hover.fromFinished message hmsg).2⟩
    lastTransfer := fun message hmsg heq hct2 => by
      simp [(hover.fromFinished message hmsg).2 heq] at hct2
    keys := (congrArg _ hover.keys_eq).trans hover.keys
    keys_unsampled := fun _ => hover.keys_eq.symm
    keys_sampled := fun hsampled => absurd hunsamp hsampled }⟩

/-- The waiting party ignores what belongs to the completed epoch. -/
theorem receive_waiting_of_le (message : MLKEMBraidMessage) (hle : message.epoch ≤ epoch) :
    Accepts (Braid.receive crypto field message waiting.agent) ∧
    waiting.receive crypto field message = waiting := by
  have hepoch := hover.waitingSide.epoch_eq
  have hsame : Braid.receive crypto field message waiting.agent =
      .ok ⟨message.epoch, none⟩ waiting.agent := by
    rcases Nat.lt_or_eq_of_le hle with hprev | hcur
    · exact receive_of_earlier (by omega)
    · exact receive_of_bob_current hover.waitingSide.isAliceState (by omega)
        (receiveBobCurrent_ct2Sampled message hover.waiting_state)
  exact ⟨.of_none hsame, Participant.receive_of_none hsame⟩

theorem receive_waiting (hlawful : crypto.Lawful) {message : MLKEMBraidMessage}
    (hmsg : message ∈ finished.sent) :
    Accepts (Braid.receive crypto field message waiting.agent) ∧
    (HandOver I crypto epoch data finished (waiting.receive crypto field message) ∨
      ∃ data, Aligned I crypto (epoch + 1) data (waiting.receive crypto field message)
        finished) := by
  obtain ⟨hle, -⟩ := hover.fromFinished message hmsg
  have hepoch := hover.waitingSide.epoch_eq
  rcases Nat.lt_or_eq_of_le hle with hlower | hnextEpoch
  · obtain ⟨haccepts, hsame⟩ :=
      hover.receive_waiting_of_le I message (Nat.le_of_lt_succ hlower)
    exact ⟨haccepts, .inl (by rw [hsame]; exact hover)⟩
  · have hswap := receive_nextEpoch field crypto hover.waiting_state
      (hnextEpoch.trans (by rw [hepoch]))
    refine ⟨.of_none hswap, .inr ?_⟩
    rw [Participant.receive_of_none hswap, hepoch]
    exact hover.swap I hlawful

end HandOver

section

variable {I} {crypto : BraidCrypto} {joint : Joint}
  {secret : Bytes}

theorem authInit_rootKey_length (hlawful : crypto.Lawful) {auth : AuthenticatorState}
    (hauth : Authenticator.init crypto secret = .ok auth) : auth.rootKey.length = 32 := by
  obtain ⟨derived, hderive, hres⟩ := bind_eq_ok_iff.mp hauth
  obtain ⟨-, -, hderive⟩ := bind_eq_ok_iff.mp hderive
  obtain ⟨-, -, hderive⟩ := bind_eq_ok_iff.mp hderive
  cases hderive
  cases hres
  rw [length_take, hlawful.hkdf_length]
  rfl

theorem Aligned.of_start (hlawful : crypto.Lawful) (hstart : JointStart crypto secret joint) :
    ∃ data, Aligned I crypto 1 data (joint .alice) (joint .bob) := by
  obtain ⟨halice, hbob, hempty⟩ := hstart
  obtain ⟨auth, hauth, halice⟩ := bind_eq_ok_iff.mp halice
  obtain ⟨bobAuth, hbobAuth, hbob⟩ := bind_eq_ok_iff.mp hbob
  cases hauth.symm.trans hbobAuth
  rw [pure_eq_ok, Except.ok.injEq] at halice hbob
  obtain ⟨data, hvalid, hdataAuth, -, -⟩ :=
    EpochData.exists_valid (authInit_rootKey_length hlawful hauth) hlawful [] []
  have hunsamp : Unsampled (joint .bob).agent := .inl (by rw [← hbob])
  have hnoMessage : ∀ side message, message ∉ (joint side).sent := by
    intro side message
    rw [(hempty side).1]
    exact not_mem_nil
  exact ⟨data, {
    valid := hvalid
    epoch_pos := Nat.one_pos
    keySide := by
      rw [← halice]
      exact .keysUnsampled rfl rfl hdataAuth.symm rfl rfl
    ciphertextSide := by
      rw [← hbob]
      refine .noHeaderReceived rfl rfl hdataAuth.symm ⟨_, rfl, ?_⟩ rfl
      rw [← headerTransfer_length hlawful hvalid 1]
      exact createDecoderState_collects I _
    fromKeySide := fun message hmsg => absurd hmsg (hnoMessage _ _)
    fromCiphertextSide := fun message hmsg => absurd hmsg (hnoMessage _ _)
    fresh := fun _ => ⟨fun message hmsg => absurd hmsg (hnoMessage _ _),
      by rw [← hbob]; exact ⟨rfl, rfl⟩⟩
    unsampled := fun _ => ⟨.inl (by rw [← halice]),
      fun message hmsg => absurd hmsg (hnoMessage _ _)⟩
    lastTransfer := fun message hmsg => absurd hmsg (hnoMessage _ _)
    keys := by rw [(hempty _).2]; rfl
    keys_unsampled := fun _ => by rw [(hempty _).2, (hempty _).2]
    keys_sampled := fun hsampled => absurd hunsamp hsampled }⟩

variable {next : Joint}

theorem JointStep.cases_of_side (hstep : JointStep crypto field joint next) (side : Side) :
    (∃ randomBytes, (∀ length, (randomBytes length).length = length) ∧
      (next side = (joint side).send crypto field randomBytes ∧ next side.other = joint side.other ∨
        next side = joint side ∧
          next side.other = (joint side.other).send crypto field randomBytes)) ∨
    (∃ message ∈ (joint side.other).sent,
      next side = (joint side).receive crypto field message ∧ next side.other = joint side.other) ∨
    ∃ message ∈ (joint side).sent, next side = joint side ∧
      next side.other = (joint side.other).receive crypto field message := by
  cases hstep with
  | send actor randomBytes hrandom =>
    refine .inl ⟨randomBytes, hrandom, ?_⟩
    rcases actor.eq_or_eq_other side with rfl | rfl
    · exact .inl (by simp)
    · exact .inr (by simp [side.other_ne.symm])
  | receive actor message hmsg =>
    rcases actor.eq_or_eq_other side with rfl | rfl
    · exact .inr (.inl ⟨message, hmsg, by simp⟩)
    · rw [Side.other_other] at hmsg
      exact .inr (.inr ⟨message, hmsg, by simp [side.other_ne.symm]⟩)

theorem Agreement.of_start (hlawful : crypto.Lawful)
    (hstart : JointStart crypto secret joint) : Agreement I crypto joint := by
  obtain ⟨data, halign⟩ := Aligned.of_start (I := I) hlawful hstart
  exact ⟨.alice, 1, data, .inl halign⟩

theorem Agreement.step (hlawful : crypto.Lawful) (hagreement : Agreement I crypto joint)
    (hstep : JointStep crypto field joint next) : Agreement I crypto next := by
  obtain ⟨side, epoch, data, halign | hover⟩ := hagreement
  · rcases hstep.cases_of_side side with
      ⟨randomBytes, hrandom, ⟨hside, hother⟩ | ⟨hside, hother⟩⟩ |
        ⟨message, hmsg, hside, hother⟩ | ⟨message, hmsg, hside, hother⟩
    · obtain ⟨-, sampled, hnext⟩ := halign.send_keySide I hlawful hrandom
      exact ⟨side, epoch, sampled, .inl (by rw [hside, hother]; exact hnext)⟩
    · obtain ⟨-, sampled, hnext⟩ := halign.send_ciphertextSide I hlawful hrandom
      exact ⟨side, epoch, sampled, .inl (by rw [hside, hother]; exact hnext)⟩
    · refine ⟨side, epoch, data, ?_⟩
      rw [hside, hother]
      exact (halign.receive_keySide I hlawful hmsg).2
    · refine ⟨side, epoch, data, .inl ?_⟩
      rw [hside, hother]
      exact (halign.receive_ciphertextSide I hlawful hmsg).2
  · rcases hstep.cases_of_side side with
      ⟨randomBytes, hrandom, ⟨hside, hother⟩ | ⟨hside, hother⟩⟩ |
        ⟨message, hmsg, hside, hother⟩ | ⟨message, hmsg, hside, hother⟩
    · refine ⟨side, epoch, data, .inr ?_⟩
      rw [hside, hother]
      exact (hover.send_finished I randomBytes).2
    · refine ⟨side, epoch, data, .inr ?_⟩
      rw [hside, hother]
      exact (hover.send_waiting I hlawful randomBytes).2
    · refine ⟨side, epoch, data, .inr ?_⟩
      rw [hside, hother]
      exact (hover.receive_finished I hmsg).2
    · rcases (hover.receive_waiting I hlawful hmsg).2 with hnext | ⟨swapped, hnext⟩
      · refine ⟨side, epoch, data, .inr ?_⟩
        rw [hside, hother]
        exact hnext
      · refine ⟨side.other, epoch + 1, swapped, .inl ?_⟩
        rw [Side.other_other, hside, hother]
        exact hnext

theorem Agreement.of_reachable (hlawful : crypto.Lawful)
    (hreach : (jointSystem crypto field secret).Reachable joint) : Agreement I crypto joint :=
  hreach.invariant (fun _ hstart => .of_start hlawful hstart)
    fun _ _ hbefore hstep => hbefore.step hlawful hstep

def KeysAgree (shorter longer : List OutputKey) : Prop :=
  shorter <+: longer ∧ ∃ count, longer.map (·.epoch) = List.range' 1 count

theorem Aligned.keysAgree {epoch : ℕ} {data : EpochData} {keyParty ctParty : Participant}
    (halign : Aligned I crypto epoch data keyParty ctParty) :
    KeysAgree keyParty.keys ctParty.keys := by
  by_cases hunsamp : Unsampled ctParty.agent
  · rw [halign.keys_unsampled hunsamp]
    exact ⟨prefix_rfl, _, halign.keys⟩
  · obtain ⟨completed, rfl⟩ := Nat.exists_eq_add_of_le' halign.epoch_pos
    refine ⟨⟨_, (halign.keys_sampled hunsamp).symm⟩, completed + 1, ?_⟩
    rw [halign.keys_sampled hunsamp, map_append, halign.keys, Nat.add_sub_cancel,
      List.range'_1_concat, Nat.add_comm 1 completed]
    rfl

theorem HandOver.keysAgree {epoch : ℕ} {data : EpochData} {finished waiting : Participant}
    (hover : HandOver I crypto epoch data finished waiting) :
    KeysAgree finished.keys waiting.keys := by
  rw [hover.keys_eq]
  exact ⟨prefix_rfl, epoch, hover.keys⟩

theorem Agreement.keysAgree (hagreement : Agreement I crypto joint) :
    ∃ side : Side, KeysAgree (joint side).keys (joint side.other).keys := by
  obtain ⟨side, epoch, data, halign | hover⟩ := hagreement
  · exact ⟨side, halign.keysAgree⟩
  · exact ⟨side, hover.keysAgree⟩

theorem Agreement.epochs (hagreement : Agreement I crypto joint) (side : Side) :
    (joint side).agent.epoch ≤ (joint side.other).agent.epoch + 1 := by
  obtain ⟨holder, epoch, data, halign | hover⟩ := hagreement
  · have hkey : (joint holder).agent.epoch = epoch := halign.keySide.epoch_eq
    have hother := halign.ciphertextSide.epoch_eq
    rcases side.eq_or_eq_other holder with rfl | rfl
    · omega
    · rw [Side.other_other]
      omega
  · have hfin : (joint holder).agent.epoch = epoch + 1 := by rw [hover.completed]; rfl
    have hwait := hover.waitingSide.epoch_eq
    rcases side.eq_or_eq_other holder with rfl | rfl
    · omega
    · rw [Side.other_other]
      omega

theorem Agreement.accepts (hlawful : crypto.Lawful) (hagreement : Agreement I crypto joint)
    {side : Side} {message : MLKEMBraidMessage} (hmsg : message ∈ (joint side.other).sent) :
    Accepts (Braid.receive crypto field message (joint side).agent) := by
  obtain ⟨holder, epoch, data, halign | hover⟩ := hagreement
  · rcases side.eq_or_eq_other holder with rfl | rfl
    · exact (halign.receive_keySide I hlawful hmsg).1
    · rw [Side.other_other] at hmsg
      exact (halign.receive_ciphertextSide I hlawful hmsg).1
  · rcases side.eq_or_eq_other holder with rfl | rfl
    · exact (hover.receive_finished I hmsg).1
    · rw [Side.other_other] at hmsg
      exact (hover.receive_waiting I hlawful hmsg).1

theorem KeysAgree.inOrder (hkeys : KeysAgree shorter longer) :
    (∃ count, shorter.map (·.epoch) = List.range' 1 count) ∧
      ∃ count, longer.map (·.epoch) = List.range' 1 count := by
  obtain ⟨⟨rest, rfl⟩, count, hlonger⟩ := hkeys
  rw [map_append] at hlonger
  obtain ⟨emitted, -, hshorter, -⟩ := List.range'_eq_append_iff.mp hlonger.symm
  exact ⟨⟨emitted, hshorter⟩, count, by rw [map_append, hlonger]⟩

theorem KeysAgree.secret_eq (hkeys : KeysAgree shorter longer)
    {key key' : OutputKey} (hkey : key ∈ shorter) (hkey' : key' ∈ longer)
    (hepoch : key.epoch = key'.epoch) : key.epochSecret = key'.epochSecret := by
  obtain ⟨hext, count, hlonger⟩ := hkeys
  have hnodup : (longer.map (·.epoch)).Nodup := hlonger ▸ nodup_range'
  rw [inj_on_of_nodup_map hnodup (hext.subset hkey) hkey' hepoch]

end

def plainStart : Joint := fun side =>
  { agent :=
      { state := match side with
          | .alice => .keysUnsampled
          | .bob => .noHeaderReceived
        epoch := 1
        auth := ⟨List.replicate 32 0, List.replicate 32 0⟩
        headerDecoder := match side with
          | .alice => none
          | .bob => some (createDecoderState headerSize) }
    sent := []
    keys := [] }

theorem plainStart_start : JointStart plainCrypto (List.replicate 32 0) plainStart :=
  ⟨by decide, by decide, fun _ => ⟨rfl, rfl⟩⟩

/-- Alice after her first call of `Send`. -/
def plainFirstSend : Joint :=
  Function.update plainStart .alice
    ((plainStart .alice).send plainCrypto gf16 (List.replicate · 7))

theorem plainFirstSend_reachable :
    (jointSystem plainCrypto gf16 (List.replicate 32 0)).Reachable plainFirstSend :=
  (TransitionSystem.Reachable.of_init plainStart_start).step
    (.send .alice _ fun _ => length_replicate)

theorem plainFirstSend_sent : (plainFirstSend .alice).sent =
    [⟨1, .hdr, some 0, some (List.replicate 32 7)⟩] := by
  decide +kernel

variable {field : GaloisField16} {K : Type*} [Field K] (I : field.Interpretation K)

def HandedOver (crypto : BraidCrypto) (joint : Joint) : Prop :=
  ∃ data, HandOver I crypto 1 data (joint .alice) (joint .bob)

def FirstEpoch (crypto : BraidCrypto) (joint : Joint) : Prop :=
  (∃ data, Aligned I crypto 1 data (joint .alice) (joint .bob)) ∨ HandedOver I crypto joint

namespace HandedOver

variable {I} {crypto : BraidCrypto} {joint : Joint} (hhanded : HandedOver I crypto joint)
  (hlaw : crypto.Lawful) (side : Side)

include hhanded hlaw

theorem send (randomBytes : RandomBytes) :
    Reports (Braid.send crypto field randomBytes (joint side).agent) ∧
      HandedOver I crypto
        (Function.update joint side ((joint side).send crypto field randomBytes)) := by
  obtain ⟨data, hover⟩ := hhanded
  cases side with
  | alice =>
    obtain ⟨hreports, hnext⟩ := hover.send_finished I randomBytes
    exact ⟨hreports, data, by simpa using hnext⟩
  | bob =>
    obtain ⟨hreports, hnext⟩ := hover.send_waiting I hlaw randomBytes
    exact ⟨hreports, data, by simpa using hnext⟩

omit hlaw in
theorem receive {message : MLKEMBraidMessage}
    (hmsg : message ∈ (joint side.other).sent) (htype : message.type ≠ .none) :
    Accepts (Braid.receive crypto field message (joint side).agent) ∧
      HandedOver I crypto
        (Function.update joint side ((joint side).receive crypto field message)) := by
  obtain ⟨data, hover⟩ := hhanded
  cases side with
  | alice =>
    obtain ⟨haccepts, hnext⟩ := hover.receive_finished I hmsg
    exact ⟨haccepts, data, by simpa using hnext⟩
  | bob =>
    obtain ⟨hle, hnone⟩ := hover.fromFinished message hmsg
    have hbefore : message.epoch ≤ 1 := by
      by_contra hafter
      exact htype (hnone (by omega))
    obtain ⟨haccepts, hsame⟩ := hover.receive_waiting_of_le I message hbefore
    exact ⟨haccepts, data, by simpa [hsame] using hover⟩

end HandedOver

namespace FirstEpoch

variable {I} {crypto : BraidCrypto} {joint : Joint} (hfst : FirstEpoch I crypto joint)
  (side : Side)

theorem of_start (hlaw : crypto.Lawful) {secret : Bytes}
    (hstart : JointStart crypto secret joint) : FirstEpoch I crypto joint :=
  .inl (Aligned.of_start hlaw hstart)

include hfst

theorem send (hlaw : crypto.Lawful) (side : Side) {randomBytes : RandomBytes}
    (hrandom : ∀ length, (randomBytes length).length = length) :
    Reports (Braid.send crypto field randomBytes (joint side).agent) ∧
      FirstEpoch I crypto
        (Function.update joint side ((joint side).send crypto field randomBytes)) := by
  rcases hfst with ⟨data, halign⟩ | hhanded
  · cases side with
    | alice =>
      obtain ⟨hreports, data, hnext⟩ := halign.send_keySide I hlaw hrandom
      exact ⟨hreports, .inl ⟨data, by simpa using hnext⟩⟩
    | bob =>
      obtain ⟨hreports, data, hnext⟩ := halign.send_ciphertextSide I hlaw hrandom
      exact ⟨hreports, .inl ⟨data, by simpa using hnext⟩⟩
  · obtain ⟨hreports, hnext⟩ := hhanded.send hlaw side randomBytes
    exact ⟨hreports, .inr hnext⟩

theorem receive (hlaw : crypto.Lawful) (side : Side) {message : MLKEMBraidMessage}
    (hmsg : message ∈ (joint side.other).sent) (htype : message.type ≠ .none) :
    Accepts (Braid.receive crypto field message (joint side).agent) ∧
      FirstEpoch I crypto
        (Function.update joint side ((joint side).receive crypto field message)) := by
  rcases hfst with ⟨data, halign⟩ | hhanded
  · cases side with
    | alice =>
      obtain ⟨haccepts, hnext⟩ := halign.receive_keySide I hlaw hmsg
      refine ⟨haccepts, ?_⟩
      rcases hnext with hnext | hnext
      · exact .inl ⟨data, by simpa using hnext⟩
      · exact .inr ⟨data, by simpa using hnext⟩
    | bob =>
      obtain ⟨haccepts, hnext⟩ := halign.receive_ciphertextSide I hlaw hmsg
      exact ⟨haccepts, .inl ⟨data, by simpa using hnext⟩⟩
  · obtain ⟨haccepts, hnext⟩ := hhanded.receive side hmsg htype
    exact ⟨haccepts, .inr hnext⟩

theorem keysAgree : KeysAgree (joint .alice).keys (joint .bob).keys := by
  rcases hfst with ⟨data, halign⟩ | ⟨data, hover⟩
  · exact halign.keysAgree
  · exact hover.keysAgree

theorem keys_length_le : (joint side).keys.length ≤ 1 := by
  have hbob : (joint .bob).keys.length ≤ 1 := by
    rcases hfst with ⟨data, halign⟩ | ⟨data, hover⟩
    · have hkeys : (joint .alice).keys.length = 0 := by
        simpa using congrArg List.length halign.keys
      by_cases hunsamp : Unsampled (joint .bob).agent
      · rw [halign.keys_unsampled hunsamp]
        omega
      · rw [halign.keys_sampled hunsamp, List.length_append, hkeys]
        rfl
    · rw [hover.keys_eq]
      exact (by simpa using congrArg List.length hover.keys : _ = 1).le
  cases side with
  | alice => exact hfst.keysAgree.1.length_le.trans hbob
  | bob => exact hbob

theorem epoch_bounds : 1 ≤ (joint side).agent.epoch ∧
    (joint side).agent.epoch ≤ (joint side).keys.length + 1 ∧
    (joint side).agent.epoch ≤ (joint side.other).keys.length + 1 := by
  rcases hfst with ⟨data, halign⟩ | ⟨data, hover⟩
  · have halice := halign.keySide.epoch_eq
    have hbob := halign.ciphertextSide.epoch_eq
    cases side <;> omega
  · have halice : (joint .alice).agent.epoch = 2 := by rw [hover.completed]; rfl
    have hbob := hover.waitingSide.epoch_eq
    have hkeys : (joint .alice).keys.length = 1 := by
      simpa using congrArg List.length hover.keys
    have hkeys' : (joint .bob).keys.length = 1 := by rw [hover.keys_eq, hkeys]
    cases side <;> simp only [Side.other] <;> omega

theorem epoch_le {next : Joint} (hnext : FirstEpoch I crypto next)
    (hkeeps : HandedOver I crypto joint → HandedOver I crypto next) (side : Side) :
    (joint side).agent.epoch ≤ (next side).agent.epoch := by
  rcases hfst with ⟨data, halign⟩ | hhanded
  · have halice := halign.keySide.epoch_eq
    have hbob := halign.ciphertextSide.epoch_eq
    have hbounds := (hnext.epoch_bounds side).1
    cases side <;> omega
  · obtain ⟨data', hhandOver'⟩ := hkeeps hhanded
    obtain ⟨data, hover⟩ := hhanded
    cases side with
    | alice =>
      rw [hover.completed, hhandOver'.completed]
      exact le_rfl
    | bob => rw [hover.waitingSide.epoch_eq, hhandOver'.waitingSide.epoch_eq]

end FirstEpoch

end SignalProtocol.Braid

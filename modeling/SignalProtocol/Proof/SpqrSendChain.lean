import SignalProtocol.Library.Triple
import SignalProtocol.Proof.SpqrWindow

/-! # Errors of a send

The state machine and the wire format never stop with an `EncryptionError`, so the errors of the
send chain come from `deriveSPQRSendKey` alone. -/

namespace SignalProtocol.Spqr

open Braid Rs Results

variable (result : Option SendResult)
  (msg : SPQRWireMessage)

/-- An error that is no `EncryptionError`. -/
def PlainError : ProtocolError → Prop
  | .error _ => True
  | .braid _ _ => True
  | .encryption _ _ => False

inductive SendChainError : ProtocolError → Prop where
  | noKdfChain (epoch : ℕ) : SendChainError (noKdfChain epoch)
  | decreased :
      SendChainError (.encryption .spqrEpochOutOfRange "SPQR send epoch decreased")
  | noKeyMaterial (epoch : ℕ) : SendChainError
      (.encryption .invalidState s!"SPQR send chain for epoch {epoch} holds no key material")

theorem PlainError.not_sendChainError {error : ProtocolError} (hplain : PlainError error) :
    ¬ SendChainError error := by
  rintro (epoch | _ | epoch)
  · exact hplain
  · exact hplain
  · exact hplain

theorem head?_append_text {first rest : String} {character : Char}
    (hfst : first.toList.head? = some character) :
    (first ++ rest).toList.head? = some character := by
  rw [String.toList_append, List.head?_append, hfst]
  rfl

/-- The error at the last epoch differs from those of the send chain in its text only. -/
theorem not_sendChainError_advance (epoch : ℕ) : ¬ SendChainError
    (.encryption .spqrEpochOutOfRange s!"Cannot advance SPQR epoch safely from {epoch}") := by
  have hfst : (s!"Cannot advance SPQR epoch safely from {epoch}").toList.head? = some 'C' :=
    head?_append_text (by decide)
  intro herr
  generalize s!"Cannot advance SPQR epoch safely from {epoch}" = text at herr hfst
  cases herr with
  | noKdfChain other =>
    have hother : (s!"No KDF chain for epoch {other}").toList.head? = some 'N' :=
      head?_append_text (by decide)
    cases hfst.symm.trans hother
  | decreased =>
    have hother : "SPQR send epoch decreased".toList.head? = some 'S' := by decide
    cases hfst.symm.trans hother

section

variable (field : GaloisField16) (encoder : PolyEncoder)

theorem div_plain (x y : FieldElement) : FailsOnly PlainError (field.div x y) :=
  .ite (.throw trivial) (.pure _)

theorem dividedDifferenceColumn_plain (j : ℕ) (left : ℕ) (divDiff : List FieldElement) :
    FailsOnly PlainError (PolyEncoder.dividedDifferenceColumn field j left divDiff) := by
  induction left generalizing divDiff with
  | zero => exact .pure divDiff
  | succ left ih => exact (div_plain field _ _).bind fun quotient => ih _

theorem computePolynomialCoefficients_plain (ys : List FieldElement) :
    FailsOnly PlainError (PolyEncoder.computePolynomialCoefficients field ys) := by
  rw [PolyEncoder.computePolynomialCoefficients]
  refine .ite (.pure _) (.ite (.pure _) ?_)
  refine FailsOnly.bind (FailsOnly.foldlM (fun divDiff j => ?_) _ _) fun divDiff => .pure _
  exact dividedDifferenceColumn_plain field j _ divDiff

theorem pointAt_plain (polyIdx chunkIdx : ℕ) :
    FailsOnly PlainError (encoder.pointAt field polyIdx chunkIdx) := by
  rw [PolyEncoder.pointAt]
  cases encoder.state with
  | points data =>
    refine .ite (.pure _) ?_
    exact (FailsOnly.mapM (computePolynomialCoefficients_plain field) data).bind
      fun polys => .pure _
  | polys polys => exact .pure _

theorem nextChunk_plain :
    FailsOnly PlainError (encoder.nextChunk field) := by
  have hval : ∀ chunkIndex acc polyIdx,
      FailsOnly PlainError (PolyEncoder.appendParityValue field chunkIndex acc polyIdx) :=
    fun chunkIndex acc polyIdx =>
      (pointAt_plain field acc.2 polyIdx chunkIndex).bind fun _ => .pure _
  rw [PolyEncoder.nextChunk]
  exact .ite (.ite (.pure _) (FailsOnly.foldlM (hval _) _ _)) (.throw trivial)

theorem create_plain (data : Bytes) : FailsOnly PlainError (PolyEncoder.create data) :=
  .ite (.throw trivial) (.ite (.throw trivial) (.pure _))

theorem restoreEncoder_plain (state : EncoderState) :
    FailsOnly PlainError (restoreEncoder state) := by
  have hrestore : FailsOnly PlainError (PolyEncoder.restore state.data state.currentChunk) := by
    have hcursor : FailsOnly PlainError
        (PolyEncoder.assertBraidEncoderCursor state.currentChunk "Encoder cursor") :=
      .ite (.throw trivial) (.pure _)
    exact hcursor.bind fun _ => (create_plain state.data).bind fun encoder => .pure _
  rw [restoreEncoder]
  split
  · exact .pure _
  · exact hrestore.bind fun encoder => .pure _

theorem getNextEncoderChunk_plain : StopsOnly PlainError (getNextEncoderChunk field) := by
  refine StopsOnly.get.bind fun state => (StopsOnly.fromResult (restoreEncoder_plain state)).bind
    fun restored => (StopsOnly.set restored.2).bind fun _ => StopsOnly.get.bind fun state => ?_
  refine .ite ((StopsOnly.fromResult (nextChunk_plain field _)).bind fun next => ?_)
    (.throw trivial)
  exact (StopsOnly.set _).bind fun _ => .pure _

theorem sendChunk_plain (encoderOf : MLKEMBraidAgentState → Option EncoderState)
    (update : MLKEMBraidAgentState → EncoderState → MLKEMBraidAgentState) (missing : String)
    (type : MessageType) :
    StopsOnly PlainError (sendChunk field encoderOf update missing type) := by
  have hchunk : StopsOnly PlainError
      (onEncoder encoderOf update missing (getNextEncoderChunk field)) := by
    intro agent error next hstop
    rw [onEncoder] at hstop
    cases hencoder : encoderOf agent with
    | none =>
      rw [hencoder] at hstop
      cases hstop
      trivial
    | some encoder =>
      rw [hencoder] at hstop
      dsimp only at hstop
      cases hrun : getNextEncoderChunk field encoder with
      | ok value after =>
        rw [hrun] at hstop
        cases hstop
      | error stopped after =>
        rw [hrun] at hstop
        cases hstop
        exact getNextEncoderChunk_plain field _ _ _ hrun
  exact hchunk.bind fun _ => StopsOnly.get.bind fun state => .pure _

end

theorem checkSize_plain (name : String) (code : BraidErrorCode) (bytes : Bytes) (size : ℕ) :
    FailsOnly PlainError (checkSize name code bytes size) :=
  .ite (.throw trivial) (.pure _)

theorem createEncoderState_plain (data : Bytes) : FailsOnly PlainError (createEncoderState data) :=
  (create_plain data).bind fun _ => .pure _

theorem transition_plain (event : TransitionEvent) : StopsOnly PlainError (transition event) := by
  refine StopsOnly.get.bind fun state => ?_
  cases stateTransitions state.state event with
  | some nextState => exact .modify _
  | none => exact .throw trivial

theorem sendBare_plain (type : MessageType) : StopsOnly PlainError (sendBare type) :=
  StopsOnly.get.bind fun _ => .pure _

variable (crypto : BraidCrypto) (field : GaloisField16) (randomBytes : RandomBytes)

theorem kdfOk_plain (sharedSecret : Bytes) (epoch : ℕ) :
    FailsOnly PlainError (kdfOk crypto sharedSecret epoch) :=
  (checkSize_plain _ _ _ _).bind fun _ => .pure _

theorem sendAlice_plain : StopsOnly PlainError (sendAlice crypto field randomBytes) := by
  have hkeyGen : FailsOnly PlainError (kemKeyGen crypto (randomBytes 64)) :=
    (checkSize_plain _ _ _ _).bind fun _ => .pure _
  refine StopsOnly.get.bind fun state => ?_
  cases state.state with
  | keysUnsampled =>
    refine (StopsOnly.fromResult hkeyGen).bind fun keyPair => (StopsOnly.modify _).bind fun _ =>
      StopsOnly.get.bind fun state => (StopsOnly.fromResult (createEncoderState_plain _)).bind
      fun headerEncoder => (StopsOnly.modify _).bind fun _ =>
      (StopsOnly.fromResult (createEncoderState_plain _)).bind fun ekEncoder =>
      (StopsOnly.modify _).bind fun _ => (transition_plain .keygen).bind fun _ => ?_
    exact sendChunk_plain field _ _ _ _
  | keysSampled | headerSent | ct1Received => exact sendChunk_plain field _ _ _ _
  | ekSentCt1Received => exact sendBare_plain _
  | _ => exact .throw trivial

theorem bobSampleCt1_plain (ekSeed hek : Bytes) :
    StopsOnly PlainError (bobSampleCt1 crypto field ekSeed hek randomBytes) := by
  have hencaps : FailsOnly PlainError (kemEncaps1 crypto ekSeed hek (randomBytes 32)) :=
    (checkSize_plain _ _ _ _).bind fun _ => (checkSize_plain _ _ _ _).bind fun _ =>
      (checkSize_plain _ _ _ _).bind fun _ => .pure _
  have hupdate : ∀ auth epoch key,
      FailsOnly PlainError (Authenticator.update crypto auth epoch key) := by
    intro auth epoch key
    have hkdf : FailsOnly PlainError (kdfAuth crypto auth.rootKey key epoch) :=
      (checkSize_plain _ _ _ _).bind fun _ => (checkSize_plain _ _ _ _).bind fun _ => .pure _
    exact hkdf.bind fun derived => .pure _
  refine (StopsOnly.fromResult hencaps).bind fun encapsulation => (StopsOnly.modify _).bind fun _ =>
    (StopsOnly.fromResult (createEncoderState_plain _)).bind fun ct1Encoder =>
    (StopsOnly.modify _).bind fun _ => StopsOnly.get.bind fun state =>
    (StopsOnly.fromResult (kdfOk_plain crypto _ _)).bind fun outputKeyBytes =>
    (StopsOnly.fromResult (hupdate _ _ _)).bind fun auth => (StopsOnly.modify _).bind fun _ =>
    (transition_plain .sampleCt1).bind fun _ => ?_
  exact (sendChunk_plain field _ _ _ _).bind fun result => StopsOnly.get.bind fun state => .pure _

theorem sendBob_plain : StopsOnly PlainError (sendBob crypto field randomBytes) := by
  have hheader : StopsOnly PlainError (bobSendFromHeaderReceived crypto field randomBytes) := by
    intro state error next hstop
    rw [bobSendFromHeaderReceived] at hstop
    cases hseed : state.ekSeed with
    | none =>
      rw [hseed] at hstop
      cases hstop
      trivial
    | some ekSeed =>
      cases hhek : state.hek with
      | none =>
        rw [hseed, hhek] at hstop
        cases hstop
        trivial
      | some hek =>
        rw [hseed, hhek] at hstop
        dsimp only at hstop
        cases hrun : bobSampleCt1 crypto field ekSeed hek randomBytes state with
        | ok value after =>
          rw [hrun] at hstop
          cases hstop
        | error stopped after =>
          rw [hrun] at hstop
          cases hstop
          exact bobSampleCt1_plain crypto field randomBytes _ _ _ _ _ hrun
  refine StopsOnly.get.bind fun state => ?_
  cases state.state with
  | noHeaderReceived | ct1Acknowledged => exact sendBare_plain _
  | headerReceived => exact hheader
  | ct1Sampled | ekReceivedCt1Sampled | ct2Sampled => exact sendChunk_plain field _ _ _ _
  | _ => exact .throw trivial

/-- The state machine never stops a send with an `EncryptionError`. -/
theorem braidSend_plain : StopsOnly PlainError (Braid.send crypto field randomBytes) :=
  StopsOnly.get.bind fun _ =>
    .ite (sendAlice_plain crypto field randomBytes) (sendBob_plain crypto field randomBytes)

theorem assertUint64_plain (name : String) (value min : ℕ) :
    FailsOnly PlainError (assertUint64 name value min) :=
  .ite (.throw trivial) (.pure _)

theorem assertUint32_plain (name : String) (value min max : ℕ) :
    FailsOnly PlainError (assertUint32 name value min max) :=
  .ite (.throw trivial) (.pure _)

theorem encodeVarintLEB128_plain (value : ℕ) : FailsOnly PlainError (encodeVarintLEB128 value) :=
  (assertUint64_plain _ _ _).bind fun _ => .pure _

theorem setBytes_plain (buffer : Bytes) (offset : ℕ) (bytes : Bytes) :
    FailsOnly PlainError (setBytes buffer offset bytes) :=
  .ite (.throw trivial) (.pure _)

theorem encodePayload_plain : FailsOnly PlainError (encodePayload msg) := by
  rw [encodePayload]
  cases msg.mode with
  | none => exact .pure _
  | direct =>
    dsimp only
    rw [encodeDirectPayload]
    split
    · exact (setBytes_plain _ _ _).bind fun _ => (setBytes_plain _ _ _).bind fun _ => .pure _
    · exact (setBytes_plain _ _ _).bind fun _ => .pure _
    · exact (setBytes_plain _ _ _).bind fun _ => .pure _
    · exact .pure _
  | braid =>
    have hidx : ∀ value name, FailsOnly PlainError (assertBraidChunkIndex value name) :=
      fun value name => .ite (.throw trivial) (.pure _)
    dsimp only
    rw [encodeBraidPayload]
    refine .ite ?_ ?_
    · cases msg.braidChunkData with
      | none => exact .throw trivial
      | some chunk =>
        exact (assertUint64_plain _ _ _).bind fun _ => (hidx _ _).bind fun _ =>
          (encodeVarintLEB128_plain _).bind fun _ => .ite (.throw trivial) (.pure _)
    · cases msg.braidChunkData with
      | none => exact .pure _
      | some chunk => exact .throw trivial

theorem encodeSPQRWire_plain :
    FailsOnly PlainError (encodeSPQRWire msg) := by
  rw [encodeSPQRWire]
  cases msg.epoch with
  | none => exact .throw trivial
  | some epoch =>
    exact (assertUint64_plain _ _ _).bind fun _ => (assertUint32_plain _ _ _ _).bind fun _ =>
      (encodeVarintLEB128_plain _).bind fun _ => (encodeVarintLEB128_plain _).bind fun _ =>
      (encodePayload_plain msg).bind fun _ => .pure _

theorem sendKeyEpoch_plain :
    FailsOnly PlainError (sendKeyEpoch result) := by
  cases result with
  | none => exact .pure _
  | some result =>
    have hsafe : ∀ name value, FailsOnly PlainError (bigintToSafeNumber name value) :=
      fun name value => .ite (.throw trivial) (.pure _)
    have hepoch : FailsOnly PlainError (spqrWireEpochToInternalEpoch result.sendingEpoch) :=
      (assertUint64_plain _ _ _).bind fun _ => hsafe _ _
    exact hepoch.bind fun epoch => .pure _

theorem wireEpochOf_plain (key : Option SPQRKeyResult)
    (state : SPQRState) : FailsOnly PlainError (wireEpochOf result key state) := by
  cases result with
  | some result => exact .pure _
  | none => exact (assertUint32_plain _ _ _ _).bind fun _ => .pure _

/-! ## The send chain of the next message

In every state of a pair, the chain of the epoch that the next message is sent in is there, holds a
live key, and is not older than the send epoch. -/

variable {invariant : SPQRState → Prop}

/-- No key that the hash derives for a chain is the placeholder of a cleared one. -/
structure SpqrCrypto.NoZeroKeys (crypto : SpqrCrypto) : Prop where
  chain_ne : ∀ ikm salt info, (crypto.braid.hkdf ikm salt info 64).take 32 ≠ zeroedChainKey
  a2b_ne : ∀ ikm salt info, ((crypto.braid.hkdf ikm salt info 96).drop 32).take 32 ≠ zeroedChainKey
  b2a_ne : ∀ ikm salt info, ((crypto.braid.hkdf ikm salt info 96).drop 64).take 32 ≠ zeroedChainKey

structure SendChain (epoch : ℕ) (state : SPQRState) : Prop where
  live : ∃ chains, state.kdfChains.get? epoch = some chains ∧ chains.send.chainKey ≠ zeroedChainKey
  sendEpoch_le : state.sendEpoch.getD 0 ≤ epoch

section

variable {crypto : SpqrCrypto} {state : SPQRState} (field : GaloisField16)

theorem orderChains_live (hlive : crypto.NoZeroKeys) (direction : Direction)
    (ikm salt info : Bytes) :
    (orderChains direction (splitEpochKeys (crypto.braid.hkdf ikm salt info 96))).send.chainKey ≠
      zeroedChainKey := by
  cases direction with
  | a2b => exact hlive.a2b_ne ikm salt info
  | b2a => exact hlive.b2a_ne ikm salt info

theorem SendChain.atSendEpoch {epoch : ℕ} (hchain : SendChain epoch state) :
    (∃ chains, (atSendEpoch (state.sendEpoch.getD 0) epoch state).kdfChains.get? epoch =
      some chains ∧ chains.send.chainKey ≠ zeroedChainKey) ∧
    (atSendEpoch (state.sendEpoch.getD 0) epoch state).sendEpoch.getD 0 = epoch := by
  obtain ⟨⟨chains, hget, hkey⟩, hle⟩ := hchain
  rw [Spqr.atSendEpoch]
  split
  · refine ⟨⟨chains, ?_, hkey⟩, rfl⟩
    rw [advanceSendEpoch_get?, if_pos (Nat.sub_le _ _), hget]
    simp
  · exact ⟨⟨chains, hget, hkey⟩, by omega⟩

/-- With a live chain, a send derives no key before the bootstrap, or the next key of the chain, or
stops with another error. -/
theorem deriveSPQRSendKey_live (hlive : crypto.NoZeroKeys) (hroot : state.rootKey ≠ [])
    {override : Option ℕ} (hchain : SendChain (override.getD state.epoch) state) :
    deriveSPQRSendKey crypto override state = .ok none state ∨
    ∃ current, current = atSendEpoch (state.sendEpoch.getD 0) (override.getD state.epoch) state ∧
      ((∃ error, ¬ SendChainError error ∧
        deriveSPQRSendKey crypto override state = .error error current) ∨
      ∃ key chains chain, chain.chainKey ≠ zeroedChainKey ∧
        deriveSPQRSendKey crypto override state =
          .ok (some key) (storeSend current (override.getD state.epoch) chains chain)) := by
  rw [deriveSPQRSendKey, bind_apply_ok (validateSPQRState_ok hroot), get_bind]
  by_cases hcompl : isSpqrBootstrapComplete state = true
  swap
  · rw [if_neg hcompl]
    exact .inl rfl
  obtain ⟨⟨found, hfound, -⟩, hle⟩ := id hchain
  obtain ⟨⟨chains, hget, hkey⟩, -⟩ := hchain.atSendEpoch
  rw [if_pos hcompl]
  dsimp only
  set epoch := override.getD state.epoch
  rw [hfound, if_neg (by simp), if_neg (not_lt.mpr hle)]
  rw [nextSendKey_atSendEpoch]
  refine .inr ⟨_, rfl, ?_⟩
  generalize Spqr.atSendEpoch (state.sendEpoch.getD 0) epoch state = current at hget ⊢
  have hnext : nextSendKey crypto epoch current = nextSendKey crypto epoch current := rfl
  conv_rhs at hnext => rw [nextSendKey, get_bind, hget]
  dsimp only at hnext
  rw [if_neg hkey] at hnext
  by_cases hoverflow : maxIndex ≤ chains.send.counter
  · rw [if_pos hoverflow] at hnext
    rw [bind_apply_error hnext]
    exact .inl ⟨_, by rintro ⟨⟩, rfl⟩
  rw [if_neg hoverflow] at hnext
  cases hderive : kdfChainKeySPQR crypto chains.send.chainKey (chains.send.counter + 1)
      current.resolvedInfoStrings.chainNext with
  | error error =>
    rw [hderive, fromResult_error_bind] at hnext
    rw [bind_apply_error hnext]
    refine .inl ⟨error, PlainError.not_sendChainError ?_, rfl⟩
    exact (FailsOnly.ite (.throw trivial) (.ite (.throw trivial) (.pure _)) :
      FailsOnly PlainError (kdfChainKeySPQR crypto _ _ _)) error hderive
  | ok result =>
    rw [hderive, fromResult_ok_bind] at hnext
    rw [bind_apply_ok hnext]
    refine .inr ⟨_, chains, ⟨result.chainKey, chains.send.counter + 1⟩, ?_, rfl⟩
    rw [kdfChainKeySPQR] at hderive
    split at hderive
    · cases hderive
    split at hderive
    · cases hderive
    · cases hderive
      exact hlive.chain_ne _ _ _

/-- The next send of a state finds its chain. -/
structure SendsLive (crypto : SpqrCrypto) (field : GaloisField16) (randomBytes : RandomBytes)
    (state : SPQRState) : Prop where
  chain : ∀ kem middle result next epoch, sendKem crypto randomBytes state = .ok kem middle →
    sendBraid crypto field randomBytes middle = .ok result next →
    sendKeyEpoch result = .ok epoch → SendChain (epoch.getD next.epoch) next
  stops : ∀ error next, spqrSend crypto field randomBytes state = .error error next →
    ¬ SendChainError error

theorem SendsLive.of_chain {field : GaloisField16} {randomBytes : RandomBytes}
    (hlive : crypto.NoZeroKeys)
    (hkem : ∀ error next, sendKem crypto randomBytes state = .error error next →
      ¬ SendChainError error)
    (hbraid : ∀ kem middle error next, sendKem crypto randomBytes state = .ok kem middle →
      sendBraid crypto field randomBytes middle = .error error next → ¬ SendChainError error)
    (hchain : ∀ kem middle result next epoch, sendKem crypto randomBytes state = .ok kem middle →
      sendBraid crypto field randomBytes middle = .ok result next →
      sendKeyEpoch result = .ok epoch →
      SendChain (epoch.getD next.epoch) next ∧ next.rootKey ≠ []) :
    SendsLive crypto field randomBytes state := by
  refine ⟨fun kem middle result next epoch hkem hbraid hepoch =>
    (hchain kem middle result next epoch hkem hbraid hepoch).1, fun error final hstop => ?_⟩
  rw [spqrSend, bind_apply] at hstop
  cases hfst : sendKem crypto randomBytes state with
  | error stopped middle =>
    rw [hfst] at hstop
    cases hstop
    exact hkem error final hfst
  | ok kem middle =>
    rw [hfst] at hstop
    dsimp only at hstop
    rw [bind_apply] at hstop
    cases hsnd : sendBraid crypto field randomBytes middle with
    | error stopped next =>
      rw [hsnd] at hstop
      cases hstop
      exact hbraid kem middle error final hfst hsnd
    | ok result next =>
      rw [hsnd] at hstop
      dsimp only at hstop
      cases hepoch : sendKeyEpoch result with
      | error stopped =>
        rw [hepoch, fromResult_error_bind] at hstop
        cases hstop
        exact (sendKeyEpoch_plain result error hepoch).not_sendChainError
      | ok epoch =>
        rw [hepoch, fromResult_ok_bind, bind_apply] at hstop
        obtain ⟨hnext, hroot⟩ := hchain kem middle result next epoch hfst hsnd hepoch
        cases hderive : deriveSPQRSendKey crypto epoch next with
        | error stopped after =>
          rw [hderive] at hstop
          cases hstop
          rcases deriveSPQRSendKey_live hlive hroot hnext with
            hnone | ⟨_, -, ⟨other, hother, herr⟩ | ⟨_, _, _, -, hok⟩⟩
          · cases hderive.symm.trans hnone
          · cases hderive.symm.trans herr
            exact hother
          · cases hderive.symm.trans hok
        | ok key after =>
          rw [hderive] at hstop
          dsimp only at hstop
          refine PlainError.not_sendChainError
            ((?_ : StopsOnly PlainError _) after error final hstop)
          exact .ite (StopsOnly.get.bind fun state =>
            (StopsOnly.fromResult (wireEpochOf_plain _ _ _)).bind fun wireEpoch =>
            (StopsOnly.fromResult (encodeSPQRWire_plain _)).bind fun _ => .pure _) (.pure _)

theorem getNextSPQREpoch_cases (state : SPQRState) :
    (∃ error, getNextSPQREpoch state = .error error state) ∨
      getNextSPQREpoch state = .ok (state.epoch + 1) state := by
  rw [getNextSPQREpoch, validateSPQRState]
  by_cases hroot : state.rootKey = []
  · exact .inl ⟨_, by rw [bind_apply, get_bind, if_pos hroot]; rfl⟩
  · rw [bind_apply, get_bind, if_neg hroot]
    dsimp only [pure_apply]
    rw [get_bind]
    split
    · exact .inl ⟨_, rfl⟩
    · exact .inr rfl

variable (crypto) in
theorem addSPQREpochSecret_commits (epochSecret : Bytes) (chains : ChainSelection)
    (expectedEpoch : ℕ) (state : SPQRState) :
    (∃ error, addSPQREpochSecret crypto epochSecret chains expectedEpoch state =
      .error error state) ∨
    ∃ ikm salt info, addSPQREpochSecret crypto epochSecret chains expectedEpoch state =
      .ok ⟨⟩ (commitEpoch state (splitEpochKeys (crypto.braid.hkdf ikm salt info 96)) chains
        (state.epoch + 1)) := by
  rw [addSPQREpochSecret]
  rcases getNextSPQREpoch_cases state with ⟨error, herr⟩ | hok
  · exact .inl ⟨error, by rw [bind_apply_error herr]⟩
  rw [bind_apply_ok hok, get_bind]
  split
  · exact .inl ⟨_, rfl⟩
  split
  · exact .inl ⟨_, rfl⟩
  split
  · exact .inl ⟨_, rfl⟩
  split
  · exact .inl ⟨_, rfl⟩
  rename_i hsecret hroot
  have hlen : ¬ epochSecret.length ≠ 32 := hsecret
  rw [kdfSpqrEpoch, if_neg hlen, if_neg hroot]
  exact .inr ⟨_, _, _, rfl⟩

variable (crypto) in
theorem advanceSPQREpochFromRawSecret_commits (secret : Bytes) (chains : ChainSelection)
    (state : SPQRState) :
    (∃ error, advanceSPQREpochFromRawSecret crypto secret chains state = .error error state) ∨
    ∃ ikm salt info, advanceSPQREpochFromRawSecret crypto secret chains state =
      .ok ⟨⟩ (commitEpoch state (splitEpochKeys (crypto.braid.hkdf ikm salt info 96)) chains
        (state.epoch + 1)) := by
  rw [advanceSPQREpochFromRawSecret]
  rcases getNextSPQREpoch_cases state with ⟨error, herr⟩ | hok
  · exact .inl ⟨error, by rw [bind_apply_error herr]⟩
  rw [bind_apply_ok hok]
  cases kdfOk crypto.braid secret (state.epoch + 1) with
  | error error => exact .inl ⟨error, rfl⟩
  | ok epochSecret => exact addSPQREpochSecret_commits crypto epochSecret chains _ state

variable (crypto) in
theorem addOutputKey_sendEpoch (outputKey : Option OutputKey) (state : SPQRState) :
    (finalState (addOutputKey crypto outputKey state)).sendEpoch = state.sendEpoch := by
  cases outputKey with
  | none => rfl
  | some key =>
    rw [addOutputKey, addSPQRBraidEpoch]
    rcases getNextSPQREpoch_cases state with ⟨error, herr⟩ | hok
    · rw [bind_apply_error herr]
      rfl
    · rw [bind_apply_ok hok]
      split
      · rfl
      · rcases addSPQREpochSecret_commits crypto key.epochSecret .both (state.epoch + 1) state with
          ⟨error, herr⟩ | ⟨_, _, _, hcommit⟩
        · rw [herr]
          rfl
        · rw [hcommit]
          rfl

variable (crypto) in
theorem processSPQRReceivedCiphertext_commits (ciphertext : Bytes) (state : SPQRState) :
    (∃ error, processSPQRReceivedCiphertext crypto ciphertext state = .error error state) ∨
    ∃ ikm salt info, processSPQRReceivedCiphertext crypto ciphertext state =
      .ok ⟨⟩ (commitEpoch state (splitEpochKeys (crypto.braid.hkdf ikm salt info 96)) .receive
        (state.epoch + 1)) := by
  rw [processSPQRReceivedCiphertext, validateSPQRState]
  by_cases hroot : state.rootKey = []
  · exact .inl ⟨_, by rw [bind_apply, get_bind, if_pos hroot]; rfl⟩
  rw [bind_apply, get_bind, if_neg hroot]
  dsimp only [pure_apply]
  rw [get_bind]
  split
  · exact .inl ⟨_, rfl⟩
  split
  · exact .inl ⟨_, rfl⟩
  cases state.sckaState.ourKyberPrivateKey with
  | none => exact .inl ⟨_, rfl⟩
  | some privateKey =>
    dsimp only
    cases kyber768Decapsulate crypto ciphertext privateKey with
    | error error => exact .inl ⟨error, rfl⟩
    | ok secret => exact advanceSPQREpochFromRawSecret_commits crypto secret .receive state

variable (crypto) in
theorem receiveDirect_keeps
    (hpub : ∀ state publicKey, invariant state → invariant { state with
      sckaState := { state.sckaState with theirKyberPublicKey := some publicKey } })
    (hcipher : ∀ ciphertext, Triple invariant (processSPQRReceivedCiphertext crypto ciphertext)
      (fun _ => invariant) invariant)
    (hneedsRatchet : ∀ state, invariant state → invariant { state with needsSendRatchet := true })
    (pqr : SPQRWireMessage) :
    Triple invariant (receiveDirect crypto pqr) (fun _ => invariant) invariant := by
  rw [receiveDirect]
  dsimp only
  refine .ite (fun _ => Triple.andThen (.modify _ fun state => hpub state _) fun _ => ?_)
    fun _ => ?_
  all_goals
    refine .ite (fun _ => (hcipher _).andThen fun _ => .modify _ hneedsRatchet) fun _ => ?_
    exact .pure _ fun _ => id

variable (crypto) in
theorem spqrRecv_keeps (hnegotiate : ∀ state, invariant state → invariant (negotiateVersion state))
    (hpayload : ∀ pqr, Triple invariant (receivePayload crypto field pqr) (fun _ => invariant)
      invariant)
    (hderive : ∀ index epoch, Triple invariant (deriveSPQRReceiveKey crypto index epoch)
      (fun _ => invariant) invariant)
    (msgBytes : Option Bytes) :
    Triple invariant (spqrRecv crypto field msgBytes) (fun _ => invariant) invariant := by
  have hkey : ∀ pqr, Triple invariant (receiveKey crypto pqr) (fun _ => invariant) invariant := by
    intro pqr
    rw [receiveKey]
    split
    · exact .ite (fun _ => Triple.andThen (.fromResult (fun _ _ _ => id) fun _ => id)
        fun _ => hderive _ _) fun _ => .pure _ fun _ => id
    · exact .pure _ fun _ => id
  rw [spqrRecv]
  refine .ite (fun _ => .pure _ fun _ => id) fun _ => ?_
  refine Triple.andThen (.fromResult (fun _ _ _ => id) fun _ => id) fun pqr => ?_
  exact Triple.andThen (.modify _ hnegotiate) fun _ => (hpayload pqr).andThen fun _ => hkey pqr

variable (crypto) in
theorem spqrRecv_sendEpoch (msgBytes : Option Bytes) (state : SPQRState) :
    (finalState (spqrRecv crypto field msgBytes state)).sendEpoch = state.sendEpoch := by
  generalize hepoch : state.sendEpoch = sendEpoch
  let same : SPQRState → Prop := fun state => state.sendEpoch = sendEpoch
  have hadd : ∀ outputKey, Triple same (addOutputKey crypto outputKey) (fun _ => same) same := by
    intro outputKey
    exact Triple.of_finalState fun state hstate =>
      (addOutputKey_sendEpoch crypto outputKey state).trans hstate
  have hderive : ∀ index epoch,
      Triple same (deriveSPQRReceiveKey crypto index epoch) (fun _ => same) same := by
    intro index epoch
    refine Triple.of_finalState fun state hstate => ?_
    have honly := (KeyCall.derive epoch index).run_onlyReceive crypto state
    exact (congrArg SPQRState.sendEpoch honly.rest).trans hstate
  have hcipher : ∀ ciphertext,
      Triple same (processSPQRReceivedCiphertext crypto ciphertext) (fun _ => same) same := by
    intro ciphertext
    refine Triple.of_finalState fun state hstate => ?_
    rcases processSPQRReceivedCiphertext_commits crypto ciphertext state with
      ⟨error, herr⟩ | ⟨_, _, _, hcommit⟩
    · rw [herr]
      exact hstate
    · rw [hcommit]
      exact hstate
  have hpayload : ∀ pqr, Triple same (receivePayload crypto field pqr) (fun _ => same) same := by
    intro pqr
    rw [receivePayload]
    refine Triple.andThen (.get fun _ => id) fun read => ?_
    split
    · exact receiveDirect_keeps crypto (fun _ _ => id) hcipher (fun _ => id) pqr
    · refine Triple.andThen (.fromResult (fun _ _ _ => id) fun _ => id) fun chunk => ?_
      refine Triple.andThen ?_ fun result => hadd result.outputKey
      refine Triple.of_finalState fun state hstate => ?_
      rw [onBraid]
      split
      · exact hstate
      · exact hstate
    · exact .pure _ fun _ => id
  refine (spqrRecv_keeps crypto field (fun state hstate => ?_) hpayload hderive msgBytes).finalState
    hepoch
  rw [negotiateVersion]
  split
  · exact hstate
  · exact hstate

end

/-! ## The send chain over runs

The send epoch of a braid-mode party stays below the epoch of its agent, whose chains are all there.
-/

section

variable {crypto : SpqrCrypto} {field : GaloisField16} {randomBytes : RandomBytes}
  {state : SPQRState}

theorem spqrSend_finalState {motive : SPQRState → Prop}
    (hkem : ∀ error next, sendKem crypto randomBytes state = .error error next → motive next)
    (hbraid : ∀ kem middle error next, sendKem crypto randomBytes state = .ok kem middle →
      sendBraid crypto field randomBytes middle = .error error next → motive next)
    (hkey : ∀ kem middle result next, sendKem crypto randomBytes state = .ok kem middle →
      sendBraid crypto field randomBytes middle = .ok result next → motive next ∧
        ∀ epoch, sendKeyEpoch result = .ok epoch →
          motive (finalState (deriveSPQRSendKey crypto epoch next))) :
    motive (finalState (spqrSend crypto field randomBytes state)) := by
  rw [spqrSend, bind_apply]
  cases hfst : sendKem crypto randomBytes state with
  | error error middle => exact hkem error middle hfst
  | ok kem middle =>
    dsimp only
    rw [bind_apply]
    cases hsnd : sendBraid crypto field randomBytes middle with
    | error error next => exact hbraid kem middle error next hfst hsnd
    | ok result next =>
      dsimp only
      obtain ⟨hnext, hderived⟩ := hkey kem middle result next hfst hsnd
      cases hepoch : sendKeyEpoch result with
      | error error =>
        rw [fromResult_error_bind]
        exact hnext
      | ok epoch =>
        rw [fromResult_ok_bind, bind_apply]
        have hfinal := hderived epoch hepoch
        cases hderive : deriveSPQRSendKey crypto epoch next with
        | error error after =>
          rw [hderive] at hfinal
          exact hfinal
        | ok key after =>
          rw [hderive] at hfinal
          dsimp only
          split
          swap
          · exact hfinal
          rw [get_bind]
          cases wireEpochOf result key after with
          | error error => exact hfinal
          | ok wireEpoch =>
            rw [fromResult_ok_bind]
            cases encodeSPQRWire _ with
            | error error => exact hfinal
            | ok msgBytes => exact hfinal

theorem SpqrParty.send_state (party : SpqrParty) :
    (party.send crypto field randomBytes).state =
      finalState (spqrSend crypto field randomBytes party.state) := by
  rw [SpqrParty.send]
  cases spqrSend crypto field randomBytes party.state with
  | ok result state => rfl
  | error error state => rfl

theorem SendChain.finalState_sendEpoch_le (hlive : crypto.NoZeroKeys) (hroot : state.rootKey ≠ [])
    {override : Option ℕ} (hchain : SendChain (override.getD state.epoch) state) :
    (finalState (deriveSPQRSendKey crypto override state)).sendEpoch.getD 0 ≤
      override.getD state.epoch := by
  obtain ⟨-, hcur⟩ := hchain.atSendEpoch
  rcases deriveSPQRSendKey_live hlive hroot hchain with
    hnone | ⟨current, rfl, ⟨error, -, herr⟩ | ⟨key, chains, chain, -, hok⟩⟩
  · rw [hnone]
    exact hchain.sendEpoch_le
  · rw [herr]
    exact hcur.le
  · rw [hok]
    exact hcur.le

/-! ## Braid mode -/

theorem chainKeyAt_live (hlive : crypto.NoZeroKeys) {start : Bytes}
    (hstart : start ≠ zeroedChainKey) (infoString : String) (index : ℕ) :
    chainKeyAt crypto infoString start index ≠ zeroedChainKey := by
  cases index with
  | zero => exact hstart
  | succ index => exact hlive.chain_ne _ _ _

theorem chainStart_live (hlive : crypto.NoZeroKeys) (options : PairOptions)
    (info : ResolvedSPQRInfoStrings) (secrets : List Bytes) (side : Side) (epoch : ℕ) :
    chainStart crypto options info secrets side epoch ≠ zeroedChainKey := by
  obtain ⟨ikm, salt, text, hkeys⟩ :=
    epochKeysAfter_eq_split crypto options info (secrets.take epoch)
  rw [chainStart, hkeys]
  cases side with
  | alice => exact hlive.a2b_ne ikm salt text
  | bob => exact hlive.b2a_ne ikm salt text

variable {options : PairOptions} {secrets : List Bytes} {side : Side} {participant : Participant}
  {used peerUsed wanted : Labels}

theorem Follows.sendChain (hlive : crypto.NoZeroKeys)
    (hfollows : FollowsAs crypto options secrets side participant used peerUsed wanted state)
    {epoch : ℕ} (hle : epoch ≤ participant.keys.length) (hsend : state.sendEpoch.getD 0 ≤ epoch) :
    SendChain epoch state := by
  obtain ⟨chains, -, hrecv⟩ := hfollows.receiving epoch hle
  obtain ⟨sendEpoch, -, hsends⟩ := hfollows.sending
  refine ⟨⟨chains, hrecv.get, ?_⟩, hsend⟩
  rw [hsends.sends.sendEpoch_eq, Option.getD_some] at hsend
  rw [hsends.sends.chainKey epoch chains hsend hrecv.get]
  exact chainKeyAt_live hlive (chainStart_live hlive options _ secrets side epoch) _ _

theorem Follows.sendBraid (hlaw : crypto.braid.Lawful)
    (hfollows : FollowsAs crypto options secrets side participant used peerUsed wanted state)
    (hreports : Reports (Braid.send crypto.braid field randomBytes participant.agent))
    (hemits : Emits secrets (participant.send crypto.braid field randomBytes).keys)
    (hlen : (participant.send crypto.braid field randomBytes).keys.length ≤ 1)
    (hwanted : ∀ epoch index, wanted epoch index → 0 < index) :
    (∃ error next, sendBraid crypto field randomBytes state = .error error next ∧
      PlainError error ∧ next.sendEpoch = state.sendEpoch) ∨
    ∃ result next, sendBraid crypto field randomBytes state = .ok (some result) next ∧
      result.sendingEpoch = (participant.send crypto.braid field randomBytes).agent.epoch ∧
      next.sendEpoch = state.sendEpoch ∧
      FollowsAs crypto options secrets side (participant.send crypto.braid field randomBytes)
        used peerUsed wanted next := by
  rw [Spqr.sendBraid, get_bind, hfollows.mode_eq, hfollows.braidState_eq]
  dsimp only
  rcases hreports with ⟨message, agent, outputKey, hok, -, -, hsecret⟩ | ⟨error, agent, herr⟩
  · have hparty : participant.send crypto.braid field randomBytes =
        ⟨agent, participant.sent ++ [message], participant.keys ++ outputKey.toList⟩ := by
      rw [Participant.send, hok]
    rw [hparty] at hemits hlen ⊢
    have hagent : onBraid participant.agent (Braid.send crypto.braid field randomBytes) state =
        .ok ⟨message, agent.epoch, outputKey⟩ { state with braidState := some agent } := by
      rw [onBraid, hok]
    obtain ⟨next, hnext, -, hnextFollows⟩ := (hfollows.with_agent agent
      hfollows.negotiates).addOutputKey_follows hlaw hsecret hemits hlen hwanted
    have hsendEpoch := addOutputKey_sendEpoch crypto outputKey
      { state with braidState := some agent }
    rw [hnext] at hsendEpoch
    rw [bind_apply_ok hagent, bind_apply_ok hnext]
    exact .inr ⟨_, next, rfl, rfl, hsendEpoch, hnextFollows⟩
  · have hagent : onBraid participant.agent (Braid.send crypto.braid field randomBytes) state =
        .error error { state with braidState := some agent } := by
      rw [onBraid, herr]
    rw [bind_apply_error hagent]
    exact .inl ⟨error, _, rfl, braidSend_plain _ _ _ _ _ _ herr, rfl⟩

end

section

variable {field : GaloisField16} {K : Type*} [Field K] (I : field.Interpretation K)

structure SendsInOrder (crypto : SpqrCrypto) (options : PairOptions) (braid : Joint)
    (joint : SpqrJoint) : Prop where
  tracks : Tracks I crypto options braid joint
  sendEpoch_lt : ∀ side, (joint side).state.sendEpoch.getD 0 < (braid side).agent.epoch

variable {I} {crypto : SpqrCrypto} {options : PairOptions} {braid : Joint} {joint : SpqrJoint}
  {randomBytes : RandomBytes}

structure SendStep (crypto : SpqrCrypto) (field : GaloisField16) (randomBytes : RandomBytes)
    (bound : ℕ) (state : SPQRState) : Prop where
  stops : ∀ error next, sendBraid crypto field randomBytes state = .error error next →
    PlainError error ∧ next.sendEpoch.getD 0 < bound
  chain : ∀ result next, sendBraid crypto field randomBytes state = .ok result next →
    next.rootKey ≠ [] ∧ next.sendEpoch.getD 0 < bound ∧
    ∀ epoch, sendKeyEpoch result = .ok epoch →
      epoch.getD next.epoch < bound ∧ SendChain (epoch.getD next.epoch) next

section

variable (hlaw : crypto.braid.Lawful)

include hlaw

theorem SendsInOrder.sendStep (hlive : crypto.NoZeroKeys)
    (hsends : SendsInOrder I crypto options braid joint) (side : Side)
    (hrandom : ∀ length, (randomBytes length).length = length) :
    SendStep crypto field randomBytes
      ((braid side).send crypto.braid field randomBytes).agent.epoch (joint side).state := by
  have htracks := hsends.tracks
  obtain ⟨hreports, hfst⟩ := FirstEpoch.send htracks.first hlaw side hrandom
  obtain ⟨hkeys, -⟩ := Participant.send_extends field crypto (braid side) randomBytes
  have hemits := FirstEpoch.emits hfst side
  have hlen := FirstEpoch.keys_length_le hfst side
  have hbounds := FirstEpoch.epoch_bounds hfst side
  have hlater := FirstEpoch.epoch_le htracks.first hfst
    (fun hhanded => (HandedOver.send hhanded hlaw side randomBytes).2) side
  have hbelow := hsends.sendEpoch_lt side
  rw [Function.update_self] at hemits hlen hbounds hlater
  have hcases := Follows.sendBraid hlaw
    ((htracks.follows side).with_secrets (secretsOf_extends braid hkeys)) hreports hemits hlen
    (htracks.labelled side.other).waitsFor_pos
  set agentEpoch := ((braid side).send crypto.braid field randomBytes).agent.epoch
  refine ⟨fun error next hstop => ?_, fun result next hrun => ?_⟩
  · rcases hcases with ⟨stopped, after, herr, hplain, hsame⟩ | ⟨_, _, hok, -⟩
    · cases herr.symm.trans hstop
      exact ⟨hplain, by rw [hsame]; exact hbelow.trans_le hlater⟩
    · cases hok.symm.trans hstop
  · rcases hcases with ⟨_, _, herr, -⟩ | ⟨sent, after, hok, hsending, hsame, hfollows⟩
    · cases herr.symm.trans hrun
    cases hok.symm.trans hrun
    refine ⟨hfollows.rootKey_ne hlaw, by rw [hsame]; exact hbelow.trans_le hlater,
      fun epoch hepoch => ?_⟩
    obtain ⟨internal, hinternal⟩ := Nat.exists_eq_add_of_le' hbounds.1
    have hkeyEpoch : sendKeyEpoch (some sent) = .ok (some internal) := by
      rw [sendKeyEpoch, hsending, hinternal,
        spqrWireEpochToInternalEpoch_ok (by simp only [maxUint32]; omega)]
      rfl
    cases hkeyEpoch.symm.trans hepoch
    rw [Option.getD_some]
    exact ⟨by omega, hfollows.sendChain hlive (by omega) (by rw [hsame]; omega)⟩

theorem SendsInOrder.sendsLive (hlive : crypto.NoZeroKeys)
    (hsends : SendsInOrder I crypto options braid joint) (side : Side)
    (hrandom : ∀ length, (randomBytes length).length = length) :
    SendsLive crypto field randomBytes (joint side).state := by
  have hstep := hsends.sendStep hlaw hlive side hrandom
  have hkem := sendKem_braid (hsends.tracks.follows side).mode_eq crypto randomBytes
  refine SendsLive.of_chain hlive (fun error next hstop => ?_) (fun kem middle error next hfst
    hstop => ?_) fun kem middle result next epoch hfst hrun hepoch => ?_
  · cases hkem.symm.trans hstop
  · cases hkem.symm.trans hfst
    exact (hstep.stops error next hstop).1.not_sendChainError
  · cases hkem.symm.trans hfst
    obtain ⟨hroot, -, hchain⟩ := hstep.chain result next hrun
    exact ⟨(hchain epoch hepoch).2, hroot⟩

theorem SendsInOrder.send (hlive : crypto.NoZeroKeys)
    (hsends : SendsInOrder I crypto options braid joint) (side : Side)
    (hrandom : ∀ length, (randomBytes length).length = length) :
    SendsInOrder I crypto options
      (Function.update braid side ((braid side).send crypto.braid field randomBytes))
      (Function.update joint side ((joint side).send crypto field randomBytes)) := by
  refine ⟨hsends.tracks.send hlaw side hrandom, fun actor => ?_⟩
  rcases actor.eq_or_eq_other side with rfl | rfl
  swap
  · rw [Function.update_of_ne side.other_ne, Function.update_of_ne side.other_ne]
    exact hsends.sendEpoch_lt side.other
  rw [Function.update_self, Function.update_self]
  have hstep := hsends.sendStep hlaw hlive actor hrandom
  have hkem := sendKem_braid (hsends.tracks.follows actor).mode_eq crypto randomBytes
  rw [SpqrParty.send_state]
  refine spqrSend_finalState (motive := fun state => state.sendEpoch.getD 0 < _) ?_ ?_ ?_
  · intro error next hstop
    cases hkem.symm.trans hstop
  · intro kem middle error next hfst hstop
    cases hkem.symm.trans hfst
    exact (hstep.stops error next hstop).2
  · intro kem middle result next hfst hrun
    cases hkem.symm.trans hfst
    obtain ⟨hroot, hbelow, hchain⟩ := hstep.chain result next hrun
    refine ⟨hbelow, fun epoch hepoch => ?_⟩
    obtain ⟨hlt, hsend⟩ := hchain epoch hepoch
    exact (hsend.finalState_sendEpoch_le hlive hroot).trans_lt hlt

theorem SendsInOrder.receive
    (hsends : SendsInOrder I crypto options braid joint) (side : Side) {position : ℕ}
    {message : SPQRSendResult} (hmsg : (joint side.other).sent[position]? = some message) :
    ∃ next, SendsInOrder I crypto options (Function.update braid side next)
      (Function.update joint side ((joint side).receive crypto field position message)) := by
  obtain ⟨next, hkeeps, htracks⟩ := hsends.tracks.receive hlaw side hmsg
  have hlater := FirstEpoch.epoch_le hsends.tracks.first htracks.first hkeeps side
  rw [Function.update_self] at hlater
  refine ⟨next, htracks, fun actor => ?_⟩
  rcases actor.eq_or_eq_other side with rfl | rfl
  · rw [Function.update_self, Function.update_self]
    have hsame := spqrRecv_sendEpoch crypto field (some message.msgBytes) (joint actor).state
    rw [SpqrParty.receive, hsame]
    exact (hsends.sendEpoch_lt actor).trans_le hlater
  · rw [Function.update_of_ne side.other_ne, Function.update_of_ne side.other_ne]
    exact hsends.sendEpoch_lt side.other

theorem SendsInOrder.of_reachable (hlive : crypto.NoZeroKeys)
    (hreach : (spqrSystem crypto field (initializeSPQRBraid crypto) options).Reachable joint) :
    ∃ braid, SendsInOrder I crypto options braid joint := by
  apply hreach.invariant
  · intro start hstart
    obtain ⟨braid, htracks⟩ := Tracks.of_start (I := I) hlaw hstart
    refine ⟨braid, htracks, fun side => ?_⟩
    obtain ⟨agent, -, hstate⟩ := initializeSPQRBraid_eq_ok (hstart side).1
    have hbounds := FirstEpoch.epoch_bounds htracks.first side
    rw [hstate]
    exact hbounds.1
  · rintro before after ⟨braid, hsends⟩ hstep
    cases hstep with
    | send side randomBytes hrandom => exact ⟨_, hsends.send hlaw hlive side hrandom⟩
    | receive side position message hmsg =>
      obtain ⟨next, hnext⟩ := hsends.receive hlaw side hmsg
      exact ⟨_, hnext⟩

end

end

end SignalProtocol.Spqr

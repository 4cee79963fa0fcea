import SignalProtocol.Proof.SpqrFollows

/-! # One call on a braid-mode state

What `spqrSend` and `spqrRecv` do to a party that follows the epochs, next to the same step of
its agent. -/

namespace SignalProtocol.Spqr

open Braid Rs Results

variable {field : GaloisField16} {crypto : SpqrCrypto} {options : PairOptions}
  {secrets : List Bytes} {side : Side} {participant : Participant} {used peerUsed wanted : Labels}
  {state : SPQRState} {agent : MLKEMBraidAgentState} {pqr : SPQRWireMessage} {result : SendResult}

abbrev FollowsAs (crypto : SpqrCrypto) (options : PairOptions) (secrets : List Bytes)
    (side : Side) (participant : Participant) (used peerUsed wanted : Labels)
    (state : SPQRState) : Prop :=
  Follows crypto options secrets side participant.agent participant.keys used peerUsed wanted state

/-! ## Sending -/

/-- The label of a new message: the epoch that its agent is in, and an index above all earlier
ones. -/
structure NewLabel (agent : MLKEMBraidAgentState) (used : Labels) (epoch index : ℕ) : Prop where
  epoch_eq : epoch + 1 = agent.epoch
  pos : 0 < index
  above : ∀ earlier, used epoch earlier → earlier < index

def SpqrSends (crypto : SpqrCrypto) (options : PairOptions) (secrets : List Bytes) (side : Side)
    (participant : Participant) (used peerUsed wanted : Labels)
    (result : EStateM.Result ProtocolError SPQRState SPQRSendResult) : Prop :=
  (∃ error next, result = .error error next ∧
    FollowsAs crypto options secrets side participant used peerUsed wanted next) ∨
  ∃ message next, result = .ok message next ∧
    Sound crypto options secrets side participant.sent message ∧
    (∀ epoch index, labelOf message.msgBytes = some (epoch, index) →
      NewLabel participant.agent used epoch index) ∧
    FollowsAs crypto options secrets side participant
      (fun epoch index => used epoch index ∨ labelOf message.msgBytes = some (epoch, index))
      peerUsed wanted next

theorem Follows.with_used {keys : List OutputKey} {used' : Labels}
    (hfollows : Follows crypto options secrets side agent keys used peerUsed wanted state)
    (hused : ∀ epoch index, used' epoch index ↔ used epoch index) :
    Follows crypto options secrets side agent keys used' peerUsed wanted state := by
  have heq : used' = used := funext fun epoch => funext fun index => propext (hused epoch index)
  rwa [heq]

def finishSend (crypto : SpqrCrypto) (result : SendResult) : SpqrM SPQRSendResult := do
  let epoch ← fromResult (sendKeyEpoch (some result))
  let key ← deriveSPQRSendKey crypto epoch
  let chunk := chunkOf result
  if key.isSome ∨ chunk.isSome then
    let msgBytes ← fromResult (encodeSPQRWire (wireMessageOf {} chunk key result.sendingEpoch))
    pure { msgBytes, messageKey := key.map SPQRKeyResult.messageKey }
  else pure { msgBytes := [], messageKey := none }

theorem finishSend_wire (key : Option SPQRKeyResult) {epoch : ℕ}
    (hframed : Framed result.message) (hmsg : result.message ∈ participant.sent)
    (hepoch : result.message.epoch = epoch + 1) (hle : epoch ≤ 1)
    (hkey : ∀ found, key = some found → NewKey crypto spqrInfoStrings.chainNext
      (chainStart crypto options spqrInfoStrings secrets side) used epoch found)
    (hsome : key.isSome ∨ (chunkOf result).isSome) :
    ∃ msgBytes, encodeSPQRWire (wireMessageOf {} (chunkOf result) key (epoch + 1)) = .ok msgBytes ∧
      Sound crypto options secrets side participant.sent
        ⟨msgBytes, key.map SPQRKeyResult.messageKey⟩ ∧
      labelOf msgBytes = key.map fun found => (epoch, found.index) := by
  obtain ⟨msgBytes, henc, hbytes, hdec⟩ := decodeSPQRWire_encodeSPQRWire
    (wireMessageOf_encodable result key hframed (by omega : 1 ≤ epoch + 1)
      (by omega) fun found hfound => (hkey found hfound).index_le)
  have hlabel : wireLabel (decodedForm (wireMessageOf {} (chunkOf result) key (epoch + 1))) =
      key.map fun found => (epoch, found.index) := by
    cases key with
    | none => rfl
    | some found => exact if_pos (hkey found rfl).index_pos
  refine ⟨msgBytes, henc, .wire _ hbytes hdec ?_ (fun hmode => ?_) ?_, ?_⟩
  · rcases hsome with hsome | hsome
    · simp only [decodedForm, wireMessageOf]
      split <;> simp
    · simp [decodedForm, wireMessageOf, hsome]
  · have htype : result.message.type ≠ .none := by
      intro hnone
      rw [chunkOf, if_pos hnone] at hmode
      simp [decodedForm, wireMessageOf] at hmode
    refine ⟨result.message, hmsg, htype, ?_⟩
    rw [← hepoch]
    exact receivedChunk_wireMessageOf (by omega) (by omega) htype
  · cases key with
    | none => exact .inl ⟨hlabel, rfl⟩
    | some found =>
      have hnew := hkey found rfl
      exact .inr ⟨epoch, found.index, hle.trans (by decide), rfl, rfl, hnew.index_pos, hnew.index_le,
        congrArg some hnew.messageKey_eq⟩
  · rw [labelOf, hdec]
    exact hlabel

theorem Follows.finishSend (hlaw : crypto.braid.Lawful)
    (hfollows : FollowsAs crypto options secrets side participant used peerUsed wanted state)
    (hframed : Framed result.message) (hmsg : result.message ∈ participant.sent)
    (hsending : result.sendingEpoch = participant.agent.epoch)
    (hmsgEpoch : result.message.epoch = participant.agent.epoch)
    (hpos : 1 ≤ participant.agent.epoch) (hle : participant.agent.epoch ≤ 2) :
    SpqrSends crypto options secrets side participant used peerUsed wanted
      (finishSend crypto result state) := by
  obtain ⟨epoch, hepoch⟩ := Nat.exists_eq_add_of_le' hpos
  have hinternal : sendKeyEpoch (some result) = .ok (some epoch) := by
    rw [sendKeyEpoch, hsending, hepoch, spqrWireEpochToInternalEpoch_ok (by simp only [maxUint32]; omega)]
    rfl
  rw [Spqr.finishSend, hinternal, fromResult_ok_bind, hsending, hepoch]
  have hmessageEpoch' : result.message.epoch = epoch + 1 := hmsgEpoch.trans hepoch
  rcases hfollows.deriveSPQRSendKey_cases hlaw epoch with
    ⟨error, next, herr, hnext⟩ | hnone | ⟨key, next, hok, hnew, -, hnext⟩
  · rw [bind_apply_error herr]
    exact .inl ⟨error, next, rfl, hnext⟩
  · rw [bind_apply_ok hnone]
    by_cases hchunk : (chunkOf result).isSome = true
    · have hnoKey : ∀ found, (none : Option SPQRKeyResult) = some found →
          NewKey crypto spqrInfoStrings.chainNext
            (chainStart crypto options spqrInfoStrings secrets side) used epoch found := by
        rintro found ⟨⟩
      obtain ⟨msgBytes, henc, hsound, hlabel⟩ := finishSend_wire none hframed hmsg
        hmessageEpoch' (by omega) hnoKey (.inr hchunk)
      have hnoLabel : ∀ epoch index, labelOf msgBytes ≠ some (epoch, index) := by
        intro epoch index
        rw [hlabel]
        rintro ⟨⟩
      rw [if_pos (.inr hchunk), henc, fromResult_ok_bind]
      exact .inr ⟨_, state, rfl, hsound, fun epoch index hnew => absurd hnew (hnoLabel _ _),
        hfollows.with_used fun epoch index => or_iff_left (hnoLabel _ _)⟩
    · rw [if_neg (by simpa using hchunk)]
      have hnoLabel : ∀ epoch index, labelOf [] ≠ some (epoch, index) := by
        rintro epoch index ⟨⟩
      exact .inr ⟨_, state, rfl, .silent rfl rfl, fun epoch index hnew =>
        absurd hnew (hnoLabel _ _), hfollows.with_used fun epoch index =>
          or_iff_left (hnoLabel _ _)⟩
  · obtain ⟨msgBytes, henc, hsound, hlabel⟩ := finishSend_wire (some key) hframed
      hmsg hmessageEpoch' (by omega) (fun found hfound => by cases hfound; exact hnew)
      (.inl rfl)
    have hlabelIff : ∀ other index, labelOf msgBytes = some (other, index) ↔
        other = epoch ∧ index = key.index := by
      intro other index
      rw [hlabel]
      simp [eq_comm]
    rw [bind_apply_ok hok, if_pos (.inl rfl), henc, fromResult_ok_bind]
    refine .inr ⟨_, next, rfl, hsound, fun other index hlabelled => ?_, hnext.with_used
      fun other index => or_congr_right (hlabelIff other index)⟩
    obtain ⟨rfl, rfl⟩ := (hlabelIff other index).mp hlabelled
    exact ⟨hepoch.symm, hnew.index_pos, hnew.above⟩

/-- In braid mode, a send is a step of the agent, a new epoch if the step emits a key, and the
message. -/
theorem spqrSend_braid (hmode : state.mode = .braid)
    (hagent : state.braidState = some agent) (randomBytes : RandomBytes) :
    spqrSend crypto field randomBytes state =
      (do
        let result ← onBraid agent (Braid.send crypto.braid field randomBytes)
        addOutputKey crypto result.outputKey
        finishSend crypto result) state := by
  have hsend : sendBraid crypto field randomBytes state =
      (do
        let result ← onBraid agent (Braid.send crypto.braid field randomBytes)
        addOutputKey crypto result.outputKey
        pure (some result)) state := by
    rw [sendBraid, get_bind, hmode, hagent]
  rw [spqrSend, bind_apply_ok (sendKem_braid hmode crypto randomBytes), bind_apply, hsend,
    bind_apply, bind_apply]
  cases onBraid agent (Braid.send crypto.braid field randomBytes) state with
  | error error next => rfl
  | ok result next =>
    dsimp only
    rw [bind_apply, bind_apply]
    cases addOutputKey crypto result.outputKey next with
    | error error next => rfl
    | ok value next =>
      simp only [pure_apply, Option.isSome_none, Bool.false_eq_true, false_or,
        Option.bind_some, wireEpochOf, pure_eq_ok]
      rfl

theorem Follows.spqrSend (hlaw : crypto.braid.Lawful)
    (hfollows : FollowsAs crypto options secrets side participant used peerUsed wanted state)
    {randomBytes : RandomBytes}
    (hreports : Reports (Braid.send crypto.braid field randomBytes participant.agent))
    (hemits : Emits secrets (participant.send crypto.braid field randomBytes).keys)
    (hlen : (participant.send crypto.braid field randomBytes).keys.length ≤ 1)
    (hpos : 1 ≤ (participant.send crypto.braid field randomBytes).agent.epoch)
    (hle : (participant.send crypto.braid field randomBytes).agent.epoch ≤ 2)
    (hwanted : ∀ epoch index, wanted epoch index → 0 < index) :
    SpqrSends crypto options secrets side (participant.send crypto.braid field randomBytes) used
      peerUsed wanted (spqrSend crypto field randomBytes state) := by
  rw [spqrSend_braid hfollows.mode_eq hfollows.braidState_eq]
  rcases hreports with
    ⟨message, agent, outputKey, hok, hepoch, hframed, hsecret⟩ | ⟨error, agent, herr⟩
  · have hparty : participant.send crypto.braid field randomBytes =
        ⟨agent, participant.sent ++ [message], participant.keys ++ outputKey.toList⟩ := by
      rw [Participant.send, hok]
    rw [hparty] at hemits hlen hpos hle ⊢
    have hagent : onBraid participant.agent (Braid.send crypto.braid field randomBytes) state =
        .ok ⟨message, agent.epoch, outputKey⟩ { state with braidState := some agent } := by
      rw [onBraid, hok]
    obtain ⟨next, hnext, -, hnextFollows⟩ := (hfollows.with_agent agent
      hfollows.negotiates).addOutputKey_follows hlaw hsecret hemits hlen hwanted
    rw [bind_apply_ok hagent, bind_apply_ok hnext]
    have hmem : message ∈ participant.sent ++ [message] :=
      List.mem_append_right _ (List.mem_singleton_self _)
    exact Follows.finishSend hlaw hnextFollows hframed hmem rfl hepoch hpos hle
  · have hparty : participant.send crypto.braid field randomBytes = { participant with agent } := by
      rw [Participant.send, herr]
    have hagent : onBraid participant.agent (Braid.send crypto.braid field randomBytes) state =
        .error error { state with braidState := some agent } := by
      rw [onBraid, herr]
    rw [hparty, bind_apply_error hagent]
    exact .inl ⟨error, _, rfl, hfollows.with_agent agent hfollows.negotiates⟩

inductive Delivers (crypto : SpqrCrypto) (field : GaloisField16) (pqr : SPQRWireMessage)
    (participant : Participant) : Participant → Prop where
  | none (hmode : pqr.mode = .none) : Delivers crypto field pqr participant participant
  | chunk (chunk : MLKEMBraidMessage) (hmode : pqr.mode = .braid)
      (hchunk : receivedChunk pqr = .ok chunk)
      (haccepts : Accepts (Braid.receive crypto.braid field chunk participant.agent)) :
      Delivers crypto field pqr participant (participant.receive crypto.braid field chunk)

variable {next : Participant}

theorem Follows.receivePayload (hlaw : crypto.braid.Lawful)
    (hfollows : FollowsAs crypto options secrets side participant used peerUsed wanted state)
    (hdelivers : Delivers crypto field pqr participant next) (hemits : Emits secrets next.keys)
    (hlen : next.keys.length ≤ 1) (hwanted : ∀ epoch index, wanted epoch index → 0 < index) :
    ∃ after, receivePayload crypto field pqr state = .ok ⟨⟩ after ∧
      KeepsChains participant.keys.length state after ∧
      FollowsAs crypto options secrets side next used peerUsed wanted after := by
  cases hdelivers with
  | none hmode =>
    refine ⟨state, ?_, ⟨rfl, rfl, fun _ _ => rfl⟩, hfollows⟩
    rw [Spqr.receivePayload, get_bind, hmode]
    rfl
  | chunk chunk hmode hchunk haccepts =>
    obtain ⟨received, agent, hok, hsecret⟩ := haccepts
    rw [Participant.receive_of_ok hok] at hemits hlen ⊢
    have hagent : onBraid participant.agent (Braid.receive crypto.braid field chunk) state =
        .ok received { state with braidState := some agent } := by
      rw [onBraid, hok]
    obtain ⟨after, hafter, hkeeps, hfollows'⟩ := (hfollows.with_agent agent
      hfollows.negotiates).addOutputKey_follows hlaw hsecret hemits hlen hwanted
    refine ⟨after, ?_, ⟨hkeeps.limits_eq, hkeeps.negotiation_eq, hkeeps.chains_eq⟩, hfollows'⟩
    rw [Spqr.receivePayload, get_bind, hmode, hfollows.mode_eq, hfollows.braidState_eq]
    dsimp only
    rw [hchunk, fromResult_ok_bind, bind_apply_ok hagent]
    exact hafter

theorem Follows.negotiate
    (hfollows : FollowsAs crypto options secrets side participant used peerUsed wanted state) :
    FollowsAs crypto options secrets side participant used peerUsed wanted
      { state with versionNegotiation := some .complete } := by
  have hsame := hfollows.with_agent participant.agent
    (rfl : (some VersionStatus.complete).isSome = true)
  rwa [← hfollows.braidState_eq] at hsame

/-- A message on the wire: the negotiation, the step of the agent, and the message key. -/
theorem Follows.spqrRecv_wire {msgBytes : Bytes} (hlaw : crypto.braid.Lawful)
    (hfollows : FollowsAs crypto options secrets side participant used peerUsed wanted state)
    (hbytes : msgBytes ≠ []) (hdec : decodeSPQRWire msgBytes = .ok pqr)
    (hdelivers : Delivers crypto field pqr participant next) (hemits : Emits secrets next.keys)
    (hlen : next.keys.length ≤ 1) (hwanted : ∀ epoch index, wanted epoch index → 0 < index) :
    ∃ after, spqrRecv crypto field (some msgBytes) state = receiveKey crypto pqr after ∧
      after.limits = state.limits ∧ after.versionNegotiation = some .complete ∧
      (∀ epoch ≤ participant.keys.length, after.kdfChains.get? epoch = state.kdfChains.get? epoch) ∧
      FollowsAs crypto options secrets side next used peerUsed wanted after := by
  obtain ⟨after, hafter, hkeeps, hnext⟩ :=
    hfollows.negotiate.receivePayload hlaw hdelivers hemits hlen hwanted
  refine ⟨after, ?_, hkeeps.limits_eq, hkeeps.negotiation_eq, hkeeps.chains_eq, hnext⟩
  rw [spqrRecv, Option.getD_some, if_neg hbytes, hdec, fromResult_ok_bind, modify_bind,
    negotiateVersion_eq hfollows.negotiates, bind_apply_ok hafter]

/-! ## Message keys of a braid-mode pair

The joint invariant: next to the two parties run two agents that exchange chunks only, and each
party follows its agent. -/

open List OrderedMap Option

variable {field : GaloisField16} {K : Type*} [Field K] (I : field.Interpretation K) {side : Side}
  {position : ℕ}

def secretsOf (braid : Joint) : List Bytes := (braid .bob).keys.map (·.epochSecret)

structure Tracks (crypto : SpqrCrypto) (options : PairOptions) (braid : Joint)
    (joint : SpqrJoint) : Prop where
  first : FirstEpoch I crypto.braid braid
  follows : ∀ side, FollowsAs crypto options (secretsOf braid) side (braid side)
    (usedBy (joint side)) (usedBy (joint side.other)) (waitsFor (joint side) (joint side.other))
    (joint side).state
  sound : ∀ side, ∀ message ∈ (joint side).sent,
    Sound crypto options (secretsOf braid) side (braid side).sent message
  label_le : ∀ side epoch index, usedBy (joint side) epoch index →
    epoch ≤ (braid side.other).keys.length ∧ 0 < index
  label_inj : ∀ (side : Side) (position other : ℕ) (message message' : SPQRSendResult)
    (label : ℕ × ℕ), (joint side).sent[position]? = some message →
    (joint side).sent[other]? = some message' → labelOf message.msgBytes = some label →
    labelOf message'.msgBytes = some label → position = other

section

variable {I} {crypto : SpqrCrypto} {options : PairOptions} {braid : Joint}
  (participant : Participant)

theorem FirstEpoch.emits (hfst : FirstEpoch I crypto.braid braid) (side : Side) :
    Emits (secretsOf braid) (braid side).keys := by
  have hepochs : ∀ keys : List OutputKey, (∃ count, keys.map (·.epoch) = List.range' 1 count) →
      keys.map (·.epoch) = List.range' 1 keys.length := by
    rintro keys ⟨count, hcount⟩
    have hlen := congrArg List.length hcount
    rw [length_map, length_range'] at hlen
    rw [hcount, hlen]
  have hinOrder := (FirstEpoch.keysAgree hfst).inOrder
  cases side with
  | alice => exact ⟨hepochs _ hinOrder.1, (FirstEpoch.keysAgree hfst).1.map _⟩
  | bob => exact ⟨hepochs _ hinOrder.2, prefix_rfl⟩

variable (crypto field) in
theorem Participant.send_extends (randomBytes : RandomBytes) :
    participant.keys <+: (participant.send crypto.braid field randomBytes).keys ∧
      participant.sent <+: (participant.send crypto.braid field randomBytes).sent := by
  rw [Participant.send]
  split
  · exact ⟨prefix_append _ _, prefix_append _ _⟩
  · exact ⟨prefix_rfl, prefix_rfl⟩

variable (crypto field) in
theorem Participant.receive_extends (message : MLKEMBraidMessage) :
    participant.keys <+: (participant.receive crypto.braid field message).keys ∧
      (participant.receive crypto.braid field message).sent = participant.sent := by
  rw [Participant.receive]
  split
  · exact ⟨prefix_append _ _, rfl⟩
  · exact ⟨prefix_rfl, rfl⟩

theorem secretsOf_extends (braid : Joint) {next : Participant}
    (hkeys : (braid side).keys <+: next.keys) :
    secretsOf braid <+: secretsOf (Function.update braid side next) := by
  cases side with
  | alice =>
    simp only [secretsOf, ne_eq, reduceCtorEq, not_false_eq_true, Function.update_of_ne]
    exact prefix_rfl
  | bob =>
    simp only [secretsOf, Function.update_self]
    exact hkeys.map _

theorem Sound.mono {secrets longer : List Bytes} {sent sent' : List MLKEMBraidMessage}
    {message : SPQRSendResult} (hsound : Sound crypto options secrets side sent message)
    (hext : secrets <+: longer) (hsent : ∀ chunk ∈ sent, chunk ∈ sent')
    (hlabel : ∀ epoch index, labelOf message.msgBytes = some (epoch, index) →
      epoch ≤ secrets.length) : Sound crypto options longer side sent' message := by
  cases hsound with
  | silent hbytes hkey => exact .silent hbytes hkey
  | wire pqr hbytes hdec hmode hchunk hkey =>
    refine .wire pqr hbytes hdec hmode (fun hbraid => ?_) (hkey.imp_right ?_)
    · obtain ⟨chunk, hmem, hrest⟩ := hchunk hbraid
      exact ⟨chunk, hsent chunk hmem, hrest⟩
    · rintro ⟨epoch, index, hle, hepoch, hidx, hpos, hbound, hmessageKey⟩
      have hlabelled : labelOf message.msgBytes = some (epoch, index) := by
        rw [labelOf, hdec]
        exact wireLabel_eq hepoch hidx hpos
      refine ⟨epoch, index, hle, hepoch, hidx, hpos, hbound, ?_⟩
      rw [chainStart_of_extends crypto options spqrInfoStrings hext side (hlabel epoch index hlabelled)]
      exact hmessageKey

/-! ## Steps -/

variable {joint : SpqrJoint}

section

variable (htracks : Tracks I crypto options braid joint)

include htracks

theorem Tracks.labelled (side : Side) : Labelled (joint side) :=
  ⟨fun epoch index hused => (htracks.label_le side epoch index hused).2, htracks.label_inj side⟩

variable {next : Participant}

theorem Tracks.follows_other (hkeys : (braid side).keys <+: next.keys)
    {peerUsed' wanted' : Labels}
    (hused : ∀ epoch index, usedBy (joint side) epoch index → peerUsed' epoch index)
    (hwanted : ∀ epoch index, wanted' epoch index →
      waitsFor (joint side.other) (joint side) epoch index ∨ AboveUsed (joint side) epoch index) :
    FollowsAs crypto options (secretsOf (Function.update braid side next)) side.other
      (braid side.other) (usedBy (joint side.other)) peerUsed' wanted'
      (joint side.other).state := by
  have hfollows := htracks.follows side.other
  rw [Side.other_other] at hfollows
  exact (hfollows.with_secrets (secretsOf_extends braid hkeys)).with_peerUsed hused hwanted

theorem Tracks.label_le_secrets {message : SPQRSendResult} (hmsg : message ∈ (joint side).sent)
    (epoch index : ℕ) (hlabel : labelOf message.msgBytes = some (epoch, index)) :
    epoch ≤ (secretsOf braid).length := by
  have hle := (htracks.label_le side epoch index ⟨message, hmsg, hlabel⟩).1
  exact hle.trans (htracks.follows side.other).keys_length_le

theorem Tracks.of_step (side : Side) {party : SpqrParty}
    (hfst : FirstEpoch I crypto.braid (Function.update braid side next))
    (hkeys : (braid side).keys <+: next.keys) (hsent : (braid side).sent <+: next.sent)
    (hfollows : FollowsAs crypto options (secretsOf (Function.update braid side next)) side next
      (usedBy party) (usedBy (joint side.other)) (waitsFor party (joint side.other)) party.state)
    (hmsgs : party.sent = (joint side).sent ∨ ∃ message,
      party.sent = (joint side).sent ++ [message] ∧
      Sound crypto options (secretsOf (Function.update braid side next)) side next.sent message ∧
      ∀ epoch index, labelOf message.msgBytes = some (epoch, index) →
        NewLabel next.agent (usedBy (joint side)) epoch index) :
    Tracks I crypto options (Function.update braid side next)
      (Function.update joint side party) := by
  have hext := secretsOf_extends braid hkeys
  have hbounds := FirstEpoch.epoch_bounds hfst side
  rw [Function.update_self, Function.update_of_ne side.other_ne] at hbounds
  have hmem : ∀ message ∈ (joint side).sent, message ∈ party.sent := by
    intro message hmsg
    rcases hmsgs with hsame | ⟨new, hnew, -⟩
    · rw [hsame]
      exact hmsg
    · rw [hnew]
      exact mem_append_left _ hmsg
  have hnewLabel : ∀ message epoch index, message ∈ party.sent →
      labelOf message.msgBytes = some (epoch, index) → message ∈ (joint side).sent ∨
      NewLabel next.agent (usedBy (joint side)) epoch index := by
    intro message epoch index hmsg hlabel
    rcases hmsgs with hsame | ⟨new, hnew, -, hlabels⟩
    · rw [hsame] at hmsg
      exact .inl hmsg
    · rw [hnew, mem_append, mem_singleton] at hmsg
      rcases hmsg with hmsg | rfl
      · exact .inl hmsg
      · exact .inr (hlabels epoch index hlabel)
  refine ⟨hfst, fun actor => ?_, fun actor message hmsg => ?_,
    fun actor epoch index hused => ?_, fun actor position other message message' label hmsg
      hmessage' hlabel hlabel' => ?_⟩
  · rcases actor.eq_or_eq_other side with rfl | rfl
    · simpa using hfollows
    · simp only [Function.update_of_ne side.other_ne, Side.other_other, Function.update_self]
      refine htracks.follows_other hkeys ?_ ?_
      · rintro epoch index ⟨message, hmsg, hlabel⟩
        exact ⟨message, hmem message hmsg, hlabel⟩
      · intro epoch index hwaits
        rcases hmsgs with hsame | ⟨new, hnew, -, hlabels⟩
        · exact .inl (waitsFor_of_sent_eq hsame hwaits)
        · exact waitsFor_append hnew (fun epoch index hlabel =>
            ⟨(hlabels epoch index hlabel).pos, (hlabels epoch index hlabel).above⟩) hwaits
  · have hold : ∀ message ∈ (joint side).sent, Sound crypto options
        (secretsOf (Function.update braid side next)) side next.sent message := by
      intro message hmsg
      exact (htracks.sound side message hmsg).mono hext (fun chunk hchunk =>
        hsent.subset hchunk) (htracks.label_le_secrets hmsg)
    rcases actor.eq_or_eq_other side with rfl | rfl
    · rw [Function.update_self] at hmsg ⊢
      rcases hmsgs with hsame | ⟨new, hnew, hsound, -⟩
      · rw [hsame] at hmsg
        exact hold message hmsg
      · rw [hnew, mem_append, mem_singleton] at hmsg
        rcases hmsg with hmsg | rfl
        · exact hold message hmsg
        · exact hsound
    · rw [Function.update_of_ne side.other_ne] at hmsg ⊢
      exact (htracks.sound side.other message hmsg).mono hext (fun _ => id)
        (htracks.label_le_secrets hmsg)
  · rcases actor.eq_or_eq_other side with rfl | rfl
    · rw [Function.update_self] at hused
      rw [Function.update_of_ne actor.other_ne]
      obtain ⟨message, hmsg, hlabel⟩ := hused
      rcases hnewLabel message epoch index hmsg hlabel with hmsg | hnew
      · exact htracks.label_le actor epoch index ⟨message, hmsg, hlabel⟩
      · have hepoch := hnew.epoch_eq
        exact ⟨by omega, hnew.pos⟩
    · rw [Function.update_of_ne side.other_ne] at hused
      rw [Side.other_other, Function.update_self]
      obtain ⟨hle, hpos⟩ := htracks.label_le side.other epoch index hused
      rw [Side.other_other] at hle
      exact ⟨hle.trans hkeys.length_le, hpos⟩
  · refine Labelled.inj ?_ position other message message' label hmsg hmessage' hlabel hlabel'
    rcases actor.eq_or_eq_other side with rfl | rfl
    · rw [Function.update_self]
      rcases hmsgs with hsame | ⟨new, hnew, -, hlabels⟩
      · exact (htracks.labelled actor).of_sent_eq hsame
      · exact (htracks.labelled actor).append hnew fun epoch index hlabel =>
          ⟨(hlabels epoch index hlabel).pos, (hlabels epoch index hlabel).above⟩
    · rw [Function.update_of_ne side.other_ne]
      exact htracks.labelled side.other

end

theorem Tracks.send (hlaw : crypto.braid.Lawful)
    (htracks : Tracks I crypto options braid joint) (side : Side) {randomBytes : RandomBytes}
    (hrandom : ∀ length, (randomBytes length).length = length) :
    Tracks I crypto options
      (Function.update braid side ((braid side).send crypto.braid field randomBytes))
      (Function.update joint side ((joint side).send crypto field randomBytes)) := by
  obtain ⟨hreports, hfst⟩ := FirstEpoch.send htracks.first hlaw side hrandom
  obtain ⟨hkeys, hsent⟩ := Participant.send_extends field crypto (braid side) randomBytes
  have hext := secretsOf_extends braid hkeys
  have hemits := FirstEpoch.emits hfst side
  have hlen := FirstEpoch.keys_length_le hfst side
  have hbounds := FirstEpoch.epoch_bounds hfst side
  rw [Function.update_self] at hemits hlen hbounds
  have hsends := Follows.spqrSend hlaw ((htracks.follows side).with_secrets hext) hreports
    hemits hlen hbounds.1 (by omega)
    (htracks.labelled side.other).waitsFor_pos
  rcases hsends with ⟨error, after, herr, hfollows⟩ | ⟨message, after, hok, hsound, hlabel, hfollows⟩
  · have hparty : (joint side).send crypto field randomBytes =
        { joint side with state := after } := by
      rw [SpqrParty.send, herr]
    rw [hparty]
    exact htracks.of_step side hfst hkeys hsent hfollows (.inl rfl)
  · have hparty : (joint side).send crypto field randomBytes =
        { joint side with state := after, sent := (joint side).sent ++ [message] } := by
      rw [SpqrParty.send, hok]
    rw [hparty]
    exact htracks.of_step side hfst hkeys hsent (hfollows.with_used (usedBy_append rfl))
      (.inr ⟨message, rfl, hsound, hlabel⟩)

variable (field) in
theorem Tracks.delivers (hlaw : crypto.braid.Lawful)
    (htracks : Tracks I crypto options braid joint) (side : Side) {pqr : SPQRWireMessage}
    (hmode : pqr.mode ≠ .direct)
    (hchunk : pqr.mode = .braid → ∃ chunk ∈ (braid side.other).sent, chunk.type ≠ .none ∧
      receivedChunk pqr = .ok chunk) :
    ∃ next, Delivers crypto field pqr (braid side) next ∧
      FirstEpoch I crypto.braid (Function.update braid side next) ∧
      (HandedOver I crypto.braid braid →
        HandedOver I crypto.braid (Function.update braid side next)) ∧
      (braid side).keys <+: next.keys ∧ next.sent = (braid side).sent := by
  cases hcase : pqr.mode with
  | none =>
    have hsame := Function.update_eq_self side braid
    exact ⟨braid side, .none hcase, hsame.symm ▸ htracks.first, hsame.symm ▸ id, prefix_rfl, rfl⟩
  | direct => exact absurd hcase hmode
  | braid =>
    obtain ⟨chunk, hmem, htype, hreceived⟩ := hchunk hcase
    obtain ⟨haccepts, hfst⟩ := FirstEpoch.receive htracks.first hlaw side hmem htype
    obtain ⟨hkeys, hsent⟩ := Participant.receive_extends field crypto (braid side) chunk
    exact ⟨_, .chunk chunk hcase hreceived haccepts, hfst, fun hhanded =>
      (HandedOver.receive hhanded side hmem htype).2, hkeys, hsent⟩

theorem Tracks.receive (hlaw : crypto.braid.Lawful)
    (htracks : Tracks I crypto options braid joint) (side : Side)
    {message : SPQRSendResult} (hmsg : (joint side.other).sent[position]? = some message) :
    ∃ next, (HandedOver I crypto.braid braid →
        HandedOver I crypto.braid (Function.update braid side next)) ∧
      Tracks I crypto options (Function.update braid side next)
        (Function.update joint side ((joint side).receive crypto field position message)) := by
  have hmem := mem_of_getElem? hmsg
  have hpos : ∀ epoch index, waitsFor (joint side) (joint side.other) epoch index → 0 < index :=
    (htracks.labelled side.other).waitsFor_pos
  have hless : ∀ epoch index, waitsFor ((joint side).receive crypto field position message)
      (joint side.other) epoch index → waitsFor (joint side) (joint side.other) epoch index ∧
        labelOf message.msgBytes ≠ some (epoch, index) := by
    intro epoch index hwaits
    exact (htracks.labelled side.other).waitsFor_deliver rfl hmsg hwaits
  cases htracks.sound side.other message hmem with
  | silent hbytes hkey =>
    refine ⟨braid side, by rw [Function.update_eq_self]; exact id, htracks.of_step side
      (by rw [Function.update_eq_self]; exact htracks.first) prefix_rfl prefix_rfl
      ?_ (.inl rfl)⟩
    have hstate : ((joint side).receive crypto field position message).state =
        (joint side).state := by
      rw [SpqrParty.receive, spqrRecv, hbytes, getD_some, if_pos rfl]
      rfl
    rw [Function.update_eq_self, hstate]
    exact (htracks.follows side).with_peerUsed (fun _ _ => id)
      fun epoch index hwaits => .inl (hless epoch index hwaits).1
  | wire pqr hbytes hdec hmode hchunk hkey =>
    obtain ⟨next, hdelivers, hfst, hhanded, hkeys, hsent⟩ :=
      htracks.delivers field hlaw side hmode hchunk
    refine ⟨next, hhanded, htracks.of_step side hfst hkeys (by rw [hsent]) ?_ (.inl rfl)⟩
    have hemits := FirstEpoch.emits hfst side
    have hlen := FirstEpoch.keys_length_le hfst side
    rw [Function.update_self] at hemits hlen
    obtain ⟨after, hafter, -, -, -, hfollows⟩ := Follows.spqrRecv_wire hlaw
      ((htracks.follows side).with_secrets (secretsOf_extends braid hkeys)) hbytes hdec hdelivers
      hemits hlen hpos
    have hstate : ((joint side).receive crypto field position message).state =
        finalState (receiveKey crypto pqr after) := by
      rw [SpqrParty.receive, hafter]
    rw [hstate]
    rcases hkey with ⟨hnone, -⟩ | ⟨epoch, index, hle, hepoch, hidx, hindexPos, -, -⟩
    · rw [receiveKey_of_none hnone]
      exact hfollows.with_peerUsed (fun _ _ => id)
        fun epoch index hwaits => .inl (hless epoch index hwaits).1
    · have hlabel : labelOf message.msgBytes = some (epoch, index) := by
        rw [labelOf, hdec]
        exact wireLabel_eq hepoch hidx hindexPos
      have hused : usedBy (joint side.other) epoch index := ⟨message, hmem, hlabel⟩
      have hepochLe := (htracks.label_le side.other epoch index hused).1
      rw [Side.other_other] at hepochLe
      rw [receiveKey_of_some hle hepoch hidx hindexPos]
      refine (hfollows.deriveSPQRReceiveKey_follows hlaw (hepochLe.trans hkeys.length_le)
        hused).with_peerUsed (fun _ _ => id) fun other place hwaits => .inl ?_
      obtain ⟨hwait, hne⟩ := hless other place hwaits
      refine ⟨hwait, ?_⟩
      rintro ⟨rfl, rfl⟩
      exact hne hlabel

def initAgent (crypto : BraidCrypto) : Side → Bytes → Except ProtocolError MLKEMBraidAgentState
  | .alice => initAlice crypto
  | .bob => initBob crypto

theorem initializeSPQRBraid_eq_ok {state : SPQRState}
    (hinit : initializeSPQRBraid crypto (options.forSide side) = .ok state) :
    ∃ agent, initAgent crypto.braid side options.rootKey = .ok agent ∧ state = {
      rootKey := (firstEpochKeys crypto options).rootKey
      epoch := 0
      sendEpoch := some 0
      kdfChains := OrderedMap.empty.set 0
        (orderChains (directionOf side) (firstEpochKeys crypto options))
      skippedKeys := ∅
      direction := directionOf side
      sckaState := ⟨0, options.ourKyberPrivateKey side, none⟩
      mode := .braid
      braidState := some agent
      versionNegotiation := some .negotiating } := by
  have hkeys : ∀ keys, kdfSpqrInit crypto options.rootKey options.infoStrings.chainStart =
      .ok keys → keys = firstEpochKeys crypto options := by
    intro keys hkeys
    rw [kdfSpqrInit] at hkeys
    split at hkeys
    · cases hkeys
    · cases hkeys
      rfl
  cases side with
  | alice | bob =>
    obtain ⟨agent, hagent, hrest⟩ := bind_eq_ok_iff.mp hinit
    obtain ⟨keys, hderive, hstate⟩ := bind_eq_ok_iff.mp hrest
    cases hstate
    refine ⟨agent, hagent, ?_⟩
    rw [hkeys keys hderive]
    rfl

theorem Tracks.of_start (hlaw : crypto.braid.Lawful)
    (hstart : (spqrSystem crypto field (initializeSPQRBraid crypto) options).init joint) :
    ∃ braid, Tracks I crypto options braid joint := by
  choose agent hagent hstate using fun side => initializeSPQRBraid_eq_ok (hstart side).1
  have hsent : ∀ side, (joint side).sent = [] := fun side => (hstart side).2.1
  have hnone : ∀ side epoch index, ¬ usedBy (joint side) epoch index := by
    rintro side epoch index ⟨message, hmsg, -⟩
    rw [hsent] at hmsg
    cases hmsg
  refine ⟨fun side => ⟨agent side, [], []⟩, FirstEpoch.of_start hlaw
    ⟨hagent .alice, hagent .bob, fun _ => ⟨rfl, rfl⟩⟩, fun side => ?_, fun side message hmsg =>
    ?_, fun side epoch index hused => absurd hused (hnone side epoch index), ?_⟩
  · have hget : ∀ epoch chains, (joint side).state.kdfChains.get? epoch = some chains →
        epoch = 0 ∧ chains = orderChains (directionOf side) (firstEpochKeys crypto options) := by
      intro epoch chains hchains
      rw [hstate side, get?_set] at hchains
      split at hchains
      · rename_i hzero
        exact ⟨hzero, (Option.some.inj hchains).symm⟩
      · cases hchains
    have hheld : ∀ name, (joint side).state.skippedKeys.get? name = none := by
      intro name
      rw [hstate side]
      rfl
    have hinfo : (joint side).state.resolvedInfoStrings.chainNext = spqrInfoStrings.chainNext := by
      rw [hstate side]
      rfl
    have hfst : (joint side).state.kdfChains.get? 0 =
        some (orderChains (directionOf side) (firstEpochKeys crypto options)) := by
      rw [hstate side]
      exact get?_set_self _ _ _
    refine {
      emits := ⟨rfl, nil_prefix⟩
      keys_length := Nat.zero_le _
      mode_eq := by rw [hstate side]
      braidState_eq := by rw [hstate side]
      negotiates := by rw [hstate side]; rfl
      direction_eq := by rw [hstate side]
      infoStrings_eq := by rw [hstate side]
      epoch_eq := by rw [hstate side]; rfl
      sckaEpoch_eq := by rw [hstate side]; rfl
      rootKey_eq := by rw [hstate side]; rfl
      chains_le := fun epoch chains hchains => (hget epoch chains hchains).1.le
      held_le := fun name key hkey => by rw [hheld] at hkey; cases hkey
      sending := ⟨0, le_rfl, ⟨hinfo, by rw [hstate side], fun epoch chains _ hchains => ?_,
        fun epoch chains hepoch hchains => ?_⟩, fun epoch index hused =>
          absurd hused (hnone side epoch index), fun index hused =>
          absurd hused (hnone side 0 index)⟩
      receiving := fun epoch hepoch => ?_ }
    · obtain ⟨rfl, rfl⟩ := hget epoch chains hchains
      rw [orderChains_directionOf]
      rfl
    · exact absurd (hget epoch chains hchains).1 hepoch.ne'
    · obtain rfl := Nat.le_zero.mp hepoch
      rw [orderChains_directionOf] at hfst
      refine ⟨_, .inl rfl, hinfo, hfst, rfl, fun index key hkey => ?_, fun index hwaits => ?_⟩
      · rw [hheld] at hkey
        cases hkey
      · obtain ⟨position, message, hmsg, -, -⟩ := hwaits
        rw [hsent, getElem?_nil] at hmsg
        cases hmsg
  · rw [hsent] at hmsg
    cases hmsg
  · intro side position other message message' label hmsg
    rw [hsent, getElem?_nil] at hmsg
    cases hmsg

theorem Tracks.of_reachable (hlaw : crypto.braid.Lawful)
    (hreach : (spqrSystem crypto field (initializeSPQRBraid crypto) options).Reachable joint) :
    ∃ braid, Tracks I crypto options braid joint := by
  apply hreach.invariant
  · exact fun _ hstart => Tracks.of_start hlaw hstart
  · rintro before after ⟨braid, htracks⟩ hstep
    cases hstep with
    | send side randomBytes hrandom => exact ⟨_, htracks.send hlaw side hrandom⟩
    | receive side position message hmsg =>
      obtain ⟨next, -, hnext⟩ := htracks.receive hlaw side hmsg
      exact ⟨_, hnext⟩

end

theorem Tracks.receives_key {I : field.Interpretation K} {crypto : SpqrCrypto}
    {options : PairOptions} {braid : Joint} {joint : SpqrJoint} (hlaw : crypto.braid.Lawful)
    (htracks : Tracks I crypto options braid joint) (side : Side)
    {message : SPQRSendResult} (hmsg : (joint side.other).sent[position]? = some message)
    (hfst : position ∉ (joint side).delivered)
    (hlimits : WithinLimits (joint side).state message.msgBytes) :
    ∃ next, spqrRecv crypto field (some message.msgBytes) (joint side).state =
      .ok message.messageKey next := by
  have hmem := mem_of_getElem? hmsg
  cases htracks.sound side.other message hmem with
  | silent hbytes hkey =>
    refine ⟨(joint side).state, ?_⟩
    rw [spqrRecv, hbytes, hkey]
    rfl
  | wire pqr hbytes hdec hmode hchunk hkey =>
    obtain ⟨nextAgent, hdelivers, hfirstEpoch, -, hkeys, -⟩ :=
      htracks.delivers field hlaw side hmode hchunk
    have hemits := FirstEpoch.emits hfirstEpoch side
    have hlen := FirstEpoch.keys_length_le hfirstEpoch side
    rw [Function.update_self] at hemits hlen
    have hext := secretsOf_extends braid hkeys
    obtain ⟨after, hafter, hlimitsEq, hcompl, hchains, hfollows⟩ := Follows.spqrRecv_wire
      hlaw ((htracks.follows side).with_secrets hext) hbytes hdec hdelivers hemits
      hlen ((htracks.labelled side.other).waitsFor_pos)
    rw [hafter]
    rcases hkey with ⟨hnone, hnoKey⟩ |
      ⟨epoch, index, hle, hepoch, hidx, hindexPos, hindexLe, hmessageKey⟩
    · rw [receiveKey_of_none hnone, hnoKey]
      exact ⟨after, rfl⟩
    · have hlabel : labelOf message.msgBytes = some (epoch, index) := by
        rw [labelOf, hdec]
        exact wireLabel_eq hepoch hidx hindexPos
      have hepochLe := (htracks.label_le side.other epoch index ⟨message, hmem, hlabel⟩).1
      rw [Side.other_other] at hepochLe
      obtain ⟨chains, -, hrecv⟩ := hfollows.receiving epoch (hepochLe.trans hkeys.length_le)
      have hbefore : (joint side).state.kdfChains.get? epoch = some chains :=
        (hchains epoch hepochLe).symm.trans hrecv.get
      obtain ⟨hjump, hheld⟩ := hlimits epoch index hlabel
      rw [receiveCounter, hbefore, map_some, getD_some] at hjump hheld
      have hresolve : after.resolvedLimits = (joint side).state.resolvedLimits := by
        rw [SPQRState.resolvedLimits, hlimitsEq]
        rfl
      have hbootstrap : isSpqrBootstrapComplete after = true := by
        rw [isSpqrBootstrapComplete, hfollows.mode_eq, isVersionNegotiationComplete, hcompl,
          hfollows.braidState_eq]
        rfl
      have hcount := hfollows.epoch_eq
      obtain ⟨next, hnext⟩ := deriveSPQRReceiveKey_ok hlaw (chainStart_length hlaw _ _ _)
        hrecv (hfollows.rootKey_ne hlaw) hbootstrap
        ⟨position, message, hmsg, hfst, hlabel⟩ (by have := hkeys.length_le; omega)
        (by omega) hindexLe (by rw [hresolve]; exact hjump) (by rw [hresolve]; exact hheld)
      refine ⟨next, ?_⟩
      rw [receiveKey_of_some hle hepoch hidx hindexPos, hnext, hmessageKey,
        chainStart_of_extends crypto options spqrInfoStrings hext]
      exact hepochLe.trans (htracks.follows side).keys_length_le

/-- Agreement on message keys: the first delivery of any message returns the key that `spqrSend`
returned with it, or none if there was none. -/
theorem spqr_braid_message_keys {crypto : SpqrCrypto} (hlawful : crypto.braid.Lawful)
    {options : PairOptions} {joint : SpqrJoint}
    (hreachable : (spqrSystem crypto gf16 (initializeSPQRBraid crypto) options).Reachable joint)
    (side : Side) {position : ℕ} {message : SPQRSendResult}
    (hmessage : (joint side.other).sent[position]? = some message)
    (hfirst : position ∉ (joint side).delivered)
    (hlimits : WithinLimits (joint side).state message.msgBytes) :
    ∃ next, spqrRecv crypto gf16 (some message.msgBytes) (joint side).state =
      .ok message.messageKey next := by
  obtain ⟨K, inst, ⟨I⟩⟩ := TableField.gf16_implementsField
  obtain ⟨braid, htracks⟩ := Tracks.of_reachable (I := I) hlawful hreachable
  exact htracks.receives_key hlawful side hmessage hfirst hlimits

theorem lawful_withHkdf {crypto : BraidCrypto} (hlaw : crypto.Lawful)
    {hkdf : Bytes → Bytes → Bytes → ℕ → Bytes}
    (hlen : ∀ ikm salt info length, (hkdf ikm salt info length).length = length) :
    BraidCrypto.Lawful { crypto with hkdf := hkdf } :=
  { hlaw with hkdf_length := hlen }

/-- The plain braid primitives under a hash that repeats its input; the one-shot KEM is not used in
braid mode. -/
def plainSpqrCrypto : SpqrCrypto where
  braid := { plainCrypto with
    hkdf := fun ikm _ _ length => padTo length (List.replicate length ikm).flatten }
  keygen _ := ⟨[], []⟩
  encapsulate _ _ := ⟨[], []⟩
  decapsulate _ _ := []

theorem plainSpqrCrypto_lawful : plainSpqrCrypto.braid.Lawful :=
  lawful_withHkdf plainCrypto_lawful fun _ _ _ _ => padTo_length _ _

def plainSecret : Bytes := List.replicate 32 7

/-- Both parties before any message. -/
def plainPair : SpqrJoint := fun side =>
  { state :=
      { rootKey := plainSecret
        epoch := 0
        sendEpoch := some 0
        kdfChains := OrderedMap.empty.set 0 ⟨⟨plainSecret, 0⟩, ⟨plainSecret, 0⟩⟩
        skippedKeys := ∅
        direction := directionOf side
        sckaState := ⟨0, none, none⟩
        mode := .braid
        braidState := some { (plainStart side).agent with auth := ⟨List.replicate 32 0, plainSecret⟩ }
        versionNegotiation := some .negotiating }
    sent := []
    delivered := [] }

theorem plainPair_start : (spqrSystem plainSpqrCrypto gf16 (initializeSPQRBraid plainSpqrCrypto)
    { rootKey := plainSecret }).init plainPair := by
  intro side
  refine ⟨?_, rfl, rfl⟩
  cases side <;> decide

/-- The random source of the run. -/
def sevens : RandomBytes := fun length => List.replicate length 7

/-- Alice after her first send, Bob after receiving it and answering. -/
def plainAnswered : SpqrJoint :=
  let sent := Function.update plainPair .alice ((plainPair .alice).send plainSpqrCrypto gf16 sevens)
  let received := Function.update sent .bob
    ((sent .bob).receive plainSpqrCrypto gf16 0 ⟨[1, 1, 0, 1, 0] ++ plainSecret, none⟩)
  Function.update received .bob ((received .bob).send plainSpqrCrypto gf16 sevens)

theorem plainAnswered_reachable : (spqrSystem plainSpqrCrypto gf16
    (initializeSPQRBraid plainSpqrCrypto) { rootKey := plainSecret }).Reachable plainAnswered :=
  (((TransitionSystem.Reachable.of_init plainPair_start).step
    (.send .alice sevens fun _ => length_replicate)).step
    (.receive .bob 0 _ (by decide +kernel))).step
    (.send .bob sevens fun _ => length_replicate)

theorem plainAnswered_sent : (plainAnswered Side.alice.other).sent[0]? =
    some ⟨[1, 1, 1, 0], some plainSecret⟩ := by
  decide

theorem plainAnswered_withinLimits :
    WithinLimits (plainAnswered .alice).state [1, 1, 1, 0] := by
  have hlabel : labelOf [1, 1, 1, 0] = some (0, 1) := by decide
  have hchains : (plainAnswered .alice).state.kdfChains.get? 0 =
      some ⟨⟨plainSecret, 0⟩, ⟨plainSecret, 0⟩⟩ := by decide +kernel
  have hlimits : (plainAnswered .alice).state.resolvedLimits = spqrLimitsDefaults := by
    decide +kernel
  intro epoch index hnamed
  rw [hlabel, Option.some.injEq, Prod.mk.injEq] at hnamed
  rw [← hnamed.1, ← hnamed.2, receiveCounter, hchains, hlimits]
  decide

/-- Alice derives the key of Bob's answer. -/
theorem spqr_braid_message_keys_answer : ∃ next,
    spqrRecv plainSpqrCrypto gf16 (some [1, 1, 1, 0]) (plainAnswered .alice).state =
      .ok (some plainSecret) next := by
  have hfirst : 0 ∉ (plainAnswered .alice).delivered := by decide +kernel
  have hkey := spqr_braid_message_keys plainSpqrCrypto_lawful plainAnswered_reachable .alice
    plainAnswered_sent hfirst plainAnswered_withinLimits
  exact hkey

end SignalProtocol.Spqr
import SignalProtocol.Proof.RetryLifecycle

/-! # The posts of a retry request

A post needs the stored attempt of a request that has not ended, before both of its deadlines. -/

namespace SignalProtocol.Retry.Lifecycle

open Results

variable {stored : StoredRetryRequest} (source : RetryRequestSource) (failed : RetryRequestFailure)
  (reply : PostReply) (poster : Poster)

def Open (record : StoredRetryRequest) (run : Run) : Prop :=
  Holding record run ∧ record.terminal = none

theorem Open.keptInTime (record : StoredRetryRequest) : KeptInTime (Open record) :=
  fun run elapsed pace hrun => ⟨Holding.keptInTime record run elapsed pace hrun.1, hrun.2⟩

theorem Open.valid {record : StoredRetryRequest} {run : Run} (hrun : Open record run) : Valid run :=
  hrun.1.1

theorem end_triple {record : StoredRetryRequest} (terminalClass : RetryTerminalClass) (now : ℤ) :
    Triple (Open record)
      (updateRetryRequest record.retryId record.attempt fun stored =>
        stored.ended terminalClass now) (fun _ => Valid) Valid := by
  have hupdate := updateRetryRequest_triple record
    (fun stored => stored.ended terminalClass now) (Open.keptInTime record)
    (fun _ hrun => hrun.1) fun _ hrun => allowed_ended hrun.1.sound hrun.2 terminalClass now
  exact hupdate.weaken_post fun _ _ hrun => hrun.1

theorem endRequest_triple (record : StoredRetryRequest) (terminalClass : RetryTerminalClass) :
    Triple (Open record) (endRequest record terminalClass) (fun _ => Valid) Valid := by
  unfold endRequest
  refine Triple.bind (clock_triple.weaken_post fun _ _ hrun => hrun.1) fun now => ?_
  refine Triple.bind (end_triple terminalClass now) fun _ => ?_
  exact Triple.pure _ fun _ hrun => hrun

/-! ## One post -/

def Unfulfilled (run : Run) : Prop :=
  ∀ fulfilledAt, .fulfilled fulfilledAt ∈ run.log →
    fulfilledAt + RETRY_REQUESTER_RECORD_TTL_MS < run.now

def Postable (poster : Poster) (record : StoredRetryRequest) (run : Run) : Prop :=
  Open record run ∧ (poster = .scheduler → Unfulfilled run)

theorem Open.postable {record : StoredRetryRequest} {run : Run} (hrun : Open record run) :
    Postable .receive record run :=
  ⟨hrun, by rintro ⟨⟩⟩

def Sent (record : StoredRetryRequest) (run : Run) : Prop :=
  Open record run ∧ ∃ poster now,
    .posted poster record.retryId record.attempt record.envelope now ∈ run.log

theorem Sent.keptInTime (record : StoredRetryRequest) : KeptInTime (Sent record) :=
  fun run elapsed pace hrun => ⟨Open.keptInTime record run elapsed pace hrun.1, hrun.2⟩

theorem Postable.posts {poster : Poster} {record : StoredRetryRequest} {run : Run}
    (hrun : Postable poster record run)
    (hposting : run.now < record.retryRequestPostingDeadlineAt) :
    PostsStored run.log poster record run.now := by
  obtain ⟨⟨hholding, hopen⟩, hscheduler⟩ := hrun
  refine ⟨hholding.1.stored.symm.trans hholding.2, hholding.sound.envelope hopen, hopen, hposting,
    ?_, hscheduler⟩
  calc run.now < record.retryRequestPostingDeadlineAt := hposting
    _ ≤ record.deadlineAt := hholding.sound.posting

theorem sendEnvelope_triple (record : StoredRetryRequest) :
    Triple
      (fun run => Postable poster record run ∧ run.now < record.retryRequestPostingDeadlineAt)
      (sendEnvelope poster record) (fun _ => Sent record) Valid := by
  unfold sendEnvelope
  refine Triple.bind clock_triple fun now => ?_
  have hnote : Triple
      (fun run => (Postable poster record run ∧ run.now < record.retryRequestPostingDeadlineAt) ∧
        now = run.now)
      (note (.posted poster record.retryId record.attempt record.envelope now))
      (fun _ => Sent record) Valid := by
    apply note_triple
    rintro run ⟨⟨hrun, hposting⟩, rfl⟩
    have hjustifies : Justifies run.log
        (.posted poster record.retryId record.attempt record.envelope run.now) :=
      ⟨record, hrun.posts hposting, rfl, rfl, rfl⟩
    have hvalid := hrun.1.valid.note hjustifies rfl (by rintro fulfilledAt ⟨⟩)
    exact ⟨⟨⟨hvalid, hrun.1.1.2⟩, hrun.1.2⟩, poster, run.now, List.mem_cons_self⟩
  exact Triple.bind hnote fun _ => step_triple (Sent.keptInTime record) fun _ hrun => hrun.1.valid

def Held (record : StoredRetryRequest) (run : Run) : Prop :=
  Open record run ∧ .relayHolds record.retryId record.attempt ∈ run.log

theorem Held.keptInTime (record : StoredRetryRequest) : KeptInTime (Held record) :=
  fun run elapsed pace hrun => ⟨Open.keptInTime record run elapsed pace hrun.1, hrun.2⟩

theorem Sent.held {record : StoredRetryRequest} {run : Run} (hrun : Sent record run) :
    Held record { run with log := .relayHolds record.retryId record.attempt :: run.log } := by
  obtain ⟨hopen, poster, now, hposted⟩ := hrun
  have hjustifies : Justifies run.log (.relayHolds record.retryId record.attempt) :=
    ⟨poster, record.envelope, now, hposted⟩
  have hvalid := hopen.valid.note hjustifies rfl (by rintro fulfilledAt ⟨⟩)
  exact ⟨⟨⟨hvalid, hopen.1.2⟩, hopen.2⟩, List.mem_cons_self⟩

theorem completeAttempt_triple (record : StoredRetryRequest) :
    Triple (Sent record) (completeAttempt record) (fun _ => Valid) Valid := by
  unfold completeAttempt
  refine Triple.bind (note_triple fun _ hrun => hrun.held) fun _ => ?_
  refine Triple.ite (fun _ => ?_) fun _ => Triple.pure _ fun _ hrun => hrun.1.valid
  have hupdate := updateRetryRequest_triple record
    (fun record => { record with nextAttemptAt := none, lastFailureClass := none })
    (Held.keptInTime record) (fun _ hrun => hrun.1.1)
    fun _ hrun => allowed_completed hrun.1.1.sound (.inr hrun.2)
  exact Triple.bind hupdate fun _ => Triple.pure _ fun _ hrun => hrun.1

theorem postpone_triple {record : StoredRetryRequest} (failureClass : RetryFailureClass)
    (nextAt : ℤ) :
    Triple (Holding record)
      (updateRetryRequest record.retryId record.attempt fun stored =>
        { stored with lastFailureClass := some failureClass, nextAttemptAt := some nextAt })
      (fun _ => Valid) Valid := by
  have hupdate := updateRetryRequest_triple record
    (fun stored =>
      { stored with lastFailureClass := some failureClass, nextAttemptAt := some nextAt })
    (Holding.keptInTime record) (fun _ hrun => hrun)
    fun _ hrun => allowed_postponed hrun.sound failureClass nextAt
  exact hupdate.weaken_post fun _ _ hrun => hrun.1

theorem postponeAttempt_triple (record : StoredRetryRequest) (failureClass : RetryFailureClass) :
    Triple (Holding record) (postponeAttempt record failureClass) (fun _ => Valid) Valid := by
  unfold postponeAttempt
  refine Triple.bind (clock_triple.weaken_post fun _ _ hrun => hrun.1) fun now => ?_
  refine Triple.bind (postpone_triple failureClass _) fun _ => ?_
  exact Triple.pure _ fun _ hrun => hrun

theorem postAttempt_triple (reply : PostReply) (record : StoredRetryRequest) :
    Triple (Postable poster record) (postAttempt poster reply record) (fun _ => Valid) Valid := by
  unfold postAttempt
  refine Triple.bind clock_triple fun now => ?_
  refine Triple.ite (fun _ => ?_) fun hposting => ?_
  · exact (endRequest_triple record .postingDeadline).weaken (fun _ hrun => hrun.1.1)
      fun _ _ hrun => hrun
  · have hsend : Triple (fun run => Postable poster record run ∧ now = run.now)
        (sendEnvelope poster record) (fun _ => Sent record) Valid := by
      apply (sendEnvelope_triple poster record).weaken
      · rintro run ⟨hrun, rfl⟩
        exact ⟨hrun, not_le.mp hposting⟩
      · exact fun _ _ hrun => hrun
    refine Triple.bind hsend fun _ => ?_
    have hend : ∀ terminalClass, Triple (Sent record) (endRequest record terminalClass)
        (fun _ => Valid) Valid := fun terminalClass =>
      (endRequest_triple record terminalClass).weaken (fun _ hrun => hrun.1) fun _ _ hrun => hrun
    cases reply with
    | accepted => exact completeAttempt_triple record
    | held => exact completeAttempt_triple record
    | operationExpired => exact hend .postingDeadline
    | failed failure =>
      cases failure with
      | terminal terminalClass => exact hend terminalClass
      | retry failureClass =>
        exact (postponeAttempt_triple record failureClass).weaken (fun _ hrun => hrun.1.1)
          fun _ _ hrun => hrun

variable {holds : Run → Prop}

theorem storeRetryRequest_triple (request : StoredRetryRequest)
    (htime : KeptInTime holds) (hvalid : ∀ run, holds run → Valid run)
    (hwrite : ∀ run, holds run →
      Justifies run.log (.stored request run.now) ∧ Sound run.log request) :
    Triple holds (storeRetryRequest request) (fun _ => Holding request) Valid := by
  unfold storeRetryRequest
  refine Triple.bind (stepWhen_triple _ htime hvalid) fun _ => ?_
  refine Triple.bind (setRetryRequest_triple request htime hvalid hwrite) fun _ => ?_
  exact step_triple (Holding.keptInTime request) fun _ => Holding.valid

theorem NewAttempt.sound {attempt : NewAttempt} {envelope : Envelope} (log : List Event)
    (hposting : (attempt.record envelope).retryRequestPostingDeadlineAt ≤
      (attempt.record envelope).deadlineAt) :
    Sound log (attempt.record envelope) where
  posting := hposting
  envelope := fun _ => rfl
  waiting := by rintro _ ⟨⟩

theorem createAttempt_triple (attempt : NewAttempt) (sender : RequestedSender)
    (request : RetryRequest) (htime : KeptInTime holds) (hvalid : ∀ run, holds run → Valid run)
    (hposting : ∀ run envelope, holds run → envelope.timestamp = run.now →
      (attempt.record envelope).retryRequestPostingDeadlineAt ≤
        (attempt.record envelope).deadlineAt)
    (hjustifies : ∀ run envelope, holds run →
      Justifies run.log (.stored (attempt.record envelope) run.now)) :
    Triple holds (createAttempt sender request attempt) (fun record => Open record) Valid := by
  unfold createAttempt
  refine Triple.bind (step_triple htime hvalid) fun _ => ?_
  refine Triple.bind clock_triple fun now => ?_
  rintro run ⟨hrun, rfl⟩
  dsimp only
  generalize henvelope : retryRequestEnvelope _ sender attempt.failedEnvelopeId attempt.retryId
    attempt.attempt run.now = envelope
  have hstamp : envelope.timestamp = run.now := by
    rw [← henvelope]
    rfl
  have hsound : ∀ log, Sound log (attempt.record envelope) := fun log =>
    NewAttempt.sound log (hposting run envelope hrun hstamp)
  have hstore := storeRetryRequest_triple (attempt.record envelope) htime hvalid
    fun later hlater => ⟨hjustifies later envelope hlater, hsound later.log⟩
  exact Triple.bind hstore (fun _ => Triple.pure _ fun _ hstored => ⟨hstored, rfl⟩) run hrun

def Absent (receivedAt : ℤ) (run : Run) : Prop :=
  Reads none run ∧ receivedAt ≤ run.now

theorem Absent.keptInTime (receivedAt : ℤ) : KeptInTime (Absent receivedAt) := by
  intro run elapsed pace hrun
  refine ⟨Reads.keptInTime none run elapsed pace hrun.1, ?_⟩
  have hpast := hrun.2
  simp only [Run.later]
  omega

theorem Reads.first {run : Run} {record : StoredRetryRequest} (hrun : Reads none run)
    (hfst : record.First) : Justifies run.log (.stored record run.now) := by
  refine .inl ⟨hfst, ?_⟩
  intro before hbefore
  exact hrun.2.2 rfl before (hrun.1.stored.trans hbefore)

theorem postFirstAttempt_triple :
    Triple (Reads none) (postFirstAttempt source failed reply) (fun _ => Valid) Valid := by
  unfold postFirstAttempt
  refine Triple.bind (step_triple (Reads.keptInTime none) fun _ hrun => hrun.1) fun _ => ?_
  refine Triple.bind clock_triple fun receivedAt => ?_
  have hcreate := createAttempt_triple (source.firstAttempt failed receivedAt)
    source.localDevice (source.createRequest (!failed.member && source.failedEnvelope.any
      (·.senderKey))) (Absent.keptInTime receivedAt) (fun _ hrun => hrun.1.1)
    (by
      intro run envelope hrun hstamp
      have hpast := hrun.2
      change receivedAt + DAY_MS ≤ envelope.timestamp + 14 * DAY_MS
      simp only [DAY_MS]
      omega)
    fun run envelope hrun => hrun.1.first ⟨rfl, rfl, by rintro ended ⟨⟩⟩
  refine Triple.bind (hcreate.weaken ?_ fun _ _ hrun => hrun) fun record => ?_
  · rintro run ⟨hrun, rfl⟩
    exact ⟨hrun, le_rfl⟩
  · exact (postAttempt_triple .receive reply record).weaken (fun _ => Open.postable)
      fun _ _ hrun => hrun

theorem nextAttempt_follows {log : List Event} (hopen : stored.terminal = none)
    (hanswered : stored.answered = true) (hlast : stored.answeredLastRetryAttempt = false)
    (envelope : Envelope) : Follows log stored ((nextAttempt stored).record envelope) := by
  refine ⟨rfl, rfl, rfl, .inr ⟨rfl, hanswered, ?_, hopen⟩, ?_, ?_⟩
  · simp only [StoredRetryRequest.answeredLastRetryAttempt, hanswered, Bool.true_and,
      decide_eq_false_iff_not, not_le] at hlast
    exact hlast
  · intro ended hended
    rw [hopen] at hended
    cases hended
  · rintro ended ⟨⟩

theorem postNextAttempt_triple (hanswered : stored.answered = true)
    (hlast : stored.answeredLastRetryAttempt = false) :
    Triple (Open stored) (postNextAttempt source failed stored reply) (fun _ => Valid) Valid := by
  unfold postNextAttempt
  have hcreate := createAttempt_triple (nextAttempt stored)
    source.localDevice (source.createRequest (if failed.member then stored.groupMessage
      else source.failedEnvelope.any (·.senderKey))) (Open.keptInTime stored) (fun _ => Open.valid)
    (fun run envelope hrun _ => hrun.1.sound.posting)
    fun run envelope hrun => .inr ⟨stored, hrun.1.1.stored.symm.trans hrun.1.2,
      nextAttempt_follows hrun.2 hanswered hlast envelope⟩
  refine Triple.bind hcreate fun record => ?_
  exact (postAttempt_triple .receive reply record).weaken (fun _ => Open.postable)
    fun _ _ hrun => hrun

theorem postRetryRequest_triple :
    Triple (Reads failed.stored) (postRetryRequest source failed reply) (fun _ => Valid) Valid := by
  unfold postRetryRequest
  cases hstored : failed.stored with
  | none => exact postFirstAttempt_triple source failed reply
  | some stored =>
    refine Triple.ite (fun _ => Triple.pure _ fun _ hrun => hrun.1) fun hposts => ?_
    have hopen : stored.terminal = none := by
      cases hterminal : stored.terminal with
      | none => rfl
      | some ended => simp [hterminal] at hposts
    have hreads : ∀ run, Reads (some stored) run → Open stored run :=
      fun run hrun => ⟨hrun.holding, hopen⟩
    have hclock : Triple (Reads (some stored)) clock (fun _ => Open stored) Valid :=
      clock_triple.weaken_post fun _ run hrun => hreads run hrun.1
    refine Triple.bind hclock fun now => ?_
    refine Triple.ite (fun _ => endRequest_triple stored _) fun _ => ?_
    refine Triple.ite (fun hanswered => ?_) fun _ => ?_
    · have hanswered : stored.answered = true := (Bool.and_eq_true _ _ ▸ hanswered).2
      refine Triple.ite (fun _ => endRequest_triple stored _) fun hlast => ?_
      refine Triple.ite (fun _ => Triple.pure _ fun _ => Open.valid) fun _ => ?_
      exact postNextAttempt_triple source failed reply hanswered
        (Bool.eq_false_of_not_eq_true hlast)
    · refine Triple.ite (fun _ => Triple.pure _ fun _ => Open.valid) fun _ => ?_
      exact (postAttempt_triple .receive reply stored).weaken (fun _ => Open.postable)
        fun _ _ hrun => hrun

theorem armFor_triple (record : StoredRetryRequest) :
    Triple Valid (armFor record) (fun _ => Valid) Valid := by
  unfold armFor
  exact Triple.ite (fun _ => schedule_triple _) fun _ => Triple.pure _ fun _ hrun => hrun

theorem postAndSettle_triple :
    Triple (Reads failed.stored) (postAndSettle source failed) (fun _ => Valid) Valid := by
  unfold postAndSettle
  cases source.send with
  | none => exact Triple.pure _ fun _ hrun => hrun.1
  | some reply =>
    refine Triple.bind (postRetryRequest_triple source failed reply) fun outcome => ?_
    refine Triple.ite (fun _ => ?_) fun _ => ?_
    · refine Triple.bind (emitRetryTerminal_triple source.hooks source.reset) fun _ => ?_
      exact Triple.pure _ fun _ hrun => hrun
    · refine Triple.bind getRetryRequest_reads fun read => ?_
      cases read with
      | none => exact Triple.pure _ fun _ hrun => hrun.1
      | some record =>
        refine Triple.bind ((armFor_triple record).weaken (fun _ hrun => hrun.1)
          fun _ _ hrun => hrun) fun _ => ?_
        exact Triple.pure _ fun _ hrun => hrun

theorem deferMember_triple (stored : StoredRetryRequest) (now : ℤ) :
    Triple (Holding stored) (deferMember source stored now) (fun _ => Valid) Valid := by
  unfold deferMember
  have hupdate := updateRetryRequest_triple stored
    (fun record =>
      { record with
        nextAttemptAt := some (now + source.windowMs)
        lastFailureClass := some .rateRefusal }) (Holding.keptInTime stored)
    (fun _ hrun => hrun) fun _ hrun => allowed_postponed hrun.sound _ _
  exact Triple.bind hupdate fun _ => Triple.pure _ fun _ hrun => hrun.1

theorem requestForMember_triple :
    Triple (Reads failed.stored) (requestForMember source failed) (fun _ => Valid) Valid := by
  have hpost := postAndSettle_triple source failed
  unfold requestForMember
  cases hstored : failed.stored with
  | none =>
    rw [hstored] at hpost
    exact Triple.ite (fun _ => hpost) fun _ => Triple.pure _ fun _ hrun => hrun.1
  | some stored =>
    rw [hstored] at hpost
    refine Triple.ite (fun _ => ?_) fun _ => ?_
    · refine Triple.bind ((emitRetryTerminal_triple source.hooks source.reset).weaken
        (fun _ hrun => hrun.1) fun _ _ hrun => hrun) fun _ => ?_
      exact Triple.pure _ fun _ hrun => hrun
    · refine Triple.bind (clock_triple.weaken_post fun _ _ hrun => hrun.1) fun now => ?_
      refine Triple.ite (fun _ => hpost) fun _ => ?_
      refine Triple.ite (fun _ => hpost) fun _ => ?_
      refine Triple.ite (fun _ => Triple.pure _ fun _ hrun => hrun.1) fun _ => ?_
      refine Triple.ite (fun _ => hpost) fun _ => ?_
      exact (deferMember_triple source stored now).weaken (fun _ => Reads.holding)
        fun _ _ hrun => hrun

theorem storeRefusedRequest_triple :
    Triple (Reads none) (storeRefusedRequest source failed) (fun _ => Valid) Valid := by
  unfold storeRefusedRequest
  refine Triple.bind (clock_triple.weaken_post fun _ _ hrun => hrun.1) fun now => ?_
  refine Triple.bind (step_triple (Reads.keptInTime none) fun _ hrun => hrun.1) fun _ => ?_
  have hfst : (source.refusedRecord failed now).First := by
    refine ⟨rfl, rfl, ?_⟩
    rintro ended ⟨⟩
    rfl
  have hsound : ∀ log, Sound log (source.refusedRecord failed now) := by
    intro log
    refine ⟨?_, by rintro ⟨⟩, by rintro ⟨⟩⟩
    change now + DAY_MS ≤ now + 14 * DAY_MS
    simp only [DAY_MS]
    omega
  have hstore := storeRetryRequest_triple _ (Reads.keptInTime none) (fun _ hrun => hrun.1)
    fun run hrun => ⟨hrun.first hfst, hsound run.log⟩
  refine Triple.bind hstore fun _ => ?_
  refine Triple.bind ((emitRetryTerminal_triple source.hooks source.reset).weaken
    (fun _ => Holding.valid) fun _ _ hrun => hrun) fun _ => ?_
  exact Triple.pure _ fun _ hrun => hrun

theorem requestForEnvelope_triple :
    Triple (Reads failed.stored) (requestForEnvelope source failed) (fun _ => Valid) Valid := by
  unfold requestForEnvelope
  refine Triple.ite (fun _ => ?_) fun hnew => ?_
  · refine Triple.bind ((emitRetryTerminal_triple source.hooks source.reset).weaken
      (fun _ hrun => hrun.1) fun _ _ hrun => hrun) fun _ => ?_
    exact Triple.pure _ fun _ hrun => hrun
  · refine Triple.ite (fun _ => postAndSettle_triple source failed) fun _ => ?_
    have hnone : failed.stored = none := by simpa using hnew
    rw [hnone]
    exact storeRefusedRequest_triple source failed

theorem requestFor_triple :
    Triple (Reads failed.stored) (requestFor source failed) (fun _ => Valid) Valid := by
  unfold requestFor
  exact Triple.ite (fun _ => requestForMember_triple source failed)
    fun _ => requestForEnvelope_triple source failed

theorem requestRetryFor_triple :
    Triple (Reads failed.stored) (requestRetryFor source failed) (fun _ => Valid) Valid := by
  unfold requestRetryFor
  refine Triple.bind (requestFor_triple source failed) fun outcome => ?_
  refine Triple.bind (reportDeliveryError_triple source.hooks) fun dueAt => ?_
  cases dueAt with
  | none => exact Triple.pure _ fun _ hrun => hrun
  | some dueAt =>
    refine Triple.bind (schedule_triple dueAt) fun _ => ?_
    exact Triple.pure _ fun _ hrun => hrun

theorem requestRetryInFamily_triple (fingerprint : Option Fingerprint) :
    Triple Valid (requestRetryInFamily source fingerprint) (fun _ => Valid) Valid := by
  unfold requestRetryInFamily
  refine Triple.bind getRetryRequest_reads fun stored => ?_
  refine Triple.ite (fun _ => Triple.pure _ fun _ hrun => hrun.1) fun _ => ?_
  exact requestRetryFor_triple source { fingerprint, stored, member := false }

variable (answer : Option (RetryId × ℕ))

theorem answerMember_triple :
    Triple Valid (answerMember answer) (fun _ => Valid) Valid := by
  cases answer with
  | none => exact Triple.pure _ fun _ hrun => hrun
  | some answer => exact markRetryRequestAnswered_triple answer.1 answer.2

theorem requestRetryOfMember_triple :
    Triple Valid (requestRetryOfMember source answer) (fun _ => Valid) Valid := by
  unfold requestRetryOfMember
  refine Triple.bind (answerMember_triple answer) fun _ => ?_
  refine Triple.bind getRetryRequest_reads fun stored => ?_
  exact requestRetryFor_triple source
    { fingerprint := stored.bind (·.fingerprint), stored, member := true }

/-! ## The runs of a retry request

The scheduler, the processed records, and every run of the calls of one failed envelope. -/

variable {now : ℤ}

theorem Valid.unfulfilled {run : Run} (hrun : Valid run) (hnow : now ≤ run.now)
    (hread : ¬ (run.processed.filter fun record =>
      decide (now - processedEnvelopeTtl record ≤ record.processedAt)).any (·.fulfilled) = true) :
    Unfulfilled run := by
  intro fulfilledAt hmem
  obtain ⟨_, ⟨record, hrec, hfulfilled, hproc⟩ | hexp⟩ := hrun.fulfilled fulfilledAt hmem
  · have hgone : ¬ now ≤ record.processedAt + RETRY_REQUESTER_RECORD_TTL_MS := by
      intro hretain
      apply hread
      simp [hrec, processedEnvelopeTtl, hfulfilled, hretain]
    omega
  · exact hexp

def PassReads (record : StoredRetryRequest) (now : ℤ) (run : Run) : Prop :=
  Open record run ∧ now ≤ run.now

theorem PassReads.keptInTime (record : StoredRetryRequest) (now : ℤ) :
    KeptInTime (PassReads record now) := by
  intro run elapsed pace hrun
  refine ⟨Open.keptInTime record run elapsed pace hrun.1, ?_⟩
  have hnow := hrun.2
  simp only [Run.later]
  omega

theorem settlePass_triple (hooks : Hooks) (reset : Option RetryTerminalResetSteps) :
    Triple Valid
      (do
        emitRetryTerminal hooks reset
        pure (none : Option ℤ)) (fun _ => Valid) Valid :=
  Triple.bind (emitRetryTerminal_triple hooks reset) fun _ => Triple.pure _ fun _ hrun => hrun

theorem attemptRecord_triple (pass : RetryRequestPass) :
    Triple Valid (attemptRecord pass) (fun _ => Valid) Valid := by
  unfold attemptRecord
  refine Triple.bind getRetryRequest_reads fun read => ?_
  cases read with
  | none => exact Triple.pure _ fun _ hrun => hrun.1
  | some record =>
    refine Triple.ite (fun _ => ?_) fun hposts => ?_
    · exact (settlePass_triple pass.hooks pass.reset).weaken (fun _ hrun => hrun.1)
        fun _ _ hrun => hrun
    have hopen : record.terminal = none := by simpa using hposts
    cases pass.send with
    | none => exact Triple.pure _ fun _ hrun => hrun.1
    | some reply =>
      have hclock : Triple (Reads (some record)) clock (fun now => PassReads record now)
          Valid := by
        apply clock_triple.weaken_post
        rintro now run ⟨hrun, rfl⟩
        exact ⟨⟨hrun.holding, hopen⟩, le_rfl⟩
      refine Triple.bind hclock fun now => ?_
      refine Triple.bind (getProcessedEnvelope_triple now (PassReads.keptInTime record now)
        fun _ hrun => hrun.1.valid) fun processed => ?_
      refine Triple.ite (fun _ => Triple.pure _ fun _ hrun => hrun.1.1.valid)
        fun hfulfilled => ?_
      refine Triple.ite (fun _ => ?_) fun _ => ?_
      · refine Triple.bind ((end_triple record.deadlineTerminalClass now).weaken
          (fun _ hrun => hrun.1.1) fun _ _ hrun => hrun) fun _ => ?_
        exact settlePass_triple pass.hooks pass.reset
      refine Triple.ite (fun _ => Triple.pure _ fun _ hrun => hrun.1.1.valid) fun _ => ?_
      refine Triple.ite (fun _ => Triple.pure _ fun _ hrun => hrun.1.1.valid) fun _ => ?_
      have hpost := (postAttempt_triple .scheduler reply record).weaken
        (fun run (hrun : PassReads record now run ∧ processed = run.processed.filter fun record =>
            decide (now - processedEnvelopeTtl record ≤ record.processedAt)) =>
          ⟨hrun.1.1, fun _ => hrun.1.1.valid.unfulfilled hrun.1.2 (hrun.2 ▸ hfulfilled)⟩)
        fun _ _ hrun => hrun
      refine Triple.bind hpost fun outcome => ?_
      refine Triple.ite (fun _ => settlePass_triple pass.hooks pass.reset) fun _ => ?_
      refine Triple.bind getRetryRequest_reads fun after => ?_
      cases after with
      | none => exact Triple.pure _ fun _ hrun => hrun.1
      | some after =>
        refine Triple.ite (fun _ => Triple.pure _ fun _ hrun => hrun.1) fun _ => ?_
        exact Triple.ite (fun _ => Triple.pure _ fun _ hrun => hrun.1)
          fun _ => Triple.pure _ fun _ hrun => hrun.1

theorem passRecord_triple (pass : RetryRequestPass) :
    Triple Valid (passRecord pass) (fun _ => Valid) Valid := by
  unfold passRecord
  refine Triple.bind (attemptRecord_triple pass) fun next => ?_
  refine Triple.bind (hookFailing_triple none (reportDeliveryError_triple pass.hooks)
    fun _ hrun => hrun) fun errorAt => ?_
  refine Triple.bind (hookFailing_triple ⟨⟩ (reportDeliveryRecovered_triple pass.hooks)
    fun _ hrun => hrun) fun _ => ?_
  cases next with
  | none =>
    cases errorAt with
    | none => exact Triple.pure _ fun _ hrun => hrun
    | some errorAt => exact schedule_triple errorAt
  | some next =>
    cases errorAt with
    | none => exact schedule_triple next
    | some errorAt => exact schedule_triple (min next errorAt)

theorem Valid.processed {run : Run} (hrun : Valid run) (hnow : now ≤ run.now)
    (hpast : ∀ fulfilledAt, .fulfilled fulfilledAt ∈ run.log → fulfilledAt ≤ now)
    (write : ProcessedEnvelopeWrite) :
    let ledger := { RetryStore.empty with processed := fun _ => run.processed }
    Valid { run with
      processed := some (ledger.processedRecord now write)
      log := if write.fulfilled then .fulfilled now :: run.log else run.log } := by
  intro ledger
  have hkept : ∀ fulfilledAt, .fulfilled fulfilledAt ∈ run.log → fulfilledAt ≤ run.now ∧
      ((∃ record, some (ledger.processedRecord now write) = some record ∧
        record.fulfilled = true ∧ fulfilledAt ≤ record.processedAt) ∨
      fulfilledAt + RETRY_REQUESTER_RECORD_TTL_MS < run.now) := by
    intro fulfilledAt hmem
    obtain ⟨hbefore, ⟨record, hrec, hfulfilled, hproc⟩ | hexp⟩ :=
      hrun.fulfilled fulfilledAt hmem
    · refine ⟨hbefore, ?_⟩
      by_cases hretain : now ≤ record.processedAt + RETRY_REQUESTER_RECORD_TTL_MS
      · refine .inl ⟨_, rfl, ?_, hpast fulfilledAt hmem⟩
        simp [RetryStore.processedRecord, RetryStore.getProcessedEnvelope, ledger, hrec,
          processedEnvelopeTtl, hfulfilled, hretain]
      · exact .inr (by omega)
    · exact ⟨hbefore, .inr hexp⟩
  cases hwrite : write.fulfilled with
  | false => exact ⟨hrun.justified, hrun.stored, hrun.sound, hkept⟩
  | true =>
    refine ⟨⟨trivial, hrun.justified⟩, hrun.stored, ?_, ?_⟩
    · intro record hrec
      exact (hrun.sound record hrec).cons _
    · intro fulfilledAt hmem
      rcases List.mem_cons.mp hmem with heq | hmem
      · obtain rfl : fulfilledAt = now := by simpa using heq
        refine ⟨hnow, .inl ⟨_, rfl, ?_, le_rfl⟩⟩
        simp [RetryStore.processedRecord, hwrite]
      · exact hkept fulfilledAt hmem

def WritesAt (now : ℤ) (run : Run) : Prop :=
  Valid run ∧ now ≤ run.now ∧ ∀ fulfilledAt, .fulfilled fulfilledAt ∈ run.log → fulfilledAt ≤ now

theorem WritesAt.keptInTime (now : ℤ) : KeptInTime (WritesAt now) := by
  intro run elapsed pace hrun
  obtain ⟨hvalid, hnow, hpast⟩ := hrun
  refine ⟨hvalid.later elapsed pace, ?_, hpast⟩
  simp only [Run.later]
  omega

theorem storeProcessedEnvelope_triple (write : ProcessedEnvelopeWrite) :
    Triple Valid (storeProcessedEnvelope write) (fun _ => Valid) Valid := by
  unfold storeProcessedEnvelope
  have hclock : Triple Valid clock (fun now => WritesAt now) Valid := by
    apply clock_triple.weaken_post
    rintro now run ⟨hrun, rfl⟩
    exact ⟨hrun, le_rfl, fun fulfilledAt hmem => (hrun.fulfilled fulfilledAt hmem).1⟩
  refine Triple.bind hclock fun now => ?_
  refine Triple.bind (step_triple (WritesAt.keptInTime now) fun _ hrun => hrun.1) fun _ => ?_
  rintro run ⟨hrun, hnow, hpast⟩
  refine ⟨?_, ?_⟩
  · rintro value next ⟨⟩
    exact hrun.processed hnow hpast write
  · rintro error next ⟨⟩

theorem recordGroup_triple (request : Option StoredRetryRequest) (groupId : Option String) :
    Triple (Reads request) (recordGroup request groupId) (fun _ => Valid) Valid := by
  cases request with
  | none => exact Triple.pure _ fun _ hrun => hrun.1
  | some request =>
    cases groupId with
    | none => exact Triple.pure _ fun _ hrun => hrun.1
    | some groupId =>
      refine Triple.ite (fun _ => Triple.pure _ fun _ hrun => hrun.1) fun _ => ?_
      have hmark := mark_triple request (fun record => { record with groupId := some groupId })
        ⟨rfl, rfl, rfl, rfl, rfl, rfl, rfl, rfl⟩
      refine Triple.bind (hmark.weaken (fun _ => Reads.holding) fun _ _ hrun => hrun)
        fun _ => ?_
      exact Triple.pure _ fun _ hrun => hrun.1

theorem fulfillRequest_triple (groupId : Option String) (write : ProcessedEnvelopeWrite) :
    Triple Valid (fulfillRequest groupId write) (fun _ => Valid) Valid := by
  unfold fulfillRequest
  refine Triple.bind getRetryRequest_reads fun request => ?_
  refine Triple.bind (recordGroup_triple request groupId) fun _ => ?_
  exact storeProcessedEnvelope_triple _

theorem Call.computation_triple (call : Call) :
    Triple Valid call.computation (fun _ => Valid) Valid := by
  cases call with
  | failed source fingerprint =>
    refine Triple.bind (requestRetryInFamily_triple source fingerprint) fun _ => ?_
    exact Triple.pure _ fun _ hrun => hrun
  | memberFailed source answer =>
    refine Triple.bind (requestRetryOfMember_triple source answer) fun _ => ?_
    exact Triple.pure _ fun _ hrun => hrun
  | answered retryId attempt => exact markRetryRequestAnswered_triple retryId attempt
  | fulfilled groupId write => exact fulfillRequest_triple groupId write
  | processed write => exact storeProcessedEnvelope_triple write
  | recovered hooks => exact reportDeliveryRecovered_triple hooks
  | scheduled pass => exact passRecord_triple pass

variable {run : Run}

theorem Valid.step (hrun : Valid run) (paced : PacedCall) : Valid (run.step paced) :=
  (Call.computation_triple paced.call).finalState (hrun.later paced.wait paced.pace)

theorem Valid.steps (hrun : Valid run) (calls : List PacedCall) : Valid (run.steps calls) := by
  induction calls generalizing run with
  | nil => exact hrun
  | cons paced calls ih => exact ih (hrun.step paced)

end SignalProtocol.Retry.Lifecycle

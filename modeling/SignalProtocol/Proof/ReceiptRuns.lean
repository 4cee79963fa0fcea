import SignalProtocol.Proof.ReceiveOrder

/-! # One receipt for each record

While each completion after a send is written, the queue sends the receipt of a record at most once,
and it removes the record only when its receipt went out or when none is to go out. -/

namespace SignalProtocol.Receive

open Groups Results List Option

variable {tasks : List ReceiptTask}

/-! ## Visits of a record that owes its receipt -/

structure Quiet (workId : String) (before after : QueueMemory) : Prop where
  inFlight : after.receiptsInFlight workId = before.receiptsInFlight workId
  joinWaits : after.joinWaits workId = true → before.joinWaits workId = true
  decisions : (after.decisions workId).isSome → (before.decisions workId).isSome
  startedAt : after.startedAt = before.startedAt

def InWindow (startedAt : Option ℤ) (record : ReceiveWorkRecord) (now : ℤ) : Prop :=
  ∃ intent, record.ackIntent = some intent ∧ intent.hasReceiptJoin = true ∧
    startedAt.any (· ≤ intent.at_) = true ∧ now < intent.at_ + relayReceiptReplyMs

inductive VisitEnd (config : QueueConfig) (record : ReceiveWorkRecord) (now : ℤ)
    (before : QueueMemory) : QueueMemory → Bool → ℕ → Prop where
  | quiet {after : QueueMemory} (hquiet : Quiet record.workId before after) :
      VisitEnd config record now before after false 0
  | completes {after : QueueMemory} (hquiet : Quiet record.workId before after)
      (hexcused : isExcused config before record now = true) :
      VisitEnd config record now before after true 0
  | joins (hunknown : ownedOf before record = none)
      (hwindow : InWindow before.startedAt record now) :
      VisitEnd config record now before (before.joins record.workId true) false 0
  | batches (hflight : before.receiptsInFlight record.workId = false)
      (howned : ownedOf before record ≠ some true)
      (hwindow : ¬ (ownedOf before record = none ∧ InWindow before.startedAt record now)) :
      VisitEnd config record now before
        (((before.joins record.workId false).inFlight record.workId true).batchReceipt
          record.workId) false 1

section

variable {config : QueueConfig} {record : ReceiveWorkRecord} {now : ℤ}
variable {before memory : QueueMemory}

theorem Quiet.rfl {workId : String} : Quiet workId before before :=
  ⟨Eq.refl _, fun hwaits => hwaits, fun hdecided => hdecided, Eq.refl _⟩

theorem quiet_joins (workId : String) : Quiet workId before (before.joins workId false) where
  inFlight := Eq.refl _
  joinWaits := by simp [QueueMemory.joins]
  decisions := fun hdecided => hdecided
  startedAt := Eq.refl _

theorem Quiet.forget {workId : String} (hquiet : Quiet workId before memory) :
    Quiet workId before (memory.forget workId) :=
  { hquiet with
    decisions := by simp [QueueMemory.forget] }

def EndsAs (config : QueueConfig) (record : ReceiveWorkRecord) (now : ℤ) (before : QueueMemory)
    (step : RecordStep) (state : PassState) : Prop :=
  VisitEnd config record now before state.memory step.processed
    (state.memory.batched.length - before.batched.length)

theorem endsAs_quiet {step : RecordStep} {state : PassState} (hwaits : step.processed = false)
    (hquiet : Quiet record.workId before state.memory)
    (hbatched : state.memory.batched = before.batched) :
    EndsAs config record now before step state := by
  rw [EndsAs, hwaits, hbatched, Nat.sub_self]
  exact .quiet hquiet

theorem complete_endsAs {ownUserId : String} (answers : VisitAnswers ownUserId)
    (hquiet : Quiet record.workId before memory) (hbatched : memory.batched = before.batched)
    (hexcused : isExcused config before record now = true) :
    Triple (fun state => state.memory = memory)
      (do
        fromResult answers.complete
        updateMemory (·.forget record.workId)
        pure (.done .taken))
      (EndsAs config record now before) fun state => Quiet record.workId before state.memory := by
  refine Triple.andThen (.fromResult (fun _ _ _ hmemory => hmemory) ?_) fun _ => ?_
  · rintro state rfl
    exact hquiet
  · have hforget : Triple (fun state : PassState => state.memory = memory)
        (updateMemory (·.forget record.workId))
        (fun _ => EndsAs config record now before (.done .taken))
        (fun state => Quiet record.workId before state.memory) := by
      refine .modify _ ?_
      rintro state rfl
      have hgrown : (state.memory.forget record.workId).batched.length -
          before.batched.length = 0 := by
        rw [QueueMemory.forget, hbatched, Nat.sub_self]
      rw [EndsAs, hgrown]
      exact .completes hquiet.forget hexcused
    exact hforget.bind fun _ => .pure _ fun _ hend => hend

theorem pure_endsAs {step : RecordStep} (hwaits : step.processed = false)
    (hquiet : Quiet record.workId before memory) (hbatched : memory.batched = before.batched)
    {stop : PassState → Prop} :
    Triple (fun state => state.memory = memory) (pure step : PassM RecordStep)
      (EndsAs config record now before) stop := by
  refine .pure _ ?_
  rintro state rfl
  exact endsAs_quiet hwaits hquiet hbatched

variable {ownUserId : String} (answers : VisitAnswers ownUserId)

theorem sendReceipt_endsAs (howned : ownedOf before record ≠ some true)
    (hwin : ¬ (ownedOf before record = none ∧ InWindow before.startedAt record now)) :
    Triple (fun state => state.memory = before) (receiptStep.sendReceipt config answers record now)
      (EndsAs config record now before) fun state => Quiet record.workId before state.memory := by
  have hjoins : Triple (fun state : PassState => state.memory = before)
      (updateMemory (·.joins record.workId false))
      (fun _ state => state.memory = before.joins record.workId false)
      (fun state => Quiet record.workId before state.memory) := by
    refine .modify _ ?_
    rintro state rfl
    rfl
  refine hjoins.bind fun _ => Triple.get_eq.bind fun found => ?_
  rintro state ⟨rfl, hfound⟩
  have hpure {step : RecordStep} (hwaits : step.processed = false) :
      Triple (fun state => state.memory = before.joins record.workId false)
        (pure step : PassM RecordStep) (EndsAs config record now before)
        (fun state => Quiet record.workId before state.memory) :=
    pure_endsAs hwaits (quiet_joins record.workId) rfl
  refine Triple.ite (fun _ => hpure rfl) (fun hflight => ?_) found hfound
  refine .ite (fun _ => hpure rfl) fun _ => ?_
  refine .ite (fun hsends => ?_) fun _ => ?_
  · exact complete_endsAs answers (quiet_joins record.workId) rfl
      (decide_eq_true (.inr (.inr (.inr hsends))))
  · have hbatch : Triple (fun state : PassState =>
          state.memory = before.joins record.workId false)
        (updateMemory fun memory =>
          (memory.inFlight record.workId true).batchReceipt record.workId)
        (fun _ => EndsAs config record now before (.rest none .taken))
        (fun state => Quiet record.workId before state.memory) := by
      refine .modify _ ?_
      rintro state hstate
      rw [EndsAs]
      dsimp only
      rw [hstate]
      have hgrown : (((before.joins record.workId false).inFlight record.workId true).batchReceipt
          record.workId).batched.length - before.batched.length = 1 := by
        simp [QueueMemory.joins, QueueMemory.inFlight, QueueMemory.batchReceipt]
      rw [hgrown]
      refine .batches ?_ howned hwin
      rw [hfound] at hflight
      exact Bool.eq_false_iff.mpr hflight
    exact hbatch.bind fun _ => .pure _ fun _ hend => hend

theorem receiptStep_endsAs :
    Triple (fun state => state.memory = before) (receiptStep config answers record now)
      (EndsAs config record now before) fun state => Quiet record.workId before state.memory := by
  refine Triple.get_eq.bind fun found => ?_
  rintro state ⟨rfl, hfound⟩
  refine (Triple.ite (fun howned => ?_) fun howned => ?_ :
    Triple (fun state : PassState => state.memory = before) _ _ _) found hfound
  · rw [hfound] at howned
    exact complete_endsAs answers .rfl rfl (decide_eq_true (.inr (.inr (.inl howned))))
  · rw [hfound] at howned
    cases hintent : record.ackIntent with
    | none =>
      refine sendReceipt_endsAs answers howned ?_
      rintro ⟨-, intent, hsome, -⟩
      rw [hintent] at hsome
      cases hsome
    | some intent =>
      refine .ite (fun hwin => ?_) fun hwin => ?_
      · rw [hfound] at hwin
        obtain ⟨hunknown, hjoin, hstart, hnow⟩ := hwin
        have hwaits : Triple (fun state => state.memory = before)
            (updateMemory fun memory =>
              if config.sendsReceipts then memory.joins record.workId true else memory)
            (fun _ => EndsAs config record now before
              (.rest (intent.at_ + relayReceiptReplyMs : ℤ) .taken))
            (fun state => Quiet record.workId before state.memory) := by
          refine .modify _ ?_
          rintro state hstate
          rw [EndsAs]
          dsimp only
          rw [hstate]
          split
          · rw [QueueMemory.joins, Nat.sub_self]
            exact .joins hunknown ⟨intent, hintent, hjoin, hstart, hnow⟩
          · rw [Nat.sub_self]
            exact .quiet .rfl
        exact hwaits.bind fun _ => .pure _ fun _ hend => hend
      · rw [hfound] at hwin
        refine sendReceipt_endsAs answers howned ?_
        rintro ⟨hunknown, other, hother, hjoin, hstart, hnow⟩
        rw [hintent] at hother
        cases hother
        exact hwin ⟨hunknown, hjoin, hstart, hnow⟩

theorem step_endsAs (config : QueueConfig) (params : GroupParams) (before : QueueMemory)
    (answers : VisitAnswers ownUserId) (cappedRetry : CappedRetry)
    (hdue : record.stage = .receiptDue) :
    Triple (fun state => state.memory = before) (step config params answers cappedRetry record)
      (EndsAs config record answers.now before)
      fun state => Quiet record.workId before state.memory := by
  refine Triple.get_eq.bind fun found => ?_
  rintro state ⟨rfl, hfound⟩
  refine (Triple.ite (fun _ => ?_) fun _ => ?_ :
    Triple (fun state : PassState => state.memory = before) _ _ _) found hfound
  · have hheld : Triple (fun state => state.memory = before)
        (holdBack record (found.memory.conversationOf record))
        (fun _ state => state.memory = before)
        (fun state => Quiet record.workId before state.memory) :=
      .modify _ fun _ hstate => hstate
    exact hheld.bind fun _ => pure_endsAs rfl .rfl rfl
  refine .ite (fun hexp => ?_) fun _ => ?_
  · rw [expireRecord, if_pos hdue, if_pos hdue]
    exact complete_endsAs answers .rfl rfl (decide_eq_true (.inl hexp))
  refine .ite (fun hended => ?_) fun _ => ?_
  · exact complete_endsAs answers .rfl rfl (decide_eq_true (.inr (.inl hended.2)))
  refine .ite (fun hawaiting => ?_) fun _ => ?_
  · rw [hdue] at hawaiting
    cases hawaiting
  exact .ite (fun _ => receiptStep_endsAs answers) fun hother => absurd hdue hother

end

/-! ## Runs -/

namespace ReceiptRun

def ahead (run : ReceiptRun) : ℕ := run.pending + run.tasks.length

def Awaits (run : ReceiptRun) (record : ReceiveWorkRecord) : Prop :=
  record.relayOwnsReceipt = none ∧ InWindow run.memory.startedAt record run.clock

/-- No record is removed before its receipt went out, unless none is to go out. -/
def Settled (run : ReceiptRun) : Prop :=
  1 ≤ run.sent ∨ run.refused = true ∨ run.excused = true

structure Invariant (workId : String) (run : ReceiptRun) : Prop where
  due : ∀ record, run.stored = some record → record.stage = .receiptDue ∧ record.workId = workId
  single : run.ahead ≤ 1
  marked : run.ahead = 1 → run.memory.receiptsInFlight workId = true ∨ run.released = true
  waits : run.memory.joinWaits workId = true →
    run.decided = true ∨ (run.ahead = 0 ∧ (1 ≤ run.sent → run.unwritten = true))
  past : run.ahead = 1 →
    run.decided = true ∨ ∀ record, run.stored = some record → ¬ run.Awaits record
  once : run.unwritten = false → 1 ≤ run.sent →
    run.sent = 1 ∧ run.pending = 0 ∧ (run.stored = none ∨ ReceiptTask.complete ∈ run.tasks)
  known : (run.memory.decisions workId).isSome → run.decided = true
  reason : ReceiptTask.complete ∈ run.tasks → 1 ≤ run.sent ∨ run.refused = true
  settled : run.stored = none → run.Settled

end ReceiptRun

section

variable {config : QueueConfig} {params : GroupParams} {workId : String} {ownUserId : String}
variable {run : ReceiptRun} {record : ReceiveWorkRecord}

theorem starts_invariant (hstarts : run.Starts workId) : run.Invariant workId := by
  obtain ⟨⟨record, hstored, hdue, hworkId⟩, ⟨hflight, hwaits⟩, hknown, hfresh⟩ := hstarts
  obtain ⟨htasks, hpend, hsent, -⟩ := hfresh
  have hahead : run.ahead = 0 := by rw [ReceiptRun.ahead, hpend, htasks]; rfl
  refine ⟨?_, by omega, by omega, ?_, by omega, by omega, hknown, ?_, ?_⟩
  · intro other hother
    rw [hstored] at hother
    cases hother
    exact ⟨hdue, hworkId⟩
  · intro hjoin
    rw [hwaits] at hjoin
    cases hjoin
  · rw [htasks]
    rintro ⟨⟩
  · rw [hstored]
    rintro ⟨⟩

theorem InWindow.earlier {startedAt : Option ℤ} {now later : ℤ}
    (hwin : InWindow startedAt record later) (hle : now ≤ later) :
    InWindow startedAt record now := by
  obtain ⟨intent, hintent, hjoin, hstart, hlater⟩ := hwin
  exact ⟨intent, hintent, hjoin, hstart, hle.trans_lt hlater⟩

theorem ReceiptRun.Invariant.unsent (hinv : run.Invariant workId)
    (hstored : run.stored = some record) (hahead : run.ahead = 0) (hsent : 1 ≤ run.sent) :
    run.unwritten = true := by
  by_contra hwrote
  obtain ⟨-, -, hnone | htask⟩ := hinv.once (Bool.eq_false_iff.mpr hwrote) hsent
  · rw [hstored] at hnone
    cases hnone
  · have hlen := length_pos_of_mem htask
    rw [ReceiptRun.ahead] at hahead
    omega

theorem ReceiptRun.Invariant.quiet {memory : QueueMemory} {clock : ℤ}
    (hinv : run.Invariant workId) (hquiet : Quiet workId run.memory memory)
    (hclock : run.clock ≤ clock) :
    ({ run with memory := memory, clock := clock } : ReceiptRun).Invariant workId :=
  { hinv with
    marked := by
      intro hahead
      dsimp only
      rw [hquiet.inFlight]
      exact hinv.marked hahead
    waits := fun hwaits => hinv.waits (hquiet.joinWaits hwaits)
    past := by
      intro hahead
      refine (hinv.past hahead).imp_right fun hpast record hrec hawaits => ?_
      obtain ⟨hunknown, hwin⟩ := hawaits
      dsimp only at hwin
      rw [hquiet.startedAt] at hwin
      exact hpast record hrec ⟨hunknown, hwin.earlier hclock⟩
    known := fun hsome => hinv.known (hquiet.decisions hsome) }

theorem ReceiptRun.Invariant.remove (excused : Bool) (hinv : run.Invariant workId)
    (hsettled : 1 ≤ run.sent ∨ run.refused = true ∨ excused = true) :
    ({ run with stored := none, excused := excused } : ReceiptRun).Invariant workId :=
  { hinv with
    due := by rintro record ⟨⟩
    past := fun hahead => .inr (by rintro record ⟨⟩)
    once := by
      intro hwrote hsent
      obtain ⟨hone, hpend, -⟩ := hinv.once hwrote hsent
      exact ⟨hone, hpend, .inl rfl⟩
    settled := fun _ => hsettled }

section

variable (hinv : run.Invariant workId)

include hinv

section

variable (hstored : run.stored = some record)

include hstored

theorem ReceiptRun.Invariant.joins {clock : ℤ} (hunknown : record.relayOwnsReceipt = none)
    (hwin : InWindow run.memory.startedAt record clock) (hclock : run.clock ≤ clock) :
    ({ run with memory := run.memory.joins workId true, clock := clock } :
      ReceiptRun).Invariant workId :=
  { hinv with
    waits := by
      intro _
      obtain hnone | hone := Nat.le_one_iff_eq_zero_or_eq_one.mp hinv.single
      · exact .inr ⟨hnone, hinv.unsent hstored hnone⟩
      · refine .inl ((hinv.past hone).resolve_right fun hpast => ?_)
        exact hpast record hstored ⟨hunknown, hwin.earlier hclock⟩
    past := by
      intro hahead
      refine (hinv.past hahead).imp_right fun hpast other hother hawaits => ?_
      exact hpast other hother ⟨hawaits.1, hawaits.2.earlier hclock⟩ }

theorem ReceiptRun.Invariant.batches {clock : ℤ} (hworkId : record.workId = workId)
    (hflight : run.memory.receiptsInFlight workId = false) (hreleased : run.released = false)
    (hwin : ¬ (ownedOf run.memory record = none ∧ InWindow run.memory.startedAt record clock)) :
    ({ run with
      memory := ((run.memory.joins workId false).inFlight workId true).batchReceipt workId
      clock := clock
      pending := run.pending + 1 } : ReceiptRun).Invariant workId := by
  have hnone : run.ahead = 0 := by
    refine (Nat.le_one_iff_eq_zero_or_eq_one.mp hinv.single).resolve_right fun hone => ?_
    rcases hinv.marked hone with hmarked | hmarked
    · rw [hflight] at hmarked
      cases hmarked
    · rw [hreleased] at hmarked
      cases hmarked
  have hempty : run.pending = 0 ∧ run.tasks = [] := by
    rw [ReceiptRun.ahead, Nat.add_eq_zero_iff, length_eq_zero_iff] at hnone
    exact hnone
  obtain ⟨hpend, htasks⟩ := hempty
  refine ⟨hinv.due, ?_, fun _ => .inl ?_, ?_, fun _ => ?_, ?_, hinv.known,
    hinv.reason, hinv.settled⟩
  · rw [ReceiptRun.ahead, hpend, htasks]
    exact le_rfl
  · simp [QueueMemory.batchReceipt, QueueMemory.inFlight]
  · intro hwaits
    simp [QueueMemory.batchReceipt, QueueMemory.inFlight, QueueMemory.joins] at hwaits
  · by_cases hdecided : (run.memory.decisions workId).isSome
    · exact .inl (hinv.known hdecided)
    · refine .inr fun other hother hawaits => hwin ?_
      obtain rfl : record = other := Option.some.inj (hstored.symm.trans hother)
      refine ⟨?_, hawaits.2⟩
      rw [ownedOf, hworkId, hawaits.1, none_or]
      exact not_isSome_iff_eq_none.mp hdecided
  · intro hwrote hsent
    have hunwritten := hinv.unsent hstored hnone hsent
    rw [hunwritten] at hwrote
    cases hwrote

theorem afterVisit_invariant (answers : VisitAnswers ownUserId) (written : Bool)
    (hclock : run.clock ≤ answers.now) (hreleased : run.released = false) :
    (run.afterVisit config params record answers written).Invariant workId := by
  obtain ⟨hdue, hworkId⟩ := hinv.due record hstored
  obtain ⟨hok, herr⟩ := step_endsAs config params run.memory answers .none hdue
    { memory := run.memory } rfl
  rw [ReceiptRun.afterVisit]
  cases hstep : step config params answers .none record { memory := run.memory } with
  | error error state =>
    have hquiet := herr error state hstep
    rw [hworkId] at hquiet
    dsimp only
    refine hinv.quiet ?_ hclock
    split
    · exact hquiet
    · exact ⟨hquiet.inFlight, hquiet.joinWaits, hquiet.decisions, hquiet.startedAt⟩
  | ok result state =>
    have hend := hok result state hstep
    rw [EndsAs] at hend
    dsimp only
    generalize state.memory.batched.length - run.memory.batched.length = batches at hend ⊢
    generalize state.memory = memory at hend ⊢
    generalize result.processed = processed at hend ⊢
    cases hend with
    | quiet hquiet =>
      rw [hworkId] at hquiet
      simpa [hstored] using hinv.quiet hquiet hclock
    | completes hquiet hexcused =>
      rw [hworkId] at hquiet
      cases written with
      | false => simpa [hstored] using hinv.quiet hquiet hclock
      | true =>
        have hrem := (hinv.quiet hquiet hclock).remove true (.inr (.inr rfl))
        simpa [hexcused] using hrem
    | joins hunknown hwin =>
      rw [ownedOf, or_eq_none_iff] at hunknown
      rw [hworkId]
      simpa [hstored] using hinv.joins hstored hunknown.1 hwin hclock
    | batches hflight howned hwin =>
      rw [hworkId] at hflight ⊢
      simpa [hstored] using hinv.batches hstored hworkId hflight hreleased hwin

end

theorem ReceiptRun.Invariant.of_pending (hpend : 0 < run.pending) :
    run.ahead = 1 ∧ run.pending = 1 ∧ run.tasks = [] ∧ (1 ≤ run.sent → run.unwritten = true) := by
  have hsingle := hinv.single
  have hlen : run.tasks.length = 0 := by rw [ReceiptRun.ahead] at hsingle; omega
  refine ⟨by rw [ReceiptRun.ahead]; rw [ReceiptRun.ahead] at hsingle; omega,
    by rw [ReceiptRun.ahead] at hsingle; omega, length_eq_zero_iff.mp hlen, fun hsent => ?_⟩
  by_contra hwrote
  obtain ⟨-, hnone, -⟩ := hinv.once (Bool.eq_false_iff.mpr hwrote) hsent
  omega

end

theorem ReceiptRun.Invariant.ends (memory : QueueMemory) (unwritten : Bool)
    (hinv : run.Invariant workId)
    (hwaits : memory.joinWaits workId = true → run.memory.joinWaits workId = true)
    (hknown : (memory.decisions workId).isSome → (run.memory.decisions workId).isSome)
    (hkept : run.unwritten = true → unwritten = true)
    (hgone : unwritten = false → 1 ≤ run.sent → run.stored = none) :
    ({ run with memory := memory, tasks := [], pending := 0, unwritten := unwritten } :
      ReceiptRun).Invariant workId where
  due := hinv.due
  single := Nat.zero_le 1
  marked := fun hahead => absurd hahead Nat.zero_ne_one
  waits := fun hjoin => (hinv.waits (hwaits hjoin)).imp_right fun hnone =>
    ⟨rfl, fun hsent => hkept (hnone.2 hsent)⟩
  past := fun hahead => absurd hahead Nat.zero_ne_one
  once := by
    intro hwrote hsent
    have hbefore : run.unwritten = false := by
      by_contra hunwritten
      rw [hkept (Bool.not_eq_false _ ▸ hunwritten)] at hwrote
      cases hwrote
    exact ⟨(hinv.once hbefore hsent).1, rfl, .inl (hgone hwrote hsent)⟩
  known := fun hsome => hinv.known (hknown hsome)
  reason := by rintro ⟨⟩
  settled := hinv.settled

theorem ReceiptRun.Invariant.turns (sent : ℕ) (refused : Bool) (task : ReceiptTask)
    (hinv : run.Invariant workId) (hpend : 0 < run.pending)
    (hsent : sent = run.sent ∨ (sent = run.sent + 1 ∧ task = .complete))
    (hrefuse : run.refused = true → refused = true)
    (hreason : task = .complete → 1 ≤ sent ∨ refused = true) :
    ({ run with tasks := [task], pending := 0, sent := sent, refused := refused } :
      ReceiptRun).Invariant workId := by
  obtain ⟨hahead, -, -, hunwritten⟩ := hinv.of_pending hpend
  have hle : run.sent ≤ sent := by
    rcases hsent with rfl | ⟨rfl, -⟩
    · exact le_rfl
    · exact Nat.le_succ _
  refine ⟨hinv.due, le_rfl, fun _ => hinv.marked hahead, fun hjoin => ?_,
    fun _ => hinv.past hahead, fun hwrote hone => ?_, hinv.known, fun htask => ?_,
    fun hstored => ?_⟩
  · refine .inl ((hinv.waits hjoin).resolve_right fun hnone => ?_)
    rw [hahead] at hnone
    exact absurd hnone.1 Nat.one_ne_zero
  · have hzero : run.sent = 0 := by
      by_contra hpos
      have htrue := hunwritten (Nat.one_le_iff_ne_zero.mpr hpos)
      dsimp only at hwrote
      rw [htrue] at hwrote
      cases hwrote
    dsimp only at hone ⊢
    rcases hsent with hsame | ⟨hmore, hcompl⟩
    · omega
    · exact ⟨by omega, rfl, .inr (hcompl ▸ mem_singleton_self _)⟩
  · exact hreason (mem_singleton.mp htask).symm
  · rcases hinv.settled hstored with hone | hother | hexcused
    · exact .inl (hone.trans hle)
    · exact .inr (.inl (hrefuse hother))
    · exact .inr (.inr hexcused)

section

variable (hinv : run.Invariant workId)

include hinv

theorem afterSend_invariant (hpend : 0 < run.pending)
    (outcome : SendOutcome) : (run.afterSend workId outcome).Invariant workId := by
  obtain ⟨-, hone, htasks, hunwritten⟩ := hinv.of_pending hpend
  have hzero : run.pending - 1 = 0 := by omega
  have hstops : ({ run with
      pending := run.pending - 1, memory := run.memory.inFlight workId false } :
        ReceiptRun).Invariant workId := by
    have hends := hinv.ends (run.memory.inFlight workId false) run.unwritten
      (fun hwaits => hwaits) (fun hknown => hknown) (fun hkept => hkept) fun hwrote hsent => by
        rw [hunwritten hsent] at hwrote
        cases hwrote
    rw [hzero]
    rwa [← htasks] at hends
  cases outcome with
  | sent =>
    have hturns := hinv.turns (run.sent + 1) run.refused .complete hpend
      (.inr ⟨rfl, rfl⟩) (fun hrefuse => hrefuse) fun _ => .inl (Nat.le_add_left 1 run.sent)
    rw [ReceiptRun.afterSend, hzero, htasks]
    exact hturns
  | refused =>
    have hturns := hinv.turns run.sent true .complete hpend (.inl rfl) (fun _ => rfl)
      fun _ => .inr rfl
    rw [ReceiptRun.afterSend, hzero, htasks]
    exact hturns
  | failed =>
    rw [ReceiptRun.afterSend]
    split
    · exact hstops
    · have hturns := hinv.turns run.sent run.refused .readAgain hpend (.inl rfl)
        (fun hrefuse => hrefuse) (by rintro ⟨⟩)
      rw [hzero, htasks]
      exact hturns
  | stopped => exact hstops

/-- The run while a task is done: the task no longer stands in the queue. -/
theorem of_task {task : ReceiptTask}
    (htasks : run.tasks = task :: tasks) : tasks = [] ∧ run.pending = 0 := by
  have hsingle := hinv.single
  rw [ReceiptRun.ahead, htasks, length_cons] at hsingle
  exact ⟨length_eq_zero_iff.mp (by omega), by omega⟩

theorem complete_invariant
    (htasks : run.tasks = .complete :: tasks) (answer : Except VisitError Bool) :
    (({ run with tasks := tasks } : ReceiptRun).complete workId answer).Invariant workId := by
  obtain ⟨rfl, hpend⟩ := of_task hinv htasks
  have hreason : run.Settled := by
    refine (hinv.reason (htasks ▸ mem_cons_self)).imp_right .inl
  cases hstored : run.stored with
  | none =>
    have hends := hinv.ends (run.memory.inFlight workId false) run.unwritten
      (fun hwaits => hwaits) (fun hknown => hknown) (fun hkept => hkept) fun _ _ => hstored
    rw [← hpend] at hends
    simpa [ReceiptRun.complete, hstored] using hends
  | some record =>
    have hunwritten := hinv.ends (run.memory.inFlight workId false) true
      (fun hwaits => hwaits) (fun hknown => hknown) (fun _ => rfl) (by rintro ⟨⟩)
    have hwrote := (hinv.remove run.excused hreason).ends
      ((run.memory.inFlight workId false).forget workId) run.unwritten
      (fun hwaits => hwaits) (by simp [QueueMemory.forget]) (fun hkept => hkept) fun _ _ => rfl
    dsimp only at hwrote
    rw [← hpend] at hunwritten hwrote
    cases answer with
    | error error => simpa [ReceiptRun.complete, hstored] using hunwritten
    | ok written =>
      cases written with
      | false => simpa [ReceiptRun.complete, hstored] using hunwritten
      | true => simpa [ReceiptRun.complete, hstored] using hwrote

theorem readAgain_invariant
    (htasks : run.tasks = .readAgain :: tasks) (answer : Except VisitError Bool) (later : ℤ) :
    (({ run with tasks := tasks } : ReceiptRun).readAgain workId answer later).Invariant
      workId := by
  obtain ⟨rfl, hpend⟩ := of_task hinv htasks
  have hends {memory : QueueMemory}
      (hwaits : memory.joinWaits workId = true → run.memory.joinWaits workId = true)
      (hknown : (memory.decisions workId).isSome → (run.memory.decisions workId).isSome) :
      ({ run with memory := memory, tasks := [] } : ReceiptRun).Invariant workId := by
    have hgone (hwrote : run.unwritten = false) (hsent : 1 ≤ run.sent) : run.stored = none := by
      obtain ⟨-, -, hnone | htask⟩ := hinv.once hwrote hsent
      · exact hnone
      · rw [htasks] at htask
        simp at htask
    have hends := hinv.ends memory run.unwritten hwaits hknown (fun hkept => hkept) hgone
    rwa [← hpend] at hends
  unfold ReceiptRun.readAgain
  cases answer with
  | error error =>
    dsimp only
    split
    · exact hends (fun hwaits => hwaits) fun hknown => hknown
    · rw [if_pos rfl]
      exact hends (fun hwaits => hwaits) fun hknown => hknown
  | ok read =>
    dsimp only
    split
    · exact hends (fun hwaits => hwaits) fun hknown => hknown
    · split
      · exact hends (fun hwaits => hwaits) fun hknown => hknown
      · exact hends (fun hwaits => hwaits) (by simp [QueueMemory.forget])

theorem decide_invariant (hundecided : run.decided = false)
    (owned : Bool) : (run.decide workId owned).Invariant workId := by
  have hwaited (hjoin : run.memory.joinWaits workId = true) :
      run.ahead = 0 ∧ (1 ≤ run.sent → run.unwritten = true) := by
    refine (hinv.waits hjoin).resolve_left ?_
    rw [hundecided]
    rintro ⟨⟩
  have hflight : (run.memory.joinDecided workId owned).receiptsInFlight =
      run.memory.receiptsInFlight := by
    simp only [QueueMemory.joinDecided]
    split
    · split <;> rfl
    · rfl
  unfold ReceiptRun.decide
  dsimp only
  by_cases hreleased : run.memory.stopped ∧ ¬ owned = true ∧ run.memory.joinWaits workId = true
  · obtain ⟨hahead, hunwritten⟩ := hwaited hreleased.2.2
    rw [if_pos (decide_eq_true hreleased), decide_eq_true hreleased]
    refine ⟨hinv.due, ?_, fun _ => .inr (by simp), fun _ => .inl rfl,
      fun _ => .inl rfl, fun hwrote hsent => ?_, fun _ => rfl, hinv.reason,
      hinv.settled⟩
    · rw [ReceiptRun.ahead] at hahead ⊢
      dsimp only
      omega
    · dsimp only at hwrote hsent
      rw [hunwritten hsent] at hwrote
      cases hwrote
  · rw [if_neg (by rw [decide_eq_false hreleased]; exact Bool.false_ne_true)]
    refine ⟨hinv.due, hinv.single, fun hahead => ?_, fun _ => .inl rfl,
      fun _ => .inl rfl, hinv.once, fun _ => rfl, hinv.reason, hinv.settled⟩
    dsimp only
    rw [hflight]
    exact (hinv.marked hahead).imp_right fun hmarked => by simp [hmarked]

theorem keepDecision_invariant (owned : Bool) :
    (run.keepDecision workId owned).Invariant workId :=
  { hinv with
    due := by
      intro record hrec
      obtain ⟨before, hbefore, rfl⟩ := map_eq_some_iff.mp hrec
      split <;> exact hinv.due before hbefore
    past := by
      intro hahead
      refine (hinv.past hahead).imp_right fun hpast record hrec hawaits => ?_
      obtain ⟨before, hbefore, rfl⟩ := map_eq_some_iff.mp hrec
      split at hawaits
      · exact hpast before hbefore hawaits
      · cases hawaits.1
    once := by
      intro hwrote hsent
      obtain ⟨hone, hpend, hstored⟩ := hinv.once hwrote hsent
      exact ⟨hone, hpend, hstored.imp_left fun hnone => map_eq_none_iff.mpr hnone⟩
    known := by simp [ReceiptRun.keepDecision, QueueMemory.decided]
    settled := fun hnone => hinv.settled (map_eq_none_iff.mp hnone) }

theorem start_invariant {now : ℤ}
    (hstop : run.memory.stopped = true) (hpend : run.pending = 0) (htasks : run.tasks = []) :
    ({ run with memory := run.memory.start now, clock := now, released := false } :
      ReceiptRun).Invariant workId := by
  have hahead : run.ahead = 0 := by rw [ReceiptRun.ahead, hpend, htasks]; rfl
  have hmemory : run.memory.start now = { run.memory with
      stopped := false, startedAt := some now, joinWaits := fun _ => false,
      receiptsInFlight := fun _ => false } := if_pos hstop
  refine ⟨hinv.due, hinv.single, fun hone => ?_, fun hjoin => ?_, fun hone => ?_,
    hinv.once, fun hsome => ?_, hinv.reason, hinv.settled⟩
  · exact absurd (hahead.symm.trans hone) Nat.zero_ne_one
  · rw [hmemory] at hjoin
    cases hjoin
  · exact absurd (hahead.symm.trans hone) Nat.zero_ne_one
  · rw [hmemory] at hsome
    exact hinv.known hsome

end

theorem receiptNext_invariant {next : ReceiptRun} (event : ReceiptEvent ownUserId)
    (hinv : run.Invariant workId)
    (hnext : run.next config params workId event = some next) : next.Invariant workId := by
  cases event with
  | visit answers written =>
    rw [ReceiptRun.next] at hnext
    cases hstored : run.stored with
    | none =>
      rw [hstored] at hnext
      cases hnext
    | some record =>
      rw [hstored] at hnext
      obtain ⟨⟨hclock, hreleased⟩, hvisit⟩ := ite_none_right_eq_some.mp hnext
      cases hvisit
      exact afterVisit_invariant hinv hstored answers written hclock hreleased
  | settled outcome =>
    obtain ⟨hpend, hsend⟩ := ite_none_right_eq_some.mp hnext
    cases hsend
    exact afterSend_invariant hinv hpend outcome
  | task answer later =>
    rw [ReceiptRun.next] at hnext
    cases htasks : run.tasks with
    | nil =>
      rw [htasks] at hnext
      cases hnext
    | cons task tasks =>
      rw [htasks] at hnext
      cases task with
      | complete =>
        cases hnext
        exact complete_invariant hinv htasks answer
      | readAgain =>
        cases hnext
        exact readAgain_invariant hinv htasks answer later
  | joinDecided owned =>
    rw [ReceiptRun.next] at hnext
    cases hdecided : run.decided with
    | true =>
      rw [hdecided] at hnext
      cases hnext
    | false =>
      rw [hdecided] at hnext
      cases hnext
      exact decide_invariant hinv hdecided owned
  | decisionWritten =>
    obtain ⟨owned, -, rfl⟩ := map_eq_some_iff.mp hnext
    exact keepDecision_invariant hinv owned
  | hold =>
    cases hnext
    exact hinv.quiet ⟨rfl, fun hjoin => hjoin, fun hsome => hsome, rfl⟩ le_rfl
  | release =>
    cases hnext
    exact hinv.quiet ⟨rfl, fun hjoin => hjoin, fun hsome => hsome, rfl⟩ le_rfl
  | stop =>
    cases hnext
    exact hinv.quiet ⟨rfl, fun hjoin => hjoin, by simp [QueueMemory.stop], rfl⟩ le_rfl
  | dropped =>
    obtain ⟨⟨-, hpend⟩, hdrop⟩ := ite_none_right_eq_some.mp hnext
    cases hdrop
    obtain ⟨-, hone, htasks, hunwritten⟩ := hinv.of_pending hpend
    have hgone (hwrote : run.unwritten = false) (hsent : 1 ≤ run.sent) :
        run.stored = none := by
      rw [hunwritten hsent] at hwrote
      cases hwrote
    have hends := hinv.ends run.memory run.unwritten (fun hjoin => hjoin)
      (fun hsome => hsome) (fun hkept => hkept) hgone
    rw [show run.pending - 1 = 0 by omega]
    rwa [← htasks] at hends
  | start now =>
    obtain ⟨⟨hstop, hpend, htasks, -⟩, hstart⟩ :=
      ite_none_right_eq_some.mp hnext
    cases hstart
    exact start_invariant hinv hstop hpend htasks

theorem reachable_invariant
    (hreach : (receiptSystem config params workId ownUserId).Reachable run) :
    run.Invariant workId :=
  hreach.invariant (fun _ hstarts => starts_invariant hstarts)
    fun _ _ hbefore ⟨event, hnext⟩ => receiptNext_invariant event hbefore hnext

theorem afterVisit_owned (hinv : run.Invariant workId) (hstored : run.stored = some record)
    (howned : ownedOf run.memory record = some true) (answers : VisitAnswers ownUserId)
    (written : Bool) :
    (run.afterVisit config params record answers written).pending = run.pending := by
  obtain ⟨hdue, -⟩ := hinv.due record hstored
  obtain ⟨hok, -⟩ := step_endsAs config params run.memory answers .none hdue
    { memory := run.memory } rfl
  rw [ReceiptRun.afterVisit]
  cases hstep : step config params answers .none record { memory := run.memory } with
  | error error state => rfl
  | ok result state =>
    have hend := hok result state hstep
    rw [EndsAs] at hend
    dsimp only
    generalize state.memory.batched.length - run.memory.batched.length = batches at hend ⊢
    generalize state.memory = memory at hend
    generalize result.processed = processed at hend
    cases hend with
    | quiet _ => rfl
    | completes _ _ => rfl
    | joins _ _ => rfl
    | batches _ hunowned _ => exact absurd howned hunowned

end

def dueRecord : ReceiveWorkRecord :=
  { workId := "w1", stage := .receiptDue, arrivalSeq := 1, receivedAt := 0, dueAt := 0,
    senderUserId := "bob" }

def dueRun : ReceiptRun := { stored := some dueRecord, memory := {}, clock := 0 }

theorem dueRun_starts : dueRun.Starts "w1" where
  due := ⟨dueRecord, rfl, rfl, rfl⟩
  memory := ⟨rfl, rfl⟩
  known := by rintro ⟨⟩
  fresh := ⟨rfl, rfl, rfl, rfl⟩

/-- The run after the first visit, which batches the receipt. -/
def batchedRun : ReceiptRun :=
  dueRun.afterVisit ⟨true⟩ oneGroup dueRecord ({ now := 1 } : VisitAnswers "alice") true

def stoppedCompletion : List (ReceiptEvent "alice") :=
  [.start 0, .visit { now := 1 } true, .settled .sent, .stop, .task (.error .stopped) 2, .start 2,
    .visit { now := 3 } true, .settled .sent]

end SignalProtocol.Receive

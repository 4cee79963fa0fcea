import Mathlib.Algebra.Order.Ring.Int
import SignalProtocol.Retry.Lifecycle

/-! # The record of a retry request, write by write

What a run may store, post and call, each judged by what it did before. -/

namespace SignalProtocol.Retry.Lifecycle

open Results List Option

variable {event : Event} {before : StoredRetryRequest} {log : List Event} (now : ℤ)

def lastStored : List Event → Option StoredRetryRequest
  | [] => none
  | .stored record _ :: _ => some record
  | .posted .. :: earlier => lastStored earlier
  | .relayHolds .. :: earlier => lastStored earlier
  | .terminalHook .. :: earlier => lastStored earlier
  | .fulfilled _ :: earlier => lastStored earlier
  | .armed _ :: earlier => lastStored earlier

structure StoredRetryRequest.First (record : StoredRetryRequest) : Prop where
  attempt : record.attempt = 1
  answered : record.answered = false
  emitted : ∀ terminal, record.terminal = some terminal → terminal.emitted = false

/-- The attempt is the stored one with its bytes, or the one after an answered attempt that was not
the last. -/
def StoredRetryRequest.NextAttempt (before after : StoredRetryRequest) : Prop :=
  (after.attempt = before.attempt ∧ after.envelope = before.envelope) ∨
    (after.attempt = before.attempt + 1 ∧ before.answered = true ∧
      before.attempt < MAX_RETRY_RESPONSES_PER_MESSAGE ∧ before.terminal = none)

structure Follows (earlier : List Event) (before after : StoredRetryRequest) : Prop where
  retryId : after.retryId = before.retryId
  deadlineAt : after.deadlineAt = before.deadlineAt
  postingDeadlineAt : after.retryRequestPostingDeadlineAt = before.retryRequestPostingDeadlineAt
  attempt : before.NextAttempt after
  terminal : ∀ ended, before.terminal = some ended →
    ∃ kept, after.terminal = some kept ∧ kept.terminalClass = ended.terminalClass ∧
      kept.endedAt = ended.endedAt
  emitted : ∀ ended, after.terminal = some ended → ended.emitted = true →
    before.terminal = some ended ∨
      ∃ returned, .terminalHook before.retryId ended.terminalClass returned ∈ earlier

structure PostsStored (earlier : List Event) (poster : Poster) (record : StoredRetryRequest)
    (now : ℤ) : Prop where
  stored : lastStored earlier = some record
  envelope : record.envelope.isSome
  terminal : record.terminal = none
  posting : now < record.retryRequestPostingDeadlineAt
  deadline : now < record.deadlineAt
  unfulfilled : poster = .scheduler → ∀ fulfilledAt, .fulfilled fulfilledAt ∈ earlier →
    fulfilledAt + RETRY_REQUESTER_RECORD_TTL_MS < now

def Justifies (earlier : List Event) : Event → Prop
  | .stored after now =>
    (after.First ∧ ∀ before, lastStored earlier = some before → before.retained now = false) ∨
      ∃ before, lastStored earlier = some before ∧ Follows earlier before after
  | .posted poster retryId attempt envelope now =>
    ∃ record, PostsStored earlier poster record now ∧ record.retryId = retryId ∧
      record.attempt = attempt ∧ record.envelope = envelope
  | .relayHolds retryId attempt =>
    ∃ poster envelope now, .posted poster retryId attempt envelope now ∈ earlier
  | .terminalHook retryId terminalClass _ =>
    ∃ record ended, lastStored earlier = some record ∧ record.retryId = retryId ∧
      record.terminal = some ended ∧ ended.terminalClass = terminalClass ∧
      ended.emitted = false
  | .fulfilled _ => True
  | .armed _ => True

def Justified : List Event → Prop
  | [] => True
  | event :: earlier => Justifies earlier event ∧ Justified earlier

def HeldByRelay (log : List Event) (record : StoredRetryRequest) : Prop :=
  record.answered = true ∨ .relayHolds record.retryId record.attempt ∈ log

def RetainedWrites (earlier : List Event) : List Event → Prop
  | [] => True
  | event :: later =>
    (∀ after now before, event = .stored after now →
      lastStored (later ++ earlier) = some before → before.retained now = true) ∧
      RetainedWrites earlier later

structure StoredRetryRequest.Continues (before after : StoredRetryRequest) : Prop where
  retryId : after.retryId = before.retryId
  deadlineAt : after.deadlineAt = before.deadlineAt
  postingDeadlineAt : after.retryRequestPostingDeadlineAt = before.retryRequestPostingDeadlineAt
  attempt : before.attempt ≤ after.attempt
  envelope : after.attempt = before.attempt → after.envelope = before.envelope
  terminal : ∀ ended, before.terminal = some ended →
    ∃ kept, after.terminal = some kept ∧ kept.terminalClass = ended.terminalClass ∧
      kept.endedAt = ended.endedAt

structure KeepsLifecycle (run : Run) : Prop where
  justified : Justified run.log
  stored : run.request = lastStored run.log
  continues : ∀ later earlier before, run.log = later ++ earlier → RetainedWrites earlier later →
    lastStored earlier = some before →
    ∃ after, run.request = some after ∧ before.Continues after
  waiting : ∀ record, run.request = some record → record.terminal = none →
    record.nextAttemptAt = none → HeldByRelay run.log record

theorem StoredRetryRequest.Continues.refl (record : StoredRetryRequest) : record.Continues record :=
  ⟨rfl, rfl, rfl, le_rfl, fun _ => rfl, fun ended hended => ⟨ended, hended, rfl, rfl⟩⟩

theorem StoredRetryRequest.Continues.follows {earlier : List Event}
    {middle after : StoredRetryRequest} (hcontinues : before.Continues middle)
    (hfollows : Follows earlier middle after) : before.Continues after := by
  refine ⟨hfollows.retryId.trans hcontinues.retryId, hfollows.deadlineAt.trans hcontinues.deadlineAt,
    hfollows.postingDeadlineAt.trans hcontinues.postingDeadlineAt, ?_, ?_, ?_⟩
  · have hle := hcontinues.attempt
    rcases hfollows.attempt with ⟨heq, _⟩ | ⟨heq, _⟩ <;> omega
  · intro heq
    have hle := hcontinues.attempt
    rcases hfollows.attempt with ⟨hsame, henvelope⟩ | ⟨hnext, _⟩
    · exact henvelope.trans (hcontinues.envelope (hsame.symm.trans heq))
    · omega
  · intro ended hended
    obtain ⟨kept, hkept, hclass, hat⟩ := hcontinues.terminal ended hended
    obtain ⟨last, hlast, hlastClass, hlastAt⟩ := hfollows.terminal kept hkept
    exact ⟨last, hlast, hlastClass.trans hclass, hlastAt.trans hat⟩

theorem lastStored_cons (hevent : ∀ record now, event ≠ .stored record now)
    (earlier : List Event) : lastStored (event :: earlier) = lastStored earlier := by
  cases event with
  | stored record now => exact absurd rfl (hevent record now)
  | posted => rfl
  | relayHolds => rfl
  | terminalHook => rfl
  | fulfilled => rfl
  | armed => rfl

theorem Justified.continues {later earlier : List Event}
    (hjustified : Justified (later ++ earlier)) (hretain : RetainedWrites earlier later)
    (hbefore : lastStored earlier = some before) :
    ∃ after, lastStored (later ++ earlier) = some after ∧ before.Continues after := by
  induction later with
  | nil => exact ⟨before, hbefore, .refl before⟩
  | cons event later ih =>
    obtain ⟨hevent, hrest⟩ := hjustified
    obtain ⟨hwrite, hwrites⟩ := hretain
    obtain ⟨middle, hmiddle, hcontinues⟩ := ih hrest hwrites
    by_cases hstored : ∃ record now, event = .stored record now
    · obtain ⟨record, now, rfl⟩ := hstored
      refine ⟨record, rfl, ?_⟩
      rcases hevent with ⟨_, hexp⟩ | ⟨held, hheld, hfollows⟩
      · have hkept := hwrite record now middle rfl hmiddle
        rw [hexp middle hmiddle] at hkept
        cases hkept
      · obtain rfl : middle = held := some_injective _ (hmiddle.symm.trans hheld)
        exact hcontinues.follows hfollows
    · push Not at hstored
      exact ⟨middle, (lastStored_cons hstored _).trans hmiddle, hcontinues⟩

/-- A stored record that later posts and ends may rely on. -/
structure Sound (log : List Event) (record : StoredRetryRequest) : Prop where
  posting : record.retryRequestPostingDeadlineAt ≤ record.deadlineAt
  envelope : record.terminal = none → record.envelope.isSome
  waiting : record.terminal = none → record.nextAttemptAt = none → HeldByRelay log record

def KeepsFulfilled (run : Run) : Prop :=
  ∀ fulfilledAt, .fulfilled fulfilledAt ∈ run.log → fulfilledAt ≤ run.now ∧
    ((∃ record, run.processed = some record ∧ record.fulfilled = true ∧
      fulfilledAt ≤ record.processedAt) ∨
    fulfilledAt + RETRY_REQUESTER_RECORD_TTL_MS < run.now)

structure Valid (run : Run) : Prop where
  justified : Justified run.log
  stored : run.request = lastStored run.log
  sound : ∀ record, run.request = some record → Sound run.log record
  fulfilled : KeepsFulfilled run

theorem Valid.keepsLifecycle {run : Run} (hrun : Valid run) : KeepsLifecycle run :=
  { hrun with
    continues := by
      intro later earlier before hlog hretain hbefore
      rw [hrun.stored, hlog]
      exact (hlog ▸ hrun.justified).continues hretain hbefore
    waiting record hrec := (hrun.sound record hrec).waiting }

theorem Valid.started : Valid (Run.started now) where
  justified := trivial
  stored := rfl
  sound := by rintro record ⟨⟩
  fulfilled := by
    intro fulfilledAt hmem
    cases hmem

def Run.later (run : Run) (elapsed : ℕ) (pace : List Pace) : Run :=
  { run with now := run.now + elapsed, pace }

def KeptInTime (holds : Run → Prop) : Prop :=
  ∀ run elapsed pace, holds run → holds (run.later elapsed pace)

theorem KeptInTime.and {first second : Run → Prop} (hfst : KeptInTime first)
    (hsnd : KeptInTime second) : KeptInTime fun run => first run ∧ second run :=
  fun run elapsed pace hrun => ⟨hfst run elapsed pace hrun.1, hsnd run elapsed pace hrun.2⟩

theorem Valid.later {run : Run} (hrun : Valid run) (elapsed : ℕ) (pace : List Pace) :
    Valid (run.later elapsed pace) :=
  { hrun with
    fulfilled := by
      intro fulfilledAt hmem
      obtain ⟨hpast, hkept⟩ := hrun.fulfilled fulfilledAt hmem
      simp only [Run.later]
      exact ⟨by omega, hkept.imp id fun hexp => by omega⟩ }

theorem Valid.keptInTime : KeptInTime Valid := fun _ elapsed pace hrun => hrun.later elapsed pace

def Holding (record : StoredRetryRequest) (run : Run) : Prop :=
  Valid run ∧ run.request = some record

theorem Holding.keptInTime (record : StoredRetryRequest) : KeptInTime (Holding record) :=
  fun _ elapsed pace hrun => ⟨hrun.1.later elapsed pace, hrun.2⟩

theorem Holding.valid {record : StoredRetryRequest} {run : Run} (hrun : Holding record run) :
    Valid run :=
  hrun.1

def Reads (read : Option StoredRetryRequest) (run : Run) : Prop :=
  Valid run ∧ (∀ record, read = some record → run.request = some record) ∧
    (read = none → ∀ record, run.request = some record → record.retained run.now = false)

theorem StoredRetryRequest.retained_later {record : StoredRetryRequest} {now later : ℤ}
    (hretain : record.retained now = false) (hle : now ≤ later) :
    record.retained later = false := by
  simp only [retained, decide_eq_false_iff_not, not_le] at hretain ⊢
  omega

theorem Reads.keptInTime (read : Option StoredRetryRequest) : KeptInTime (Reads read) := by
  intro run elapsed pace hrun
  refine ⟨hrun.1.later elapsed pace, hrun.2.1, ?_⟩
  intro hnone record hrec
  have hretain : record.retained run.now = false := hrun.2.2 hnone record hrec
  apply StoredRetryRequest.retained_later hretain
  simp only [Run.later]
  omega

theorem Reads.holding {record : StoredRetryRequest} {run : Run} (hrun : Reads (some record) run) :
    Holding record run :=
  ⟨hrun.1, hrun.2.1 record rfl⟩

section Steps

variable {holds stop : Run → Prop}

theorem step_triple (htime : KeptInTime holds) (hstop : ∀ run, holds run → stop run) :
    Triple holds step (fun _ => holds) stop := by
  intro run hrun
  unfold step
  cases run.pace with
  | nil =>
    refine ⟨?_, ?_⟩
    · rintro value next ⟨⟩
    · rintro error next ⟨⟩
      exact hstop run hrun
  | cons pace rest =>
    cases pace with
    | takes elapsed =>
      refine ⟨?_, ?_⟩
      · rintro value next ⟨⟩
        exact htime run elapsed rest hrun
      · rintro error next ⟨⟩
    | fails elapsed =>
      refine ⟨?_, ?_⟩
      · rintro value next ⟨⟩
      · rintro error next ⟨⟩
        exact hstop _ (htime run elapsed rest hrun)

theorem stepWhen_triple (needed : Bool) (htime : KeptInTime holds)
    (hstop : ∀ run, holds run → stop run) :
    Triple holds (stepWhen needed) (fun _ => holds) stop := by
  unfold stepWhen
  refine Triple.ite (fun _ => step_triple htime hstop) fun _ => ?_
  exact Triple.pure _ fun _ hrun => hrun

theorem clock_triple :
    Triple holds clock (fun now run => holds run ∧ now = run.now) stop := by
  intro run hrun
  refine ⟨?_, ?_⟩
  · rintro now next ⟨⟩
    exact ⟨hrun, rfl⟩
  · rintro error next ⟨⟩

theorem note_triple {after : Run → Prop}
    (hnote : ∀ run, holds run → after { run with log := event :: run.log }) :
    Triple holds (note event) (fun _ => after) stop := by
  intro run hrun
  refine ⟨?_, ?_⟩
  · rintro value next ⟨⟩
    exact hnote run hrun
  · rintro error next ⟨⟩

theorem hookFailing_triple {α : Type} {hook : LifecycleM α} (otherwise : α)
    (hhook : Triple holds hook (fun _ => holds) holds) (hstop : ∀ run, holds run → stop run) :
    Triple holds (hookFailing hook otherwise) (fun _ => holds) stop := by
  intro run hrun
  obtain ⟨hok, herr⟩ := hhook run hrun
  unfold hookFailing
  cases hres : hook run with
  | ok value next =>
    refine ⟨?_, ?_⟩
    · rintro value next ⟨⟩
      exact hok _ _ hres
    · rintro error next ⟨⟩
  | error error next =>
    cases error with
    | failed =>
      refine ⟨?_, ?_⟩
      · rintro value final ⟨⟩
        exact herr _ _ hres
      · rintro error final ⟨⟩
    | stopped =>
      refine ⟨?_, ?_⟩
      · rintro value final ⟨⟩
      · rintro error final ⟨⟩
        exact hstop _ (herr _ _ hres)

end Steps

theorem HeldByRelay.cons {record : StoredRetryRequest}
    (hheld : HeldByRelay log record) (event : Event) : HeldByRelay (event :: log) record :=
  hheld.imp id fun hmem => mem_cons_of_mem event hmem

theorem Sound.cons {record : StoredRetryRequest} (hsound : Sound log record)
    (event : Event) : Sound (event :: log) record :=
  { hsound with
    waiting hterminal hnext := (hsound.waiting hterminal hnext).cons event }

theorem Valid.note {run : Run} (hrun : Valid run) (hjustifies : Justifies run.log event)
    (hlast : lastStored (event :: run.log) = lastStored run.log)
    (hfulfilled : ∀ fulfilledAt, event ≠ .fulfilled fulfilledAt) :
    Valid { run with log := event :: run.log } where
  justified := ⟨hjustifies, hrun.justified⟩
  stored := hrun.stored.trans hlast.symm
  sound record hrec := (hrun.sound record hrec).cons event
  fulfilled := by
    intro fulfilledAt hmem
    rcases mem_cons.mp hmem with heq | hmem
    · exact absurd heq.symm (hfulfilled fulfilledAt)
    · exact hrun.fulfilled fulfilledAt hmem

theorem Valid.armed {run : Run} (hrun : Valid run) (passAt : ℤ) :
    Valid { run with log := .armed passAt :: run.log } :=
  hrun.note trivial rfl (by rintro fulfilledAt ⟨⟩)

theorem schedule_triple (passAt : ℤ) : Triple Valid (schedule passAt) (fun _ => Valid) Valid :=
  note_triple fun _ hrun => hrun.armed passAt

variable {holds : Run → Prop}

theorem getRetryRequest_triple (stop : Run → Prop) (htime : KeptInTime holds)
    (hvalid : ∀ run, holds run → Valid run) (hstop : ∀ run, holds run → stop run) :
    Triple holds getRetryRequest (fun read run => holds run ∧ Reads read run) stop := by
  unfold getRetryRequest
  refine Triple.bind clock_triple fun now => ?_
  have hpast : KeptInTime fun run => now ≤ run.now := by
    intro run elapsed pace hnow
    simp only [Run.later]
    omega
  have hstep : Triple (fun run => holds run ∧ now = run.now) step
      (fun _ run => holds run ∧ now ≤ run.now) stop := by
    apply (step_triple (htime.and hpast) fun run hrun => hstop run hrun.1).weaken
    · rintro run ⟨hrun, rfl⟩
      exact ⟨hrun, le_rfl⟩
    · intro value run hrun
      exact hrun
  refine Triple.bind hstep fun _ => ?_
  rintro run ⟨hrun, hnow⟩
  refine ⟨?_, ?_⟩
  · rintro read next ⟨⟩
    refine ⟨hrun, hvalid run hrun, ?_, ?_⟩
    · intro record hread
      exact (filter_eq_some_iff.mp hread).1
    · intro hnone record hrec
      rw [filter_eq_none_iff] at hnone
      have hretain := hnone record hrec
      simp only [Bool.not_eq_true] at hretain
      exact StoredRetryRequest.retained_later hretain hnow
  · rintro error next ⟨⟩

theorem getProcessedEnvelope_triple {stop : Run → Prop}
    (htime : KeptInTime holds) (hstop : ∀ run, holds run → stop run) :
    Triple holds (getProcessedEnvelope now)
      (fun processed run => holds run ∧ processed = run.processed.filter fun record =>
        decide (now - processedEnvelopeTtl record ≤ record.processedAt)) stop := by
  unfold getProcessedEnvelope
  refine Triple.bind (step_triple htime hstop) fun _ => ?_
  intro run hrun
  refine ⟨?_, ?_⟩
  · rintro processed next ⟨⟩
    exact ⟨hrun, rfl⟩
  · rintro error next ⟨⟩

theorem Valid.write {run : Run} {record : StoredRetryRequest} (hrun : Valid run)
    (hjustifies : Justifies run.log (.stored record run.now)) (hsound : Sound run.log record) :
    Holding record
      { run with request := some record, log := .stored record run.now :: run.log } := by
  refine ⟨?_, rfl⟩
  refine ⟨⟨hjustifies, hrun.justified⟩, rfl, ?_, ?_⟩
  · rintro stored ⟨⟩
    exact hsound.cons _
  · intro fulfilledAt hmem
    rcases mem_cons.mp hmem with heq | hmem
    · cases heq
    · exact hrun.fulfilled fulfilledAt hmem

theorem setRetryRequest_triple (record : StoredRetryRequest)
    (htime : KeptInTime holds) (hvalid : ∀ run, holds run → Valid run)
    (hwrite : ∀ run, holds run →
      Justifies run.log (.stored record run.now) ∧ Sound run.log record) :
    Triple holds (setRetryRequest record) (fun _ => Holding record) Valid := by
  unfold setRetryRequest
  refine Triple.bind (step_triple htime hvalid) fun _ => ?_
  intro run hrun
  refine ⟨?_, ?_⟩
  · rintro value next ⟨⟩
    obtain ⟨hjustifies, hsound⟩ := hwrite run hrun
    exact (hvalid run hrun).write hjustifies hsound
  · rintro error next ⟨⟩

def Allowed (log : List Event) (before after : StoredRetryRequest) : Prop :=
  Follows log before after ∧ Sound log after

theorem Allowed.justifies {run : Run} {after : StoredRetryRequest}
    (hallow : Allowed run.log before after) (hrun : Holding before run) (now : ℤ) :
    Justifies run.log (.stored after now) :=
  .inr ⟨before, hrun.1.stored.symm.trans hrun.2, hallow.1⟩

theorem updateRetryRequest_triple (stored : StoredRetryRequest)
    (changes : StoredRetryRequest → StoredRetryRequest) (htime : KeptInTime holds)
    (hholding : ∀ run, holds run → Holding stored run)
    (hallow : ∀ run, holds run → Allowed run.log stored (changes stored)) :
    Triple holds (updateRetryRequest stored.retryId stored.attempt changes)
      (fun updated run => Valid run ∧ ∀ record, updated = some record →
        record = changes stored ∧ Holding record run) Valid := by
  have hvalid : ∀ run, holds run → Valid run := fun run hrun => (hholding run hrun).1
  unfold updateRetryRequest
  refine Triple.bind (getRetryRequest_triple Valid htime hvalid hvalid) fun read => ?_
  cases read with
  | none =>
    refine Triple.pure _ fun run hrun => ⟨hvalid run hrun.1, ?_⟩
    rintro record ⟨⟩
  | some record =>
    refine Triple.ite (fun _ => ?_) fun _ => ?_
    · refine Triple.pure _ fun run hrun => ⟨hvalid run hrun.1, ?_⟩
      rintro record ⟨⟩
    · have hset : Triple (fun run => holds run ∧ Reads (some record) run)
          (setRetryRequest (changes record))
          (fun _ run => record = stored ∧ Holding (changes record) run) Valid := by
        intro run hrun
        -- The lock keeps the record that the caller read.
        have hsame : record = stored :=
          some_injective _
            ((hrun.2.2.1 record rfl).symm.trans (hholding run hrun.1).2)
        subst hsame
        have hset := setRetryRequest_triple (changes record) htime hvalid fun run hrun =>
          ⟨(hallow run hrun).justifies (hholding run hrun) run.now, (hallow run hrun).2⟩
        exact (hset.weaken_post fun _ _ hset => ⟨rfl, hset⟩) run hrun.1
      refine Triple.bind hset fun _ => Triple.pure _ ?_
      rintro run ⟨rfl, hchange⟩
      refine ⟨hchange.1, ?_⟩
      rintro updated ⟨⟩
      exact ⟨rfl, hchange⟩

/-! ## Every run keeps the lifecycle of its request

The calls of the receive paths and of the scheduler, function by function. -/

variable {log : List Event} {before : StoredRetryRequest} (reset : RetryTerminalResetSteps)
  (hooks : Hooks)
  {after : StoredRetryRequest}

theorem Follows.kept
    (hid : after.retryId = before.retryId) (hdeadline : after.deadlineAt = before.deadlineAt)
    (hposting : after.retryRequestPostingDeadlineAt = before.retryRequestPostingDeadlineAt)
    (hattempt : after.attempt = before.attempt) (henvelope : after.envelope = before.envelope)
    (hterminal : after.terminal = before.terminal) : Follows log before after where
  retryId := hid
  deadlineAt := hdeadline
  postingDeadlineAt := hposting
  attempt := .inl ⟨hattempt, henvelope⟩
  terminal := by
    intro ended hended
    exact ⟨ended, hterminal.trans hended, rfl, rfl⟩
  emitted := by
    intro ended hended _
    exact .inl (hterminal.symm.trans hended)

structure OnlyMarks (before after : StoredRetryRequest) : Prop where
  retryId : after.retryId = before.retryId
  attempt : after.attempt = before.attempt
  deadlineAt : after.deadlineAt = before.deadlineAt
  postingDeadlineAt : after.retryRequestPostingDeadlineAt = before.retryRequestPostingDeadlineAt
  envelope : after.envelope = before.envelope
  terminal : after.terminal = before.terminal
  nextAttemptAt : after.nextAttemptAt = before.nextAttemptAt
  answered : after.answered = before.answered

theorem OnlyMarks.allowed
    (hmarks : OnlyMarks before after) (hsound : Sound log before) : Allowed log before after := by
  obtain ⟨hid, hattempt, hdeadline, hposting, henvelope, hterminal, hnext, hanswered⟩ := hmarks
  refine ⟨Follows.kept hid hdeadline hposting hattempt henvelope hterminal, ?_⟩
  refine ⟨?_, ?_, ?_⟩
  · rw [hposting, hdeadline]
    exact hsound.posting
  · rw [hterminal, henvelope]
    exact hsound.envelope
  · intro hopen hwait
    unfold HeldByRelay
    rw [hanswered, hid, hattempt]
    exact hsound.waiting (hterminal.symm.trans hopen) (hnext.symm.trans hwait)

section

variable (hsound : Sound log before)

include hsound

theorem allowed_answered :
    Allowed log before
      { before with answered := true, nextAttemptAt := none, lastFailureClass := none } :=
  ⟨Follows.kept rfl rfl rfl rfl rfl rfl, hsound.posting, hsound.envelope, fun _ _ => .inl rfl⟩

theorem allowed_ended (hopen : before.terminal = none) (terminalClass : RetryTerminalClass)
    (now : ℤ) : Allowed log before (before.ended terminalClass now) := by
  refine ⟨⟨rfl, rfl, rfl, .inl ⟨rfl, rfl⟩, ?_, ?_⟩, hsound.posting, ?_, ?_⟩
  · intro ended hended
    rw [hopen] at hended
    cases hended
  · rintro ended ⟨⟩ ⟨⟩
  · rintro ⟨⟩
  · rintro ⟨⟩

theorem allowed_emitted {ended : RetryTerminal}
    {returned : Bool} (hended : before.terminal = some ended)
    (hhook : .terminalHook before.retryId ended.terminalClass returned ∈ log) :
    Allowed log before { before with terminal := some { ended with emitted := true } } := by
  refine ⟨⟨rfl, rfl, rfl, .inl ⟨rfl, rfl⟩, ?_, ?_⟩, hsound.posting, ?_, ?_⟩
  · intro other hother
    obtain rfl : ended = other := Option.some_injective _ (hended.symm.trans hother)
    exact ⟨_, rfl, rfl, rfl⟩
  · rintro other ⟨⟩ _
    exact .inr ⟨returned, hhook⟩
  · rintro ⟨⟩
  · rintro ⟨⟩

theorem allowed_postponed (failureClass : RetryFailureClass) (nextAt : ℤ) :
    Allowed log before
      { before with lastFailureClass := some failureClass, nextAttemptAt := some nextAt } :=
  ⟨Follows.kept rfl rfl rfl rfl rfl rfl, hsound.posting, hsound.envelope, by rintro _ ⟨⟩⟩

theorem allowed_completed (hheld : HeldByRelay log before) :
    Allowed log before { before with nextAttemptAt := none, lastFailureClass := none } :=
  ⟨Follows.kept rfl rfl rfl rfl rfl rfl, hsound.posting, hsound.envelope, fun _ _ => hheld⟩

end

theorem Holding.sound {record : StoredRetryRequest} {run : Run} (hrun : Holding record run) :
    Sound run.log record :=
  hrun.1.sound record hrun.2

theorem mark_triple (stored : StoredRetryRequest)
    (changes : StoredRetryRequest → StoredRetryRequest)
    (hmarks : OnlyMarks stored (changes stored)) :
    Triple (Holding stored) (updateRetryRequest stored.retryId stored.attempt changes)
      (fun updated run => Valid run ∧ ∀ record, updated = some record →
        record = changes stored ∧ Holding record run) Valid :=
  updateRetryRequest_triple stored changes (Holding.keptInTime stored) (fun _ hrun => hrun)
    fun _ hrun => hmarks.allowed hrun.sound

theorem getRetryRequest_reads : Triple Valid getRetryRequest Reads Valid := by
  have hread := getRetryRequest_triple Valid Valid.keptInTime (fun _ hrun => hrun)
    fun _ hrun => hrun
  exact hread.weaken_post fun _ _ hrun => hrun.2

theorem markRetryRequestAnswered_triple (retryId : RetryId) (attempt : ℕ) :
    Triple Valid (markRetryRequestAnswered retryId attempt) (fun _ => Valid) Valid := by
  unfold markRetryRequestAnswered
  refine Triple.bind getRetryRequest_reads fun read => ?_
  cases read with
  | none => exact Triple.pure _ fun _ hrun => hrun.1
  | some record =>
    refine Triple.ite (fun _ => Triple.pure _ fun _ hrun => hrun.1) fun _ => ?_
    have hset := setRetryRequest_triple
      { record with answered := true, nextAttemptAt := none, lastFailureClass := none }
      (Holding.keptInTime record) (fun _ => Holding.valid) fun run hrun =>
        ⟨(allowed_answered hrun.sound).justifies hrun run.now, (allowed_answered hrun.sound).2⟩
    exact hset.weaken (fun _ hrun => hrun.holding) fun _ _ hrun => hrun.1

variable {holds : Run → Prop}

theorem getProcessedEnvelope_keeps (now : ℤ) (htime : KeptInTime holds)
    (hvalid : ∀ run, holds run → Valid run) :
    Triple holds (getProcessedEnvelope now) (fun _ => holds) Valid :=
  (getProcessedEnvelope_triple now htime hvalid).weaken_post fun _ _ hrun => hrun.1

theorem clock_reads : Triple Valid clock (fun _ => Valid) Valid :=
  clock_triple.weaken_post fun _ _ hrun => hrun.1

theorem getProcessedEnvelope_holding (record : StoredRetryRequest) (now : ℤ) :
    Triple (Reads (some record)) (getProcessedEnvelope now) (fun _ => Holding record) Valid :=
  (getProcessedEnvelope_keeps now (Holding.keptInTime record) fun _ => Holding.valid).weaken
    (fun _ => Reads.holding) fun _ _ hrun => hrun

theorem hookThenMark_triple {record : StoredRetryRequest} (hook : Bool)
    {changes : StoredRetryRequest → StoredRetryRequest} {α : Type} (value : α)
    (hmarks : OnlyMarks record (changes record)) :
    Triple (Holding record)
      (do
        stepWhen hook
        let _ ← updateRetryRequest record.retryId record.attempt changes
        pure value) (fun _ => Valid) Valid := by
  refine Triple.bind (stepWhen_triple hook (Holding.keptInTime record) fun _ => Holding.valid)
    fun _ => ?_
  refine Triple.bind (mark_triple record changes hmarks) fun updated => ?_
  exact Triple.pure _ fun _ hrun => hrun.1

theorem reportDeliveryError_triple :
    Triple Valid (reportDeliveryError hooks) (fun _ => Valid) Valid := by
  unfold reportDeliveryError
  refine Triple.bind clock_reads fun now => ?_
  refine Triple.bind getRetryRequest_reads fun read => ?_
  cases read with
  | none => exact Triple.pure _ fun _ hrun => hrun.1
  | some record =>
    dsimp only
    cases deliveryErrorDue record with
    | none => exact Triple.pure _ fun _ hrun => hrun.1
    | some due =>
      refine Triple.bind (getProcessedEnvelope_holding record now) fun processed => ?_
      refine Triple.ite (fun _ => Triple.pure _ fun _ => Holding.valid) fun _ => ?_
      refine Triple.ite (fun _ => Triple.pure _ fun _ => Holding.valid) fun _ => ?_
      exact hookThenMark_triple hooks.onDeliveryError none
        ⟨rfl, rfl, rfl, rfl, rfl, rfl, rfl, rfl⟩

theorem reportDeliveryRecovered_triple :
    Triple Valid (reportDeliveryRecovered hooks) (fun _ => Valid) Valid := by
  unfold reportDeliveryRecovered
  refine Triple.bind clock_reads fun now => ?_
  refine Triple.bind getRetryRequest_reads fun read => ?_
  cases read with
  | none => exact Triple.pure _ fun _ hrun => hrun.1
  | some record =>
    refine Triple.ite (fun _ => Triple.pure _ fun _ hrun => hrun.1) fun _ => ?_
    refine Triple.bind (getProcessedEnvelope_holding record now) fun processed => ?_
    refine Triple.ite (fun _ => Triple.pure _ fun _ => Holding.valid) fun _ => ?_
    exact hookThenMark_triple hooks.onDeliveryRecovered _
      ⟨rfl, rfl, rfl, rfl, rfl, rfl, rfl, rfl⟩

def GivesStored (result : Option StoredRetryRequest) (run : Run) : Prop :=
  Valid run ∧ ∀ record, result = some record → run.request = some record

theorem GivesStored.of_update {changed : StoredRetryRequest} {result : Option StoredRetryRequest}
    {run : Run} (hrun : Valid run ∧ ∀ record, result = some record →
      record = changed ∧ Holding record run) : GivesStored result run :=
  ⟨hrun.1, fun record hrec => (hrun.2 record hrec).2.2⟩

theorem sendResetNullMessage_triple
    (htime : KeptInTime holds) (hvalid : ∀ run, holds run → Valid run) :
    Triple holds (sendResetNullMessage reset) (fun _ => holds) Valid := by
  unfold sendResetNullMessage
  refine Triple.bind (clock_triple.weaken_post fun _ _ hrun => hrun.1) fun now => ?_
  refine Triple.bind (step_triple htime hvalid) fun _ => ?_
  refine Triple.ite (fun _ => Triple.pure _ fun _ hrun => hrun) fun _ => ?_
  refine Triple.bind (step_triple htime hvalid) fun _ => ?_
  refine Triple.bind (clock_triple.weaken_post fun _ _ hrun => hrun.1) fun sentAt => ?_
  exact Triple.pure _ fun _ hrun => hrun

theorem archiveTerminalSession_triple (record : StoredRetryRequest) (device : RequestedSender) :
    Triple (Holding record) (archiveTerminalSession reset record device)
      (fun result run => Valid run ∧ ∀ archived recovery,
        result = some (archived, recovery) → Holding archived run) Valid := by
  unfold archiveTerminalSession
  cases record.recovery with
  | some recovery =>
    refine Triple.pure _ fun run hrun => ⟨hrun.1, ?_⟩
    rintro archived other ⟨⟩
    exact hrun
  | none =>
    have hstep : Triple (Holding record) step (fun _ => Holding record) Valid :=
      step_triple (Holding.keptInTime record) fun _ => Holding.valid
    refine Triple.bind hstep fun _ => Triple.bind hstep fun _ => ?_
    refine Triple.bind (mark_triple record _ ⟨rfl, rfl, rfl, rfl, rfl, rfl, rfl, rfl⟩) fun updated => ?_
    cases updated with
    | none =>
      refine Triple.pure _ fun run hrun => ⟨hrun.1, ?_⟩
      rintro archived recovery ⟨⟩
    | some archived =>
      have hkept : Triple (Holding archived) step (fun _ => Holding archived)
          (Holding archived) :=
        step_triple (Holding.keptInTime archived) fun _ hrun => hrun
      have hhook : Triple (Holding archived) (hookFailing step ⟨⟩)
          (fun _ => Holding archived) Valid :=
        hookFailing_triple ⟨⟩ hkept fun _ => Holding.valid
      refine Triple.bind (hhook.weaken (fun run hrun => (hrun.2 archived rfl).2)
        fun _ _ hrun => hrun) fun _ => ?_
      refine Triple.pure _ fun run hrun => ⟨hrun.1, ?_⟩
      rintro other recovery ⟨⟩
      exact hrun

theorem resetStoredSession_triple (record : StoredRetryRequest) (device : RequestedSender) :
    Triple (Holding record) (resetStoredSession reset record device) GivesStored Valid := by
  unfold resetStoredSession
  refine Triple.bind (archiveTerminalSession_triple reset record device) fun result => ?_
  cases result with
  | none =>
    refine Triple.pure _ fun run hrun => ⟨hrun.1, ?_⟩
    rintro archived ⟨⟩
  | some archive =>
    obtain ⟨archived, recovery⟩ := archive
    refine Triple.ite (fun _ => ?_) fun _ => ?_
    · refine Triple.pure _ fun run hrun => ⟨hrun.1, ?_⟩
      rintro other ⟨⟩
      exact (hrun.2 archived recovery rfl).2
    · have hnull := sendResetNullMessage_triple reset (Holding.keptInTime archived)
        fun _ => Holding.valid
      refine Triple.bind (hnull.weaken (fun run hrun => hrun.2 archived recovery rfl)
        fun _ _ hrun => hrun) fun nullMessage => ?_
      have hmark := mark_triple archived
        (fun record =>
          { record with recovery := some { recovery with nullMessage := some nullMessage } })
        ⟨rfl, rfl, rfl, rfl, rfl, rfl, rfl, rfl⟩
      exact hmark.weaken_post fun _ _ hrun => GivesStored.of_update hrun

variable (reset : Option RetryTerminalResetSteps)

theorem resetRetryTerminalSession_triple :
    Triple Valid (resetRetryTerminalSession reset) GivesStored Valid := by
  unfold resetRetryTerminalSession
  refine Triple.bind getRetryRequest_reads fun read => ?_
  have hsame : ∀ run, Reads read run → GivesStored read run :=
    fun run hrun => ⟨hrun.1, hrun.2.1⟩
  cases read with
  | none => exact Triple.pure _ hsame
  | some record =>
    cases reset with
    | none => exact Triple.pure _ hsame
    | some reset =>
      dsimp only
      cases record.envelope with
      | none => exact Triple.pure _ hsame
      | some envelope =>
        refine Triple.ite (fun _ => ?_) fun _ => Triple.pure _ hsame
        exact (resetStoredSession_triple reset record envelope.target).weaken
          (fun _ => Reads.holding) fun _ _ hrun => hrun

theorem GivesStored.holding {record : StoredRetryRequest} {run : Run}
    (hrun : GivesStored (some record) run) : Holding record run :=
  ⟨hrun.1, hrun.2 record rfl⟩

def HookRan (record : StoredRetryRequest) (ended : RetryTerminal) (returned : Bool) (run : Run) :
    Prop :=
  Holding record run ∧ .terminalHook record.retryId ended.terminalClass returned ∈ run.log

theorem HookRan.keptInTime (record : StoredRetryRequest) (ended : RetryTerminal)
    (returned : Bool) : KeptInTime (HookRan record ended returned) :=
  fun run elapsed pace hrun => ⟨Holding.keptInTime record run elapsed pace hrun.1, hrun.2⟩

theorem Holding.hookRan {record : StoredRetryRequest} {ended : RetryTerminal} {run : Run}
    (hrun : Holding record run) (hended : record.terminal = some ended)
    (hemitted : ended.emitted = false) (returned : Bool) :
    HookRan record ended returned
      { run with
        log := .terminalHook record.retryId ended.terminalClass returned :: run.log } := by
  have hjustifies :
      Justifies run.log (.terminalHook record.retryId ended.terminalClass returned) :=
    ⟨record, ended, hrun.1.stored.symm.trans hrun.2, rfl, hended, rfl, hemitted⟩
  refine ⟨⟨hrun.1.note hjustifies rfl ?_, hrun.2⟩, List.mem_cons_self⟩
  rintro fulfilledAt ⟨⟩

theorem emitRetryTerminal_triple :
    Triple Valid (emitRetryTerminal hooks reset) (fun _ => Valid) Valid := by
  unfold emitRetryTerminal
  refine Triple.bind (resetRetryTerminalSession_triple reset) fun result => ?_
  cases result with
  | none => exact Triple.pure _ fun _ hrun => hrun.1
  | some record =>
    dsimp only
    cases hended : record.terminal with
    | none => exact Triple.pure _ fun _ hrun => hrun.1
    | some ended =>
      refine Triple.ite (fun _ => Triple.pure _ fun _ hrun => hrun.1) fun hemitted => ?_
      have hstep := stepWhen_triple hooks.onRetryTerminal (Holding.keptInTime record)
        fun _ => Holding.valid
      refine Triple.bind (hstep.weaken (fun _ => GivesStored.holding) fun _ _ hrun => hrun)
        fun _ => ?_
      refine Triple.bind (note_triple fun _ hrun =>
        hrun.hookRan hended (Bool.eq_false_of_not_eq_true hemitted) hooks.onRetryTerminal)
        fun _ => ?_
      have hupdate := updateRetryRequest_triple record
        (fun record =>
          { record with terminal := some { ended with emitted := true } })
        (HookRan.keptInTime record ended hooks.onRetryTerminal) (fun _ hrun => hrun.1)
        fun _ hrun => allowed_emitted hrun.1.sound hended hrun.2
      refine Triple.bind hupdate fun _ => ?_
      exact Triple.pure _ fun _ hrun => hrun.1

end SignalProtocol.Retry.Lifecycle

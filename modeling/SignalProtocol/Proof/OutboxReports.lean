import SignalProtocol.Outbox.Intent

/-! # Reports of the end of a send

Over every sequence of writes on one intent, the end stays as it is. -/

namespace SignalProtocol.Outbox

open Results Option

variable {syncPending : Bool} {result : SendResult} {stored : StoredOutgoingMessageIntent}

structure SendCall where
  driven : Bool
  internal : Bool

def SendCall.report (call : SendCall) : OutgoingIntentEndReport where
  driven := call.driven
  internal := call.internal

inductive EndOperation where
  | complete (result : SendResult) (syncPending : Bool)
  | finish (sendEnd : SendEnd)
  | unresolve (unresolved : StoredDeviceSetUnresolved) (sendEnd : Option SendEnd)

def EndOperation.write (existing : StoredOutgoingMessageIntent)
    (report : Option OutgoingIntentEndReport) : EndOperation → Except String Write
  | complete result syncPending =>
    completeOutgoingMessageIntent (some existing) report result syncPending
  | finish sendEnd => endOutgoingMessageIntent (some existing) report sendEnd
  | unresolve unresolved sendEnd =>
    markOutgoingDeviceSetUnresolved (some existing) report unresolved sendEnd

inductive SendOperation where
  | write (call : Option SendCall) (operation : EndOperation)
  | markReported (now : ℤ)

/-- The record, with how often the report mark was set, how many ends calls of the application
recorded, and how many reports the driver made. -/
structure OutboxRun where
  intent : StoredOutgoingMessageIntent
  marks : ℕ := 0
  toldInMemory : ℕ := 0
  toldByDriver : ℕ := 0

def tellsInMemory (report : Option OutgoingIntentEndReport) : Bool :=
  report.any fun report => ¬ report.driven ∧ ¬ report.internal ∧
    report.ended.any fun ended => ¬ ended.internal

def OutboxRun.afterWrite (run : OutboxRun) : Except String Write → OutboxRun
  | .error _ => run
  | .ok write =>
    { run with
      intent := write.stored
      marks := run.marks +
        (if ¬ run.intent.outcomeReportPending ∧ write.stored.outcomeReportPending then 1 else 0)
      toldInMemory := run.toldInMemory + (if tellsInMemory write.report then 1 else 0) }

def OutboxRun.step (run : OutboxRun) : SendOperation → OutboxRun
  | .write call operation =>
    run.afterWrite (operation.write run.intent (call.map SendCall.report))
  | .markReported now =>
    match markOutgoingIntentReported (some run.intent) now with
    | some intent => { run with intent, toldByDriver := run.toldByDriver + 1 }
    | none => run

def OutboxRun.after (run : OutboxRun) (operations : List SendOperation) : OutboxRun :=
  operations.foldl OutboxRun.step run

/-- An intent without an end. -/
def IsOpen (intent : StoredOutgoingMessageIntent) : Prop :=
  intent.result = none ∧ intent.outcome = none

instance (intent : StoredOutgoingMessageIntent) : Decidable (IsOpen intent) :=
  inferInstanceAs (Decidable (_ ∧ _))

/-! ## One write -/

section Write

variable {existing : StoredOutgoingMessageIntent} {report : Option OutgoingIntentEndReport}
  {write : Write}

structure KeepsEnd (existing stored : StoredOutgoingMessageIntent) : Prop where
  internal : stored.internal = existing.internal
  outcome : ∀ outcome, existing.outcome = some outcome → stored.outcome = some outcome
  result : ∀ result, existing.result = some result → stored.result = some result

structure NoEnd (existing : StoredOutgoingMessageIntent) (report : Option OutgoingIntentEndReport)
    (write : Write) : Prop where
  reports : write.report = report
  pending : write.stored.outcomeReportPending = existing.outcomeReportPending
  isOpen : IsOpen write.stored ↔ IsOpen existing

structure NewEnd (existing : StoredOutgoingMessageIntent) (report : Option OutgoingIntentEndReport)
    (write : Write) : Prop where
  reports : write.report = report.map ({ · with ended := some write.stored })
  pending : write.stored.outcomeReportPending =
    (existing.outcomeReportPending ||
      (report.any OutgoingIntentEndReport.driven && !existing.internal))
  isOpen : ¬ IsOpen write.stored
  result : existing.result = none

@[simp] theorem stampOutgoingDeadline_outcome :
    (stampOutgoingDeadline existing).outcome = existing.outcome := by
  unfold stampOutgoingDeadline
  split <;> rfl

@[simp] theorem stampOutgoingDeadline_result :
    (stampOutgoingDeadline existing).result = existing.result := by
  unfold stampOutgoingDeadline
  split <;> rfl

@[simp] theorem stampOutgoingDeadline_internal :
    (stampOutgoingDeadline existing).internal = existing.internal := by
  unfold stampOutgoingDeadline
  split <;> rfl

@[simp] theorem stampOutgoingDeadline_outcomeReportPending :
    (stampOutgoingDeadline existing).outcomeReportPending = existing.outcomeReportPending := by
  unfold stampOutgoingDeadline
  split <;> rfl

@[simp] theorem markReportPending_outcome :
    (markReportPending report existing).outcome = existing.outcome := by
  unfold markReportPending
  split <;> rfl

@[simp] theorem markReportPending_result :
    (markReportPending report existing).result = existing.result := by
  unfold markReportPending
  split <;> rfl

@[simp] theorem markReportPending_internal :
    (markReportPending report existing).internal = existing.internal := by
  unfold markReportPending
  split <;> rfl

@[simp] theorem markReportPending_none : markReportPending none existing = existing := by
  simp [markReportPending]

theorem markReportPending_outcomeReportPending :
    (markReportPending report existing).outcomeReportPending =
      (existing.outcomeReportPending ||
        (report.any OutgoingIntentEndReport.driven && !existing.internal)) := by
  unfold markReportPending
  split
  · next hmarks => simp [hmarks.1, hmarks.2]
  · next hmarks =>
      have hnone : (report.any OutgoingIntentEndReport.driven && !existing.internal) = false := by
        simpa using hmarks
      rw [hnone, Bool.or_false]

theorem writeEnd_report_self (stored : StoredOutgoingMessageIntent) :
    (writeEnd stored report report).report = report.map ({ · with ended := some stored }) := by
  cases report <;> rfl

section

variable (hok : completeOutgoingMessageIntent (some existing) report result syncPending = .ok write)

include hok

theorem complete_eq_ok :
    (∀ stored, existing.result = some stored → stored = result) ∧
      write.stored.internal = existing.internal ∧ write.stored.outcome = existing.outcome ∧
      write.stored.result = some result ∧
      write.stored.outcomeReportPending =
        (markReportPending (if existing.result.isSome then none else report)
          existing).outcomeReportPending ∧
      write.report =
        (writeEnd write.stored report (if existing.result.isSome then none else report)).report := by
  unfold completeOutgoingMessageIntent at hok
  simp only at hok
  split at hok
  · cases hok
  · next hsame =>
      have hres : ∀ stored, existing.result = some stored → stored = result := by
        intro stored hstored
        simpa [hstored] using hsame
      refine ⟨hres, ?_⟩
      cases syncPending <;> cases hok <;> simp [writeEnd]

theorem complete_spec :
    KeepsEnd existing write.stored ∧ (NoEnd existing report write ∨ NewEnd existing report write) := by
  obtain ⟨hsame, hinternal, hout, hres, hpend, hreport⟩ := complete_eq_ok hok
  have hended : ¬ IsOpen write.stored := by simp [IsOpen, hres]
  refine ⟨⟨hinternal, fun outcome hset => hout.trans hset, fun stored hstored => ?_⟩, ?_⟩
  · rw [hsame stored hstored]
    exact hres
  · cases hstored : existing.result with
    | none =>
      simp only [hstored, isSome_none, Bool.false_eq_true, if_false] at hpend hreport
      rw [writeEnd_report_self] at hreport
      exact .inr ⟨hreport, hpend.trans markReportPending_outcomeReportPending, hended, hstored⟩
    | some stored =>
      simp only [hstored, isSome_some, if_true, markReportPending_none] at hpend hreport
      exact .inl ⟨hreport, hpend, iff_of_false hended (by simp [IsOpen, hstored])⟩

end

theorem finish_spec {sendEnd : SendEnd}
    (hok : endOutgoingMessageIntent (some existing) report sendEnd = .ok write) :
    KeepsEnd existing write.stored ∧
      (NoEnd existing report write ∨ (NewEnd existing report write ∧ existing.outcome = none)) := by
  unfold endOutgoingMessageIntent at hok
  simp only at hok
  split at hok
  · cases hok
    exact ⟨⟨rfl, fun _ => id, fun _ => id⟩, .inl ⟨rfl, rfl, Iff.rfl⟩⟩
  · next hopen =>
      have hres : existing.result = none := by simpa using hopen
      split at hok
      · cases hok
      · next hsame =>
          cases hok
          refine ⟨⟨by simp [writeEnd], fun outcome hset => ?_, fun stored hstored => ?_⟩, ?_⟩
          · have hequal : outcome = sendEnd.outcome := by simpa [hset] using hsame
            simp [writeEnd, hequal]
          · rw [hres] at hstored
            cases hstored
          · cases hset : existing.outcome with
            | none =>
              refine .inr ⟨⟨writeEnd_report_self _, ?_, ?_, hres⟩, rfl⟩
              · simp [writeEnd, markReportPending_outcomeReportPending]
              · simp [writeEnd, IsOpen]
            | some outcome =>
              refine .inl ⟨rfl, ?_, ?_⟩
              · simp [writeEnd]
              · simp [writeEnd, IsOpen, hset]

theorem unresolve_spec {unresolved : StoredDeviceSetUnresolved} {sendEnd : Option SendEnd}
    (hok : markOutgoingDeviceSetUnresolved (some existing) report unresolved sendEnd = .ok write) :
    KeepsEnd existing write.stored ∧
      (NoEnd existing report write ∨ (NewEnd existing report write ∧ existing.outcome = none)) := by
  have hkept : ∀ write, write = Write.mk (stampOutgoingDeadline
        { existing with deviceSetUnresolved := some unresolved }) report →
      KeepsEnd existing write.stored ∧
        (NoEnd existing report write ∨
          (NewEnd existing report write ∧ existing.outcome = none)) := by
    rintro _ rfl
    refine ⟨⟨by simp, fun outcome hset => by simpa using hset,
      fun result hset => by simpa using hset⟩, .inl ⟨rfl, by simp, by simp [IsOpen]⟩⟩
  unfold markOutgoingDeviceSetUnresolved at hok
  simp only at hok
  split at hok
  · cases hok
  · cases sendEnd with
    | none =>
      cases hok
      exact hkept _ rfl
    | some sendEnd =>
      simp only at hok
      split at hok
      · next hends =>
          obtain ⟨-, hres, hout⟩ := hends
          simp only [isNone_iff_eq_none] at hres hout
          cases hok
          refine ⟨⟨by simp [writeEnd], fun outcome hset => ?_, fun stored hstored => ?_⟩,
            .inr ⟨⟨writeEnd_report_self _, ?_, ?_, hres⟩, hout⟩⟩
          · rw [hout] at hset
            cases hset
          · rw [hres] at hstored
            cases hstored
          · simp [writeEnd, markReportPending_outcomeReportPending]
          · simp [writeEnd, IsOpen]
      · cases hok
        exact hkept _ rfl

theorem write_spec {operation : EndOperation} (hok : operation.write existing report = .ok write) :
    KeepsEnd existing write.stored ∧
      (NoEnd existing report write ∨ (NewEnd existing report write ∧
          (existing.outcome = none ∨ ∃ result syncPending,
            operation = .complete result syncPending))) := by
  cases operation with
  | complete result syncPending =>
    obtain ⟨hkeeps, hnone | hnew⟩ := complete_spec hok
    · exact ⟨hkeeps, .inl hnone⟩
    · exact ⟨hkeeps, .inr ⟨hnew, .inr ⟨result, syncPending, rfl⟩⟩⟩
  | finish sendEnd =>
    obtain ⟨hkeeps, hnone | ⟨hnew, hout⟩⟩ := finish_spec hok
    · exact ⟨hkeeps, .inl hnone⟩
    · exact ⟨hkeeps, .inr ⟨hnew, .inl hout⟩⟩
  | unresolve unresolved sendEnd =>
    obtain ⟨hkeeps, hnone | ⟨hnew, hout⟩⟩ := unresolve_spec hok
    · exact ⟨hkeeps, .inl hnone⟩
    · exact ⟨hkeeps, .inr ⟨hnew, .inl hout⟩⟩

theorem markOutgoingIntentReported_eq_some {now : ℤ}
    (hstored : markOutgoingIntentReported (some existing) now = some stored) :
    existing.outcomeReportPending = true ∧
      stored = { existing with outcomeReportPending := false, outcomeReportedAt := some now } := by
  unfold markOutgoingIntentReported at hstored
  simp only [bind_eq_bind, bind_some] at hstored
  split at hstored
  · next hpend =>
      cases hstored
      exact ⟨hpend, rfl⟩
  · cases hstored

end Write

/-! ## Runs of writes -/

def CompletesOpen (run : OutboxRun) : SendOperation → Prop
  | .write (some _) (.complete _ _) =>
    run.intent.internal = false → run.intent.result = none → run.intent.outcome = none
  | _ => True

instance (run : OutboxRun) : DecidablePred (CompletesOpen run) := fun operation =>
  match operation with
  | .write (some _) (.complete _ _) => inferInstanceAs (Decidable (_ → _ → _))
  | .write none _ => .isTrue trivial
  | .write (some _) (.finish _) => .isTrue trivial
  | .write (some _) (.unresolve _ _) => .isTrue trivial
  | .markReported _ => .isTrue trivial

/-- Every step of a run meets the condition. -/
def EveryCompletesOpen (run : OutboxRun) : List SendOperation → Prop
  | [] => True
  | operation :: operations =>
    CompletesOpen run operation ∧ EveryCompletesOpen (run.step operation) operations

/-- A new intent, whose end nobody has been told. -/
structure Fresh (run : OutboxRun) : Prop where
  isOpen : IsOpen run.intent
  pending : run.intent.outcomeReportPending = false
  marks : run.marks = 0
  inMemory : run.toldInMemory = 0
  byDriver : run.toldByDriver = 0

structure ToldOnce (run : OutboxRun) : Prop where
  marks : run.marks = run.toldByDriver + if run.intent.outcomeReportPending then 1 else 0
  notYet : IsOpen run.intent → run.marks = 0 ∧ run.toldInMemory = 0
  once : run.marks + run.toldInMemory ≤ 1

theorem Fresh.toldOnce {run : OutboxRun} (hfresh : Fresh run) : ToldOnce run where
  marks := by simp [hfresh.marks, hfresh.byDriver, hfresh.pending]
  notYet := fun _ => ⟨hfresh.marks, hfresh.inMemory⟩
  once := by simp [hfresh.marks, hfresh.inMemory]

section Step

variable {run : OutboxRun} {call : Option SendCall} {operation : EndOperation} {now : ℤ}

theorem step_error {message : String}
    (hres : operation.write run.intent (call.map SendCall.report) = .error message) :
    run.step (.write call operation) = run := by
  simp [OutboxRun.step, OutboxRun.afterWrite, hres]

theorem step_ok {write : Write}
    (hres : operation.write run.intent (call.map SendCall.report) = .ok write) :
    run.step (.write call operation) = run.afterWrite (.ok write) := by
  simp [OutboxRun.step, hres]

theorem step_notReported (hstored : markOutgoingIntentReported (some run.intent) now = none) :
    run.step (.markReported now) = run := by
  simp [OutboxRun.step, hstored]

theorem step_reported (hstored : markOutgoingIntentReported (some run.intent) now = some stored) :
    run.step (.markReported now) =
      { run with intent := stored, toldByDriver := run.toldByDriver + 1 } := by
  simp [OutboxRun.step, hstored]

end Step

variable (run : OutboxRun)

theorem KeepsEnd.step (operation : SendOperation) :
    KeepsEnd run.intent (run.step operation).intent := by
  have hrefl : KeepsEnd run.intent run.intent := ⟨rfl, fun _ => id, fun _ => id⟩
  cases operation with
  | write call operation =>
    cases hres : operation.write run.intent (call.map SendCall.report) with
    | error message =>
      rw [step_error hres]
      exact hrefl
    | ok write =>
      rw [step_ok hres]
      exact (write_spec hres).1
  | markReported now =>
    cases hstored : markOutgoingIntentReported (some run.intent) now with
    | none =>
      rw [step_notReported hstored]
      exact hrefl
    | some stored =>
      rw [step_reported hstored]
      obtain ⟨-, rfl⟩ := markOutgoingIntentReported_eq_some hstored
      exact ⟨rfl, fun _ => id, fun _ => id⟩

theorem KeepsEnd.after (operations : List SendOperation) :
    KeepsEnd run.intent (run.after operations).intent := by
  induction operations generalizing run with
  | nil => exact ⟨rfl, fun _ => id, fun _ => id⟩
  | cons operation operations ih =>
    have hfst := KeepsEnd.step run operation
    have hrest := ih (run.step operation)
    exact ⟨hrest.internal.trans hfst.internal,
      fun outcome hset => hrest.outcome outcome (hfst.outcome outcome hset),
      fun result hset => hrest.result result (hfst.result result hset)⟩

variable {run : OutboxRun}

theorem ToldOnce.silent (htold : ToldOnce run) (hopen : IsOpen run.intent) :
    run.marks = 0 ∧ run.toldInMemory = 0 ∧ run.toldByDriver = 0 ∧
      run.intent.outcomeReportPending = false := by
  obtain ⟨hmarks, hmemory⟩ := htold.notYet hopen
  have hsum := htold.marks
  cases hpend : run.intent.outcomeReportPending with
  | false =>
    simp only [hmarks, hpend, Bool.false_eq_true, if_false, add_zero] at hsum
    exact ⟨hmarks, hmemory, hsum.symm, rfl⟩
  | true =>
    simp only [hmarks, hpend, if_true] at hsum
    omega

theorem afterWrite_quiet {write : Write}
    (hpend : write.stored.outcomeReportPending = run.intent.outcomeReportPending)
    (hsilent : tellsInMemory write.report = false) :
    run.afterWrite (.ok write) = { run with intent := write.stored } := by
  simp [OutboxRun.afterWrite, hpend, hsilent]

theorem ToldOnce.noEnd {call : Option SendCall} {write : Write}
    (htold : ToldOnce run) (hnone : NoEnd run.intent (call.map SendCall.report) write) :
    ToldOnce (run.afterWrite (.ok write)) := by
  have hsilent : tellsInMemory write.report = false := by
    rw [hnone.reports]
    cases call <;> simp [tellsInMemory, SendCall.report]
  rw [afterWrite_quiet hnone.pending hsilent]
  refine ⟨?_, fun hopen => htold.notYet (hnone.isOpen.mp hopen), htold.once⟩
  rw [hnone.pending]
  exact htold.marks

/-- An end that nobody hears of: it has no call, or the SDK made the send for itself. -/
theorem ToldOnce.quietEnd {write : Write} (htold : ToldOnce run)
    (hpend : write.stored.outcomeReportPending = run.intent.outcomeReportPending)
    (hsilent : tellsInMemory write.report = false) (hended : ¬ IsOpen write.stored) :
    ToldOnce (run.afterWrite (.ok write)) := by
  rw [afterWrite_quiet hpend hsilent]
  refine ⟨?_, fun hopen => absurd hopen hended, htold.once⟩
  rw [hpend]
  exact htold.marks

theorem afterWrite_told {call : SendCall} {write : Write} (htold : ToldOnce run)
    (hnew : NewEnd run.intent (some call.report) write) (hkeeps : KeepsEnd run.intent write.stored)
    (hopen : IsOpen run.intent) (hinternal : run.intent.internal = false) :
    run.afterWrite (.ok write) =
      { intent := write.stored
        marks := if call.driven then 1 else 0
        toldInMemory := if ¬ call.driven ∧ ¬ call.internal then 1 else 0
        toldByDriver := 0 } ∧
      write.stored.outcomeReportPending = call.driven := by
  obtain ⟨hmarks, hmemory, hdriver, hclear⟩ := htold.silent hopen
  have hpend : write.stored.outcomeReportPending = call.driven := by
    simpa [hinternal, hclear, SendCall.report] using hnew.pending
  have htells : tellsInMemory write.report = (!call.driven && !call.internal) := by
    rw [hnew.reports]
    simp [tellsInMemory, SendCall.report, hkeeps.internal, hinternal]
  refine ⟨?_, hpend⟩
  simp [OutboxRun.afterWrite, hmarks, hmemory, hdriver, hclear, hpend, htells]

theorem ToldOnce.newEnd {call : Option SendCall} {write : Write}
    (htold : ToldOnce run) (hnew : NewEnd run.intent (call.map SendCall.report) write)
    (hkeeps : KeepsEnd run.intent write.stored)
    (hfst : call.isSome → run.intent.internal = false → IsOpen run.intent) :
    ToldOnce (run.afterWrite (.ok write)) := by
  cases call with
  | none =>
    have hpend : write.stored.outcomeReportPending = run.intent.outcomeReportPending := by
      simpa using hnew.pending
    refine htold.quietEnd hpend ?_ hnew.isOpen
    rw [hnew.reports]
    rfl
  | some call =>
    cases hinternal : run.intent.internal with
    | true =>
      have hpend : write.stored.outcomeReportPending = run.intent.outcomeReportPending := by
        simpa [hinternal] using hnew.pending
      refine htold.quietEnd hpend ?_ hnew.isOpen
      rw [hnew.reports]
      simp [tellsInMemory, hkeeps.internal, hinternal]
    | false =>
      obtain ⟨hafter, hpend⟩ :=
        afterWrite_told htold hnew hkeeps (hfst rfl hinternal) hinternal
      rw [hafter]
      refine ⟨?_, fun hopen => absurd hopen hnew.isOpen, ?_⟩
      · simp [hpend]
      · cases call.driven <;> cases call.internal <;> simp

theorem ToldOnce.step {operation : SendOperation} (htold : ToldOnce run)
    (hcompletes : CompletesOpen run operation) : ToldOnce (run.step operation) := by
  cases operation with
  | write call operation =>
    cases hres : operation.write run.intent (call.map SendCall.report) with
    | error message =>
      rw [step_error hres]
      exact htold
    | ok write =>
      rw [step_ok hres]
      obtain ⟨hkeeps, hnone | ⟨hnew, hfst⟩⟩ := write_spec hres
      · exact htold.noEnd hnone
      · refine htold.newEnd hnew hkeeps fun hcall hinternal => ⟨hnew.result, ?_⟩
        obtain hout | ⟨result, syncPending, rfl⟩ := hfst
        · exact hout
        · cases call with
          | none => cases hcall
          | some call => exact hcompletes hinternal hnew.result
  | markReported now =>
    cases hstored : markOutgoingIntentReported (some run.intent) now with
    | none =>
      rw [step_notReported hstored]
      exact htold
    | some stored =>
      rw [step_reported hstored]
      obtain ⟨hpend, rfl⟩ := markOutgoingIntentReported_eq_some hstored
      refine ⟨?_, htold.notYet, htold.once⟩
      simpa [hpend] using htold.marks

theorem ToldOnce.after {operations : List SendOperation} (htold : ToldOnce run)
    (hcompletes : EveryCompletesOpen run operations) : ToldOnce (run.after operations) := by
  induction operations generalizing run with
  | nil => exact htold
  | cons operation operations ih => exact ih (htold.step hcompletes.1) hcompletes.2

/-- The calls of a send that the application or the driver makes. -/
def ReportsEnd : SendOperation → Bool
  | .write (some call) _ => !call.internal
  | .write none _ => false
  | .markReported _ => true

def Heard (run : OutboxRun) : Prop :=
  run.intent.internal = false ∧ (¬ IsOpen run.intent → run.marks + run.toldInMemory = 1)

theorem Heard.step {operation : SendOperation} (hheard : Heard run)
    (htold : ToldOnce run) (hcompletes : CompletesOpen run operation)
    (hreports : ReportsEnd operation = true) : Heard (run.step operation) := by
  have hinternal := (KeepsEnd.step run operation).internal.trans hheard.1
  refine ⟨hinternal, ?_⟩
  cases operation with
  | write call operation =>
    cases call with
    | none => cases hreports
    | some call =>
      cases hres : operation.write run.intent ((some call).map SendCall.report) with
      | error message =>
        rw [step_error hres]
        exact hheard.2
      | ok write =>
        rw [step_ok hres]
        obtain ⟨hkeeps, hnone | ⟨hnew, hfst⟩⟩ := write_spec hres
        · have hsilent : tellsInMemory write.report = false := by
            rw [hnone.reports]
            simp [tellsInMemory, SendCall.report]
          rw [afterWrite_quiet hnone.pending hsilent]
          exact fun hended => hheard.2 fun hopen => hended (hnone.isOpen.mpr hopen)
        · have hout : run.intent.outcome = none := by
            obtain hout | ⟨result, syncPending, rfl⟩ := hfst
            · exact hout
            · exact hcompletes hheard.1 hnew.result
          rw [(afterWrite_told htold hnew hkeeps ⟨hnew.result, hout⟩ hheard.1).1]
          intro _
          have hcall : call.internal = false := by simpa [ReportsEnd] using hreports
          cases hdriven : call.driven <;> simp [hcall]
  | markReported now =>
    cases hstored : markOutgoingIntentReported (some run.intent) now with
    | none =>
      rw [step_notReported hstored]
      exact hheard.2
    | some stored =>
      rw [step_reported hstored]
      obtain ⟨-, rfl⟩ := markOutgoingIntentReported_eq_some hstored
      exact hheard.2

theorem Heard.after {operations : List SendOperation} (hheard : Heard run)
    (htold : ToldOnce run) (hcompletes : EveryCompletesOpen run operations)
    (hreports : ∀ operation ∈ operations, ReportsEnd operation = true) :
    Heard (run.after operations) := by
  induction operations generalizing run with
  | nil => exact hheard
  | cons operation operations ih =>
    obtain ⟨hfst, hrest⟩ := List.forall_mem_cons.mp hreports
    exact ih (hheard.step htold hcompletes.1 hfst) (htold.step hcompletes.1) hcompletes.2 hrest

/-- In a run whose completions find no outcome without a result, the report mark is set at most once
and the end is told at most once; of a send of the application it is told, or marked to be told,
exactly once. -/
theorem send_end_told_once (start : OutboxRun) (operations : List SendOperation)
    (hfresh : Fresh start) (hcompletes : EveryCompletesOpen start operations) :
    (start.after operations).marks ≤ 1 ∧
      (start.after operations).toldByDriver + (start.after operations).toldInMemory ≤ 1 ∧
      (start.intent.internal = false → (∀ operation ∈ operations, ReportsEnd operation = true) →
        ¬ IsOpen (start.after operations).intent →
          (start.after operations).toldByDriver + (start.after operations).toldInMemory +
            (if (start.after operations).intent.outcomeReportPending then 1 else 0) = 1) ∧
      ∀ later,
        (∀ outcome, (start.after operations).intent.outcome = some outcome →
          (start.after (operations ++ later)).intent.outcome = some outcome) ∧
        ∀ result, (start.after operations).intent.result = some result →
          (start.after (operations ++ later)).intent.result = some result := by
  have htold := hfresh.toldOnce.after hcompletes
  have hmarks := htold.marks
  have honce := htold.once
  refine ⟨by omega, by omega, fun hinternal hreports hended => ?_, fun later => ?_⟩
  · have hheard : Heard start := ⟨hinternal, fun hended => absurd hfresh.isOpen hended⟩
    have hsum := (hheard.after hfresh.toldOnce hcompletes hreports).2 hended
    omega
  · have hkeeps := KeepsEnd.after (start.after operations) later
    have happend : start.after (operations ++ later) = (start.after operations).after later :=
      List.foldl_append ..
    rw [happend]
    exact ⟨hkeeps.outcome, hkeeps.result⟩

def exampleIntent : StoredOutgoingMessageIntent where
  clientMessageId := "send"
  clientTimestamp := 0
  createdAt := 0
  deviceMessages := []
  syncMessages := []

def exampleResult : SendResult where
  clientMessageId := "send"
  messageId := "relay"
  timestamp := 1
  recipientDeviceCount := 1
  duplicate := none
  expiresAt := none
  refusedDestinationCount := none
  groupId := none

def exampleDriver : SendCall where
  driven := true
  internal := false

def exampleOperations : List SendOperation :=
  [.write exampleDriver (.finish { outcome := .failed, destinationProgress := ∅ }),
    .markReported 1, .markReported 2]

def exampleCompletion : SendOperation := .write exampleDriver (.complete exampleResult false)

theorem completion_rearms_report :
    ¬ ∀ start operations, Fresh start → (start.after operations).marks ≤ 1 := by
  intro honce
  have hmarks := honce { intent := exampleIntent } (exampleOperations ++ [exampleCompletion])
    ⟨by decide, rfl, rfl, rfl, rfl⟩
  revert hmarks
  decide

theorem exampleOperations_told_once :
    (OutboxRun.after { intent := exampleIntent } exampleOperations).marks ≤ 1 ∧
      (OutboxRun.after { intent := exampleIntent } exampleOperations).toldByDriver +
        (OutboxRun.after { intent := exampleIntent } exampleOperations).toldInMemory ≤ 1 := by
  obtain ⟨hmarks, htold, -⟩ := send_end_told_once { intent := exampleIntent } exampleOperations
    ⟨by decide, rfl, rfl, rfl, rfl⟩ ⟨trivial, trivial, trivial, trivial⟩
  exact ⟨hmarks, htold⟩

end SignalProtocol.Outbox

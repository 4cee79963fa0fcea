import SignalProtocol.Relay.Work

/-! # Stop as a barrier

The invariants of the tracker and of the lock waits, and what a stop promises in every run. -/

namespace SignalProtocol.Relay

open List

variable {K : Type} [DecidableEq K] {tracker next last : RelayWorkTracker K} {item : ℕ}
  {event : RelayEvent K} {events : List (RelayEvent K)} {id : ℕ} {isSdk : Bool}

namespace RelayWork

variable {work : RelayWork}

/-- An item is in an app call exactly when one is open. -/
def Placed (work : RelayWork) : Prop := work.inApp = true ↔ work.place = .app

/-- A step of an item that does not end it. -/
structure Moves (work next : RelayWork) : Prop where
  live : next.place ≠ .ended
  placed : next.Placed
  stopped : work.stopped = true → next.stopped = true

section

variable (hplaced : work.Placed)

include hplaced

theorem Moves.proceed (hplace : work.place = .sdk) : work.Moves work.proceed := by
  constructor <;> simp only [RelayWork.proceed, Placed, inApp] at hplaced ⊢ <;> grind

theorem Moves.enterApp (_ : work.place ≠ .ended) : work.Moves work.enterApp := by
  constructor <;> simp only [RelayWork.enterApp, Placed, inApp] at hplaced ⊢ <;> grind

theorem Moves.leaveApp (hplace : work.place = .app) : work.Moves work.leaveApp := by
  constructor <;> simp only [RelayWork.leaveApp, Placed, inApp] at hplaced ⊢ <;> grind

theorem Moves.wait (hplace : work.place = .sdk) : work.Moves work.wait := by
  constructor <;> simp only [RelayWork.wait, Placed, inApp] at hplaced ⊢ <;> grind

theorem Moves.turn {phase : WaitPhase} (hplace : phase = .queued → work.place = .lock)
    (hlive : work.place ≠ .ended) : work.Moves (work.turn phase) := by
  constructor <;> simp only [RelayWork.turn, Placed, inApp] at hplaced ⊢ <;> grind

end

end RelayWork

namespace RelayWorkTracker

/-- What the `settle` calls and the items agree on. -/
structure Settling (tracker : RelayWorkTracker K) : Prop where
  listed : ∀ item, item ∈ tracker.items ↔ tracker.place item ≠ .ended
  known : ∀ item ∈ tracker.items, item < tracker.started
  calls : ∀ item, (tracker.works item).Placed
  stopping : tracker.stopping = tracker.settling.length
  nodup : tracker.settling.Nodup
  settles : ∀ call ∈ tracker.settling, call < tracker.settles
  waiters : tracker.waiters ≠ [] → tracker.allInApp = false
  stopped : tracker.settling ≠ [] → ∀ item ∈ tracker.items, (tracker.works item).stopped = true
  signal : tracker.settling ≠ [] → tracker.aborted = true

omit [DecidableEq K] in
theorem place_setWork (work : RelayWork) (other : ℕ) :
    (tracker.setWork item work).place other =
      if other = item then work.place else tracker.place other := by
  simp only [place, setWork, Function.update_apply]
  split <;> rfl

namespace Settling

omit [DecidableEq K]

section

variable (hsettle : tracker.Settling)

include hsettle

theorem withLocks (locks : Locks K) : { tracker with locks }.Settling :=
  { hsettle with }

theorem setWork {work : RelayWork}
    (hplace : tracker.place item ≠ .ended) (hmoves : (tracker.works item).Moves work)
    (hsame : work.inApp = (tracker.works item).inApp ∨ tracker.waiters = []) :
    (tracker.setWork item work).Settling :=
  { hsettle with
    listed other := by
      rw [place_setWork]
      split
      · rename_i heq
        exact iff_of_true ((hsettle.listed other).mpr (heq ▸ hplace)) hmoves.live
      · exact hsettle.listed other
    calls other := by
      by_cases heq : other = item
      · simpa [RelayWorkTracker.setWork, heq] using hmoves.placed
      · simpa [RelayWorkTracker.setWork, heq] using hsettle.calls other
    waiters hwaiters := by
      rcases hsame with hsame | hnone
      · rw [← hsettle.waiters hwaiters, allInApp, allInApp]
        congr 1
        funext other
        by_cases heq : other = item
        · simp [RelayWorkTracker.setWork, heq, hsame]
        · simp [RelayWorkTracker.setWork, heq]
      · exact absurd hnone hwaiters
    stopped hany other hother := by
      have hold := hsettle.stopped hany other hother
      by_cases heq : other = item
      · subst heq
        simpa [RelayWorkTracker.setWork] using hmoves.stopped hold
      · simpa [RelayWorkTracker.setWork, heq] using hold }

theorem notify : tracker.notify.Settling :=
  { hsettle with waiters := fun hwaiters => absurd rfl hwaiters }

theorem run : tracker.run.Settling :=
  { hsettle with
    listed other := by
      have hlist := hsettle.listed other
      simp only [RelayWorkTracker.run, RelayWorkTracker.place, Function.update_apply] at hlist ⊢
      grind
    known other hother := by
      have hknown := hsettle.known other
      simp only [RelayWorkTracker.run] at hother ⊢
      grind
    calls other := by
      simp only [RelayWorkTracker.run, Function.update_apply]
      split
      · simp [RelayWork.Placed, RelayWork.inApp]
      · exact hsettle.calls other
    waiters _ := by
      simp [RelayWorkTracker.run, allInApp, RelayWork.inApp]
    stopped hany other hother := by
      simp only [RelayWorkTracker.run, Function.update_apply]
      split
      · rw [hsettle.stopping]
        exact decide_eq_true (length_pos_iff.mpr hany)
      · rename_i hne
        have hold : other ∈ tracker.items := by
          simpa [RelayWorkTracker.run, hne] using hother
        exact hsettle.stopped hany other hold }

theorem stopWhere (stops : ℕ → Bool) : (tracker.stopWhere stops).Settling :=
  { hsettle with
    listed other := by
      rw [show (tracker.stopWhere stops).items = tracker.items from rfl, hsettle.listed other]
      simp only [RelayWorkTracker.stopWhere, RelayWorkTracker.place, RelayWork.stop]
      grind
    calls other := by
      have hcalls := hsettle.calls other
      simp only [RelayWorkTracker.stopWhere, RelayWork.Placed, RelayWork.stop, RelayWork.inApp]
        at hcalls ⊢
      grind
    waiters hwaiters := by
      rw [← hsettle.waiters hwaiters, allInApp, allInApp]
      congr 1
      funext other
      simp only [RelayWorkTracker.stopWhere, RelayWork.stop, RelayWork.inApp]
      split <;> rfl
    stopped hany other hother := by
      have hold := hsettle.stopped hany other hother
      simp only [RelayWorkTracker.stopWhere, RelayWork.stop]
      split
      · rfl
      · exact hold }

theorem finish (hplace : tracker.place item ≠ .app) : (tracker.finish item).Settling :=
  { hsettle with
    listed other := by
      have hlist := hsettle.listed other
      change other ∈ tracker.items.filter (· ≠ item) ↔
        (tracker.setWork item { tracker.works item with place := .ended }).place other ≠ .ended
      rw [place_setWork]
      grind
    known other hother := hsettle.known other (mem_of_mem_filter hother)
    calls other := by
      by_cases heq : other = item
      · subst heq
        have hout : (tracker.works other).inApp ≠ true :=
          fun hin => hplace ((hsettle.calls other).mp hin)
        simpa [RelayWorkTracker.finish, RelayWorkTracker.setWork, RelayWorkTracker.notify,
          RelayWork.Placed, RelayWork.inApp] using hout
      · simpa [RelayWorkTracker.finish, RelayWorkTracker.setWork, RelayWorkTracker.notify, heq]
          using hsettle.calls other
    waiters hwaiters := absurd rfl hwaiters
    stopped hany other hother := by
      have hmem := mem_filter.mp hother
      have hne : other ≠ item := by simpa using hmem.2
      simpa [RelayWorkTracker.finish, RelayWorkTracker.setWork, RelayWorkTracker.notify, hne] using
        hsettle.stopped hany other hmem.1 }

theorem resume {call : ℕ} (hcall : call ∈ tracker.settling) : (tracker.resume call).Settling := by
  rw [RelayWorkTracker.resume]
  split
  · have hmem : ∀ other ∈ tracker.settling.erase call, other ∈ tracker.settling :=
      fun other hother => mem_of_mem_erase hother
    exact
      { hsettle with
        stopping := by
          rw [length_erase_of_mem hcall, hsettle.stopping]
        nodup := hsettle.nodup.erase call
        settles := fun other hother => hsettle.settles other (hmem other hother)
        stopped := fun _ => hsettle.stopped (ne_nil_of_mem hcall)
        signal := by
          intro hany
          have hlen : (tracker.settling.erase call).length ≠ 0 := by simpa using hany
          rw [length_erase_of_mem hcall, ← hsettle.stopping] at hlen
          have hne : tracker.stopping ≠ 1 := by omega
          simp [hsettle.signal (ne_nil_of_mem hcall), hne] }
  · rename_i hsome
    exact { hsettle with waiters := fun _ => Bool.not_eq_true _ ▸ hsome }

theorem settle : tracker.settle.Settling := by
  refine resume ?_ mem_cons_self
  exact
    { stopWhere hsettle fun _ => true with
      stopping := by
        change tracker.stopping + 1 = tracker.settling.length + 1
        rw [hsettle.stopping]
      nodup := nodup_cons.mpr
        ⟨fun hmem => Nat.lt_irrefl _ (hsettle.settles _ hmem), hsettle.nodup⟩
      settles := by
        intro call hcall
        rcases mem_cons.mp hcall with rfl | hcall
        · exact Nat.lt_succ_self _
        · exact Nat.lt_succ_of_lt (hsettle.settles call hcall)
      stopped := by
        intro _ item hitem
        have hlist : item ∈ tracker.beginSettle.items := hitem
        simp [RelayWorkTracker.stopWhere, RelayWork.stop, hlist]
      signal := fun _ => rfl }

end

end Settling

/-- An item's wait is in the queue of its lock. -/
def Queued (tracker : RelayWorkTracker K) (id item : ℕ) : Prop :=
  ∃ wait, tracker.locks.waits id = some wait ∧ wait.phase = .queued ∧ wait.item = item

/-- An item with a queued wait is at that wait. -/
structure Waiting (tracker : RelayWorkTracker K) : Prop where
  fresh : ∀ id, tracker.locks.nextWait ≤ id → tracker.locks.waits id = none
  place : ∀ id item, tracker.Queued id item → tracker.place item = .lock
  oneEach : ∀ id other item, tracker.Queued id item → tracker.Queued other item → id = other

omit [DecidableEq K] in
theorem place_lock_setWork {work : RelayWork} (hplace : tracker.place item ≠ .lock) (other : ℕ)
    (hlock : tracker.place other = .lock) : (tracker.setWork item work).place other = .lock := by
  rw [place_setWork, if_neg]
  · exact hlock
  · rintro rfl
    exact hplace hlock

namespace Waiting

omit [DecidableEq K]

section

variable (hwaiting : tracker.Waiting)

include hwaiting

/-- No wait enters a queue, and each item that leaves its place leaves it with its wait. -/
theorem of_queued
    (hfresh : ∀ id, next.locks.nextWait ≤ id → next.locks.waits id = none)
    (hqueued : ∀ id item, next.Queued id item → tracker.Queued id item ∧
      (tracker.place item = .lock → next.place item = .lock)) : next.Waiting where
  fresh := hfresh
  place id item hnext :=
    (hqueued id item hnext).2 (hwaiting.place id item (hqueued id item hnext).1)
  oneEach id other item hnext hother :=
    hwaiting.oneEach id other item (hqueued id item hnext).1 (hqueued other item hother).1

theorem of_place (hlocks : next.locks.waits = tracker.locks.waits)
    (hnext : next.locks.nextWait = tracker.locks.nextWait)
    (hplace : ∀ item, tracker.place item = .lock → next.place item = .lock) : next.Waiting := by
  refine hwaiting.of_queued ?_ fun id item hqueued => ⟨?_, hplace item⟩
  · rw [hlocks, hnext]
    exact hwaiting.fresh
  · rwa [Queued, hlocks] at hqueued

theorem stopWhere (stops : ℕ → Bool) : (tracker.stopWhere stops).Waiting := by
  refine hwaiting.of_queued ?_ ?_
  · intro id hid
    simp [RelayWorkTracker.stopWhere, Locks.abandon, hwaiting.fresh id hid]
  · rintro id item ⟨wait, hwait, hphase, hitem⟩
    obtain ⟨old, hold, heq⟩ := Option.map_eq_some_iff.mp hwait
    simp only [Queued, RelayWorkTracker.place, RelayWorkTracker.stopWhere]
    grind [LockWait.abandon]

theorem resume (call : ℕ) : (tracker.resume call).Waiting := by
  rw [RelayWorkTracker.resume]
  split <;> exact hwaiting.of_place rfl rfl fun _ => id

theorem run (hsettle : tracker.Settling) : tracker.run.Waiting := by
  refine hwaiting.of_place rfl rfl fun item hlock => ?_
  have hknown := hsettle.known item ((hsettle.listed _).mpr (by rw [hlock]; nofun))
  have hne : item ≠ tracker.started := Nat.ne_of_lt hknown
  simpa [RelayWorkTracker.place, RelayWorkTracker.run, hne] using hlock

theorem enqueue (hplace : tracker.place item = .sdk) (key : K) :
    { tracker.setWork item (tracker.works item).wait with
      locks := tracker.locks.enqueue key item (tracker.works item).stopped }.Waiting := by
  have hidle : ∀ id, ¬ tracker.Queued id item := fun id hqueued => by
    cases hplace.symm.trans (hwaiting.place id item hqueued)
  -- The new wait, and only that, is added to the queued waits.
  have hcases : ∀ id other, Queued { tracker.setWork item (tracker.works item).wait with
      locks := tracker.locks.enqueue key item (tracker.works item).stopped } id other →
      tracker.Queued id other ∨
        id = tracker.locks.nextWait ∧ other = item ∧ (tracker.works item).stopped = false := by
    rintro id other ⟨wait, hwait, hphase, hitem⟩
    simp only [Locks.enqueue, Function.update_apply] at hwait
    split at hwait
    · grind
    · exact .inl ⟨wait, hwait, hphase, hitem⟩
  constructor
  · intro id hid
    have hfresh := hwaiting.fresh id
    simp only [Locks.enqueue, Function.update_apply] at hid ⊢
    grind
  · intro id other hqueued
    change (tracker.setWork item _).place other = .lock
    rw [place_setWork]
    rcases hcases id other hqueued with hold | ⟨-, rfl, hstop⟩
    · rw [if_neg]
      · exact hwaiting.place id other hold
      · rintro rfl
        exact hidle id hold
    · simp [RelayWork.wait, hstop]
  · intro id second other hfst hsnd
    rcases hcases id other hfst with hold | ⟨rfl, rfl, -⟩ <;>
      rcases hcases second _ hsnd with hother | ⟨rfl, heq, -⟩
    · exact hwaiting.oneEach id second other hold hother
    · subst heq
      exact absurd hold (hidle id)
    · exact absurd hother (hidle second)
    · rfl

theorem grant {wait : LockWait K} (hwait : tracker.locks.waits id = some wait) :
    { tracker.setWork wait.item ((tracker.works wait.item).turn wait.phase) with
      locks := tracker.locks.grant id wait }.Waiting := by
  have hfresh := hwaiting.fresh
  have honeEach := hwaiting.oneEach
  refine hwaiting.of_queued ?_ ?_
  · intro other hother
    simp only [Locks.grant, Function.update_apply] at hother ⊢
    grind
  · rintro other item ⟨after, hafter, hphase, hitem⟩
    have hne : other ≠ id := by
      rintro rfl
      simp only [Locks.grant, Function.update_self, LockWait.turn] at hafter
      grind
    have hqueued : tracker.Queued other item :=
      ⟨after, (Function.update_of_ne hne _ _).symm.trans hafter, hphase, hitem⟩
    refine ⟨hqueued, fun hlock => ?_⟩
    change (tracker.setWork wait.item _).place item = .lock
    rw [place_setWork]
    split
    · rename_i hsame
      rw [RelayWork.turn, if_neg]
      · exact hsame ▸ hlock
      · exact fun hfst => hne
          (honeEach other id item hqueued ⟨wait, hwait, hfst, hsame.symm⟩)
    · exact hlock

end

end Waiting

/-- What every reachable tracker satisfies. -/
structure Valid (tracker : RelayWorkTracker K) : Prop where
  settling : tracker.Settling
  waiting : tracker.Waiting

omit [DecidableEq K] in
theorem Valid.empty : ({} : RelayWorkTracker K).Valid where
  settling :=
    { listed := fun _ => iff_of_false not_mem_nil fun hne => hne rfl
      known := nofun
      calls := fun _ => iff_of_false nofun nofun
      stopping := rfl
      nodup := nodup_nil
      settles := nofun
      waiters := fun hne => absurd rfl hne
      stopped := nofun
      signal := fun hne => absurd rfl hne }
  waiting := ⟨fun _ _ => rfl, nofun, nofun⟩

theorem Valid.apply (hvalid : tracker.Valid) (henabled : tracker.Enabled event) :
    (tracker.apply event).Valid := by
  obtain ⟨hsettle, hwaiting⟩ := hvalid
  cases event with
  | run => exact ⟨hsettle.run, hwaiting.run hsettle⟩
  | sdk item => exact ⟨hsettle, hwaiting⟩
  | proceed item =>
    have hplace : tracker.place item = .sdk := henabled
    refine ⟨hsettle.setWork (by rw [hplace]; nofun) (.proceed (hsettle.calls item) hplace)
      (.inl ?_), hwaiting.of_place rfl rfl (place_lock_setWork (by rw [hplace]; nofun))⟩
    rw [RelayWork.proceed]
    split <;> rfl
  | enterApp item =>
    have hplace : tracker.place item = .sdk ∨ tracker.place item = .app := henabled
    have hlive : tracker.place item ≠ .ended := by grind
    exact ⟨hsettle.notify.setWork hlive (.enterApp (hsettle.calls item) hlive) (.inr rfl),
      hwaiting.of_place rfl rfl (place_lock_setWork (by grind))⟩
  | leaveApp item =>
    have hplace : tracker.place item = .app := henabled
    have hlive : tracker.place item ≠ .ended := by rw [hplace]; nofun
    exact ⟨hsettle.notify.setWork hlive (.leaveApp (hsettle.calls item) hplace) (.inr rfl),
      hwaiting.of_place rfl rfl (place_lock_setWork (by rw [hplace]; nofun))⟩
  | acquire item key atOnce =>
    have hplace : tracker.place item = .sdk := henabled.1
    cases atOnce with
    | true => exact ⟨hsettle.withLocks _, hwaiting.of_place rfl rfl fun _ => id⟩
    | false =>
      exact ⟨(hsettle.setWork (by rw [hplace]; nofun) (.wait (hsettle.calls item) hplace)
        (.inl rfl)).withLocks _, hwaiting.enqueue hplace key⟩
  | grant id wait =>
    obtain ⟨hwait, hphase, -⟩ := henabled
    refine ⟨Settling.withLocks ?_ _, hwaiting.grant hwait⟩
    by_cases hqueued : wait.phase = .queued
    · have hlock := hwaiting.place id wait.item ⟨wait, hwait, hqueued, rfl⟩
      refine hsettle.setWork (by rw [hlock]; nofun)
        (.turn (hsettle.calls wait.item) (fun _ => hlock) ?_) (.inl ?_)
      · exact fun hended => by cases hlock.symm.trans hended
      · rw [RelayWork.turn, if_pos hqueued]
        rfl
    · rw [RelayWork.turn, if_neg hqueued, RelayWorkTracker.setWork, Function.update_eq_self]
      exact hsettle
  | release item key =>
    exact ⟨hsettle.withLocks _, hwaiting.of_place rfl rfl fun _ => id⟩
  | finish item =>
    have hplace : tracker.place item = .sdk ∨ tracker.place item = .thrown := henabled.1
    exact ⟨hsettle.finish (by grind), hwaiting.of_place rfl rfl (place_lock_setWork (by grind))⟩
  | stopAllExcept keep => exact ⟨hsettle.stopWhere _, hwaiting.stopWhere _⟩
  | settle =>
    have hbegun : tracker.beginSettle.Waiting := hwaiting.of_place rfl rfl fun _ => id
    exact ⟨hsettle.settle, (hbegun.stopWhere _).resume _⟩
  | resume call => exact ⟨hsettle.resume henabled.1, hwaiting.resume call⟩

theorem Valid.runs (hvalid : tracker.Valid) (hruns : tracker.Runs events last) : last.Valid := by
  induction hruns with
  | nil => exact hvalid
  | snoc _ henabled ih => exact ih.apply henabled

end RelayWorkTracker

/-- What one event does to one item. -/
inductive RelayWork.Step (work : RelayWork) : RelayWork → Bool → Prop where
  | stay : work.Step work false
  | stop : work.Step work.stop false
  | sdk (hplace : work.place = .sdk) : work.Step work true
  | proceed (hplace : work.place = .sdk) : work.Step work.proceed true
  | enterApp (hplace : work.place = .sdk ∨ work.place = .app) : work.Step work.enterApp true
  | leaveApp (hplace : work.place = .app) : work.Step work.leaveApp false
  | wait (hplace : work.place = .sdk) : work.Step work.wait true
  | take (hplace : work.place = .lock) : work.Step (work.turn .queued) true
  | finish (hplace : work.place = .sdk ∨ work.place = .thrown) :
      work.Step { work with place := .ended } false

def RelayEvent.isSdkStep (item : ℕ) : RelayEvent K → Bool
  | .sdk other => other = item
  | .proceed other => other = item
  | .enterApp other => other = item
  | .acquire other _ _ => other = item
  | .grant _ wait => decide (wait.phase = .queued) && decide (wait.item = item)
  | _ => false

namespace RelayWorkTracker

omit [DecidableEq K]

variable {other : ℕ}

theorem step_setWork {work : RelayWork} (hwork : (tracker.works other).Step work isSdk) :
    (tracker.works item).Step ((tracker.setWork other work).works item)
      (isSdk && decide (other = item)) := by
  by_cases heq : other = item
  · subst heq
    simpa [setWork] using hwork
  · have hne : item ≠ other := fun h => heq h.symm
    simpa [setWork, heq, hne] using RelayWork.Step.stay

theorem step_self (hwork : (tracker.works other).Step (tracker.works other) isSdk) :
    (tracker.works item).Step (tracker.works item) (isSdk && decide (other = item)) := by
  have hself : (tracker.works item).Step _ (isSdk && decide (other = item)) := step_setWork hwork
  rwa [setWork, Function.update_eq_self] at hself

theorem works_resume (call : ℕ) : (tracker.resume call).works = tracker.works := by
  rw [resume]
  split <;> rfl

theorem step_stopWhere (tracker : RelayWorkTracker K) (stops : ℕ → Bool) :
    (tracker.works item).Step ((tracker.stopWhere stops).works item) false := by
  simp only [stopWhere]
  split
  · exact .stop
  · exact .stay

end RelayWorkTracker

namespace RelayWorkTracker

theorem started_le (tracker : RelayWorkTracker K) (event : RelayEvent K) :
     tracker.started ≤ (tracker.apply event).started := by
  cases event <;> grind [apply, run, finish, stopAllExcept, stopWhere, beginSettle, settle, resume,
    setWork, notify]

theorem item_step (hvalid : tracker.Valid) (hitem : item < tracker.started)
    (henabled : tracker.Enabled event) :
    (tracker.works item).Step ((tracker.apply event).works item) (event.isSdkStep item) := by
  cases event with
  | run =>
    have hne : item ≠ tracker.started := Nat.ne_of_lt hitem
    have hsame : tracker.run.works item = tracker.works item := Function.update_of_ne hne _ _
    rw [apply, hsame]
    exact .stay
  | sdk other => exact step_self (.sdk henabled)
  | proceed other => exact step_setWork (.proceed henabled)
  | enterApp other => exact step_setWork (.enterApp henabled)
  | leaveApp other => exact step_setWork (.leaveApp henabled)
  | acquire other key atOnce =>
    cases atOnce with
    | true => exact step_self (.sdk henabled.1)
    | false => exact step_setWork (.wait henabled.1)
  | grant id wait =>
    by_cases hqueued : wait.phase = .queued
    · have hlock := hvalid.waiting.place id wait.item ⟨wait, henabled.1, hqueued, rfl⟩
      rw [apply, RelayEvent.isSdkStep, hqueued]
      exact step_setWork (.take hlock)
    · rw [apply, RelayEvent.isSdkStep, decide_eq_false hqueued, RelayWork.turn, if_neg hqueued]
      exact step_setWork .stay
  | release other key => exact .stay
  | finish other => exact step_setWork (.finish henabled.1)
  | stopAllExcept keep => exact step_stopWhere tracker _
  | settle =>
    rw [apply, settle, works_resume]
    exact step_stopWhere tracker.beginSettle _
  | resume call =>
    rw [apply, works_resume]
    exact .stay

/-! ## The barrier -/

/-- The item's task is over, or RelayWorkStopped is on its way out of it. -/
def Over (tracker : RelayWorkTracker K) (item : ℕ) : Prop :=
  item < tracker.started ∧ (tracker.place item = .thrown ∨ tracker.place item = .ended)

/-- The item is stopped outside app calls. -/
def Outside (tracker : RelayWorkTracker K) (item : ℕ) : Prop :=
  item < tracker.started ∧ (tracker.works item).stopped = true ∧ tracker.place item ≠ .app

/-- A wait that was abandoned, before or after its turn. -/
def Abandoned (tracker : RelayWorkTracker K) (id : ℕ) : Prop :=
  ∃ wait, tracker.locks.waits id = some wait ∧ (wait.phase = .abandoned ∨ wait.phase = .released)

theorem Over.apply (hvalid : tracker.Valid) (hover : tracker.Over item)
    (henabled : tracker.Enabled event) :
    (tracker.apply event).Over item ∧ event.isSdkStep item = false := by
  obtain ⟨hstart, hplace⟩ := hover
  have hle := started_le tracker event
  have hitem := item_step hvalid hstart henabled
  simp only [Over, place] at hplace ⊢
  generalize (tracker.apply event).works item = work at hitem ⊢
  generalize event.isSdkStep item = isSdk at hitem ⊢
  cases hitem <;> grind [RelayWork.stop]

theorem Outside.apply (hvalid : tracker.Valid) (houtside : tracker.Outside item)
    (henabled : tracker.Enabled event) : (tracker.apply event).Outside item := by
  obtain ⟨hstart, hstop, hplace⟩ := houtside
  have hle := started_le tracker event
  have hitem := item_step hvalid hstart henabled
  simp only [Outside, place] at hplace ⊢
  generalize (tracker.apply event).works item = work at hitem ⊢
  generalize event.isSdkStep item = isSdk at hitem
  cases hitem <;> grind [RelayWork.stop, RelayWork.proceed, RelayWork.enterApp, RelayWork.wait,
    RelayWork.turn]

omit [DecidableEq K] in
theorem Abandoned.stopWhere (habandoned : tracker.Abandoned id) (stops : ℕ → Bool) :
    (tracker.stopWhere stops).Abandoned id := by
  obtain ⟨wait, hwait, hphase⟩ := habandoned
  have hkept : wait.abandon = wait := if_neg (by rcases hphase with h | h <;> rw [h] <;> nofun)
  exact ⟨wait, by simp [RelayWorkTracker.stopWhere, Locks.abandon, hwait, hkept], hphase⟩

section

variable (hvalid : tracker.Valid)

include hvalid

theorem Abandoned.apply (habandoned : tracker.Abandoned id)
    (henabled : tracker.Enabled event) : (tracker.apply event).Abandoned id := by
  have hkept := habandoned
  obtain ⟨wait, hwait, hphase⟩ := hkept
  cases event with
  | acquire item key atOnce =>
    cases atOnce with
    | true => exact habandoned
    | false =>
      have hne : id ≠ tracker.locks.nextWait := by
        rintro rfl
        rw [hvalid.waiting.fresh _ (Nat.le_refl _)] at hwait
        cases hwait
      exact ⟨wait, (Function.update_of_ne hne _ _).trans hwait, hphase⟩
  | grant other turned =>
    by_cases heq : id = other
    · subst heq
      obtain rfl : wait = turned := Option.some.inj (hwait.symm.trans henabled.1)
      refine ⟨wait.turn, Function.update_self _ _ _, .inr (if_neg ?_)⟩
      rcases hphase with h | h <;> rw [h] <;> nofun
    · exact ⟨wait, (Function.update_of_ne heq _ _).trans hwait, hphase⟩
  | stopAllExcept keep => exact habandoned.stopWhere _
  | settle =>
    have hbegun : tracker.beginSettle.Abandoned id := habandoned
    obtain ⟨after, hafter, hphases⟩ := hbegun.stopWhere fun _ => true
    refine ⟨after, ?_, hphases⟩
    rw [RelayWorkTracker.apply, settle, resume]
    split <;> exact hafter
  | resume call =>
    refine ⟨wait, ?_, hphase⟩
    rw [RelayWorkTracker.apply, resume]
    split <;> exact hwait
  | _ => exact habandoned

theorem Over.runs (hover : tracker.Over item) (hruns : tracker.Runs events last) :
    last.Over item ∧ ∀ event ∈ events, event.isSdkStep item = false := by
  induction hruns with
  | nil => exact ⟨hover, nofun⟩
  | snoc hruns henabled ih =>
    obtain ⟨hnext, hsdk⟩ := Over.apply (hvalid.runs hruns) ih.1 henabled
    exact ⟨hnext, forall_mem_append.mpr ⟨ih.2, by simpa using hsdk⟩⟩

theorem Outside.runs (houtside : tracker.Outside item)
    (hruns : tracker.Runs events last) : last.Outside item := by
  induction hruns with
  | nil => exact houtside
  | snoc hruns henabled ih => exact ih.apply (hvalid.runs hruns) henabled

theorem Abandoned.runs (habandoned : tracker.Abandoned id)
    (hruns : tracker.Runs events last) : last.Abandoned id := by
  induction hruns with
  | nil => exact habandoned
  | snoc hruns henabled ih => exact ih.apply (hvalid.runs hruns) henabled

end

omit [DecidableEq K] in
theorem resolved_resume (tracker : RelayWorkTracker K) (call other : ℕ) :
    (tracker.resume call).resolved other = tracker.resolved other ∨
      (tracker.resume call).allInApp = true := by
  rw [resume]
  split
  · rename_i hall
    exact .inr hall
  · exact .inl rfl

/-- Only a turn of a `settle` call with every item in an app call resolves a call. -/
theorem resolved_apply (event : RelayEvent K) (call : ℕ) :
    (tracker.apply event).resolved call = tracker.resolved call ∨
      (tracker.apply event).allInApp = true := by
  cases event with
  | settle =>
    rcases resolved_resume (tracker.beginSettle.stopWhere fun _ => true)
      tracker.settles call with hsame | hall
    · refine .inl (hsame.trans ?_)
      simp only [resolved, stopWhere, beginSettle]
      grind
    · exact .inr hall
  | resume other => exact resolved_resume tracker other call
  | acquire item key atOnce => cases atOnce <;> exact .inl rfl
  | _ => exact .inl rfl

omit [DecidableEq K] in
theorem Settling.allInApp_iff (hsettle : tracker.Settling) : tracker.allInApp = true ↔
    ∀ item, tracker.place item = .ended ∨ (tracker.works item).inApp = true := by
  rw [allInApp, all_eq_true]
  refine forall_congr' fun item => ?_
  rw [hsettle.listed item, or_iff_not_imp_left]

theorem Valid.settled (hvalid : tracker.Valid) (henabled : tracker.Enabled event) {call : ℕ}
    (hbefore : tracker.resolved call = false) (hafter : (tracker.apply event).resolved call = true)
    (item : ℕ) : (tracker.apply event).place item = .ended ∨
      ((tracker.apply event).works item).inApp = true := by
  rcases resolved_apply event call with hsame | hall
  · rw [hsame, hbefore] at hafter
    cases hafter
  · exact (hvalid.apply henabled).settling.allInApp_iff.mp hall item

theorem Valid.left (hvalid : tracker.Valid) (hstop : (tracker.works item).stopped = true)
    (hcalls : (tracker.works item).appCalls = 1) (henabled : tracker.Enabled (.leaveApp item)) :
    (tracker.apply (.leaveApp item)).Over item := by
  have hplace : tracker.place item = .app := henabled
  have hknown := hvalid.settling.known item
    ((hvalid.settling.listed item).mpr (by rw [hplace]; nofun))
  refine ⟨hknown, .inl ?_⟩
  simp [RelayWorkTracker.apply, place, setWork, notify, RelayWork.leaveApp, hcalls, hstop]

omit [DecidableEq K] in
theorem Valid.outside_run (hvalid : tracker.Valid) (hany : tracker.settling ≠ []) :
    tracker.run.Outside tracker.started := by
  have hstopping : 0 < tracker.stopping := by
    rw [hvalid.settling.stopping]
    exact length_pos_iff.mpr hany
  refine ⟨Nat.lt_succ_self _, ?_, ?_⟩
  · simp [run, hstopping]
  · simp [run, place]

omit [DecidableEq K] in
theorem Valid.resolves (hvalid : tracker.Valid)
    (hsettled : ∀ item, tracker.place item = .ended ∨ (tracker.works item).inApp = true) {call : ℕ}
    (hcall : call ∈ tracker.settling) :
    call ∉ tracker.waiters ∧ (tracker.resume call).resolved call = true := by
  have hall := hvalid.settling.allInApp_iff.mpr hsettled
  have hnone : tracker.waiters = [] := by
    by_contra hsome
    rw [hvalid.settling.waiters hsome] at hall
    cases hall
  have hgone : call ∉ tracker.settling.erase call := hvalid.settling.nodup.not_mem_erase
  refine ⟨by rw [hnone]; nofun, ?_⟩
  simp [resume, hall, resolved, hvalid.settling.settles call hcall, hgone]

/-- Stop as a barrier: what holds of a tracker, its next event and the runs after it. -/
structure StopBarrier (tracker : RelayWorkTracker K) : Prop where
  /-- When a `settle` call resolves, every item is finished or in an app call. -/
  settled : ∀ event, tracker.Enabled event → ∀ call, tracker.resolved call = false →
    (tracker.apply event).resolved call = true → ∀ item,
      (tracker.apply event).place item = .ended ∨ ((tracker.apply event).works item).inApp = true
  left : ∀ item, (tracker.works item).stopped = true → (tracker.works item).appCalls = 1 →
    tracker.Enabled (.leaveApp item) → ∀ events last,
      (tracker.apply (.leaveApp item)).Runs events last →
        ∀ event ∈ events, event.isSdkStep item = false
  /-- An item that starts while a `settle` call runs never enters an app call. -/
  outside : tracker.settling ≠ [] → ∀ events last, tracker.run.Runs events last →
    (last.works tracker.started).inApp = false
  /-- The task of an abandoned wait never runs. -/
  abandoned : ∀ id wait, tracker.locks.waits id = some wait → wait.phase = .abandoned →
    ∀ events last, tracker.Runs events last →
      ∃ after, last.locks.waits id = some after ∧ after.phase ≠ .ran
  released : ∀ id wait, tracker.locks.waits id = some wait → wait.phase = .abandoned →
    tracker.locks.free wait.key = true → tracker.Enabled (.grant id wait) ∧
      (tracker.apply (.grant id wait)).locks.free wait.key = true ∧
      (tracker.apply (.grant id wait)).locks.waits id = some { wait with phase := .released }
  /-- Once every item is finished or in an app call, every `settle` call goes on and resolves. -/
  resolves : (∀ item, tracker.place item = .ended ∨ (tracker.works item).inApp = true) →
    ∀ call ∈ tracker.settling, tracker.Enabled (.resume call) ∧
      (tracker.apply (.resume call)).resolved call = true

/-- Stop is a barrier in every state that a run reaches, with any interleaving of its events. -/
theorem stop_is_barrier (hruns : ({} : RelayWorkTracker K).Runs events tracker) :
    tracker.StopBarrier := by
  have hvalid := Valid.empty.runs hruns
  exact
    { settled := fun event henabled call hbefore hafter =>
        hvalid.settled henabled hbefore hafter
      left := fun item hstopped hcalls henabled events last hlater =>
        ((hvalid.left hstopped hcalls henabled).runs (hvalid.apply henabled) hlater).2
      outside := by
        intro hany events last hlater
        have hrun : tracker.run.Valid :=
          ⟨hvalid.settling.run, hvalid.waiting.run hvalid.settling⟩
        have houtside := (hvalid.outside_run hany).runs hrun hlater
        exact Bool.eq_false_iff.mpr fun hin =>
          houtside.2.2 (((hrun.runs hlater).settling.calls _).mp hin)
      abandoned := by
        intro id wait hwait hphase events last hlater
        have habandoned : tracker.Abandoned id := ⟨wait, hwait, .inl hphase⟩
        obtain ⟨after, hafter, hphases⟩ := habandoned.runs hvalid hlater
        exact ⟨after, hafter, by rcases hphases with h | h <;> rw [h] <;> nofun⟩
      released := by
        intro id wait hwait hphase hfree
        refine ⟨⟨hwait, .inr hphase, hfree⟩, ?_, ?_⟩
        · simpa [RelayWorkTracker.apply, Locks.grant, Locks.free, hphase] using hfree
        · simp [RelayWorkTracker.apply, Locks.grant, LockWait.turn, hphase]
      resolves := fun hsettled call hcall =>
        ⟨⟨hcall, (hvalid.resolves hsettled hcall).1⟩, (hvalid.resolves hsettled hcall).2⟩ }

/-- The first item holds a lock in an app call, the second waits for the lock, and the third does
SDK work. -/
def overlappingStops : RelayWorkTracker Unit :=
  [.run, .acquire 0 () true, .enterApp 0, .run, .acquire 1 () false, .run, .settle, .settle,
    .run].foldl apply {}

theorem stop_is_barrier_overlapping :
    overlappingStops.StopBarrier ∧ overlappingStops.settling = [1, 0] ∧
      overlappingStops.place 1 = .thrown := by
  have hfirst := Runs.nil.snoc (show Enabled ({} : RelayWorkTracker Unit) .run from trivial)
  have hholds := hfirst.snoc (show Enabled _ (.acquire 0 () true) from ⟨rfl, fun _ => rfl⟩)
  have hinApp := hholds.snoc (show Enabled _ (.enterApp 0) from .inl rfl)
  have hsecond := hinApp.snoc (show Enabled _ .run from trivial)
  have hwaits := hsecond.snoc (show Enabled _ (.acquire 1 () false) from ⟨rfl, nofun⟩)
  have hthird := hwaits.snoc (show Enabled _ .run from trivial)
  have hstop := hthird.snoc (show Enabled _ .settle from trivial)
  have hstops := hstop.snoc (show Enabled _ .settle from trivial)
  have hfourth := hstops.snoc (show Enabled _ .run from trivial)
  exact ⟨stop_is_barrier hfourth, rfl, rfl⟩

end RelayWorkTracker

end SignalProtocol.Relay

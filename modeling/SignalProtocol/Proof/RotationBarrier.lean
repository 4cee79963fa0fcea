import SignalProtocol.Proof.ManagerLog

/-! # The rotation barrier

While the writes of states are forward, a removal that no callback has covered keeps the barrier up,
and no callback clears a barrier that is newer than its own. -/

namespace SignalProtocol.Groups

open List Option

variable {state : DecryptedGroup} {caller : SyncCaller}

/-! ## The invariant -/

def Operation.Covers (world : GroupWorld) : Operation → Prop
  | checkAcceptedState revision _ => revision ∈ world.persisted
  | onSenderKeyRotation revision started _ =>
    revision ∈ world.persisted ∧ revision ∈ started ∧
      ∀ later ∈ world.persisted, later ∉ started → revision < later
  | clearSenderKeyRotationBarrier revision _ =>
    revision ∈ world.persisted ∧ revision ∈ world.rotated ∧
      ∀ later ∈ world.persisted, later ∉ world.rotated → revision < later
  | _ => True

structure BarrierHolds (world : GroupWorld) : Prop where
  stored : ∀ revision ∈ world.persisted, revision ≤ storedRevision world
  barrier : ∀ revision ∈ world.record.senderKeyRotationBarrier, revision ∈ world.persisted
  pending : ∀ revision ∈ world.persisted, revision ∉ world.rotated →
    ∃ barrier, world.record.senderKeyRotationBarrier = some barrier ∧ revision ≤ barrier
  operations : ∀ operation ∈ world.operations, operation.Covers world

section Steps

variable {self : GroupAccount} {world next : GroupWorld} {operation : Operation} {answer : Answer}
  {continued : Option Operation}

theorem GroupWorld.Fresh.barrierHolds (hfresh : world.Fresh) : BarrierHolds world where
  stored := by simp [hfresh.persisted]
  barrier := by simp [hfresh.barrier]
  pending := by simp [hfresh.persisted]
  operations := by simp [hfresh.operations]

def Operation.isOther : Operation → Bool
  | checkAcceptedState _ _ => false
  | onSenderKeyRotation _ _ _ => false
  | clearSenderKeyRotationBarrier _ _ => false
  | _ => true

theorem Operation.Covers.of_isOther (hother : operation.isOther = true) :
    operation.Covers world := by
  cases operation <;> trivial

theorem afterSync_isOther :
    ∀ operation ∈ afterSync self state caller, operation.isOther = true := by
  intro operation hop
  cases caller with
  | application => cases hop
  | submit change attempts =>
    cases hop
    rfl
  | join =>
    dsimp only [afterSync] at hop
    split at hop <;> cases hop
    rfl

theorem applyEntries_isOther {entries : List LogEntry} {hasMore : Bool} :
    ∀ operation ∈ applyEntries self state entries hasMore caller, operation.isOther = true := by
  intro operation hop
  cases entries with
  | nil =>
    dsimp only [applyEntries] at hop
    split at hop
    · cases hop
      rfl
    · split at hop
      · exact afterSync_isOther operation hop
      · cases hop
        rfl
  | cons entry rest =>
    dsimp only [applyEntries] at hop
    split at hop <;> cases hop
    rfl

theorem resume_isOther {continuation : Continuation} :
    ∀ operation ∈ resume self continuation, operation.isOther = true := by
  intro operation hop
  cases continuation with
  | sync caller =>
    dsimp only [resume] at hop
    cases hop
    rfl
  | apply state entries hasMore caller =>
    dsimp only [resume] at hop
    exact applyEntries_isOther operation hop
  | applyLast state entry =>
    dsimp only [resume] at hop
    split at hop <;> cases hop
    rfl
  | finish =>
    dsimp only [resume] at hop
    cases hop

inductive Leaves (world next : GroupWorld) : Operation → Option Operation → Prop
  | other (operation : Operation) (continued : Option Operation)
      (hother : ∀ left ∈ continued, left.isOther = true) : Leaves world next operation continued
  | retry (continuation : Continuation) (revision : ℤ)
      (hbarrier : world.record.senderKeyRotationBarrier = some revision) (hsame : next = world) :
      Leaves world next (.getSenderKeyRotationBarrier continuation)
        (some (.checkAcceptedState revision continuation))
  | start (revision : ℤ) (continuation : Continuation) (hsame : next = world) :
      Leaves world next (.checkAcceptedState revision continuation)
        (some (.onSenderKeyRotation revision world.persisted continuation))
  | complete (revision : ℤ) (started : List ℤ) (continuation : Continuation)
      (hnext : next = { world with rotated := world.rotated ++ started }) :
      Leaves world next (.onSenderKeyRotation revision started continuation)
        (some (.clearSenderKeyRotationBarrier revision continuation))
  | react (state after : DecryptedGroup) (change : DecryptedGroupChange)
      (continuation : Continuation)
      (hpersisted : next.persisted = world.persisted ++ [after.revision]) :
      Leaves world next (.storeChange state after change continuation)
        (some (.checkAcceptedState after.revision continuation))

theorem Operation.step_leaves (hstep : operation.step self world answer = some (next, continued)) :
    Leaves world next operation continued := by
  have hnone : ∀ left ∈ (none : Option Operation), left.isOther = true := by
    rintro _ ⟨⟩
  have hsome : ∀ {other : Operation}, other.isOther = true →
      ∀ left ∈ some other, left.isOther = true := by
    rintro other hother _ ⟨⟩
    exact hother
  cases operation with
  | getSenderKeyRotationBarrier continuation =>
    simp only [Operation.step] at hstep
    split at hstep
    · cases hstep
      exact .other _ _ resume_isOther
    · next revision hbarrier =>
        cases hstep
        exact .retry continuation revision hbarrier rfl
  | checkAcceptedState revision continuation =>
    simp only [Operation.step] at hstep
    split at hstep <;> cases hstep
    · exact .start revision continuation rfl
    · exact .other _ _ hnone
  | onSenderKeyRotation revision started continuation =>
    cases hstep
    exact .complete revision started continuation rfl
  | clearSenderKeyRotationBarrier revision continuation =>
    cases hstep
    exact .other _ _ resume_isOther
  | getGroupState caller =>
    simp only [Operation.step] at hstep
    split at hstep
    · cases hstep
      exact .other _ _ (hsome rfl)
    · split at hstep
      · cases hstep
        exact .other _ _ (hsome rfl)
      · split at hstep <;> cases hstep <;> exact .other _ _ (hsome rfl)
  | getGroup rule caller =>
    simp only [Operation.step] at hstep
    split at hstep
    · obtain ⟨snapshot, -, hnext⟩ := map_eq_some_iff.mp hstep
      cases hnext
      split
      · exact .other _ _ (hsome rfl)
      · exact .other _ _ hnone
    · split at hstep <;> cases hstep
      · exact .other _ _ afterSync_isOther
      · exact .other _ _ hnone
    · cases hstep
  | storeSnapshot snapshot caller =>
    cases hstep
    exact .other _ _ afterSync_isOther
  | getGroupChanges state caller =>
    simp only [Operation.step] at hstep
    split at hstep
    · split at hstep <;> cases hstep
      · exact .other _ _ hnone
      · exact .other _ _ applyEntries_isOther
    · cases hstep
  | storeChange state after change continuation =>
    simp only [Operation.step] at hstep
    split at hstep <;> cases hstep
    · exact .react state after change continuation rfl
    · exact .other _ _ resume_isOther
  | applyCarriedGroupChange revision entry =>
    simp only [Operation.step] at hstep
    split at hstep
    · cases hstep
      exact .other _ _ hnone
    · split at hstep <;> cases hstep
      · exact .other _ _ (hsome rfl)
      · exact .other _ _ hnone
  | readForSubmit change =>
    simp only [Operation.step] at hstep
    split at hstep <;> cases hstep <;> exact .other _ _ (hsome rfl)
  | submitGroupChange state change attempts =>
    simp only [Operation.step] at hstep
    split at hstep
    · cases hstep
      exact .other _ _ hnone
    · split at hstep
      · split at hstep
        · split at hstep
          · cases hstep
            exact .other _ _ resume_isOther
          · cases hstep
        · cases hstep
      · split at hstep <;> cases hstep
        · exact .other _ _ hnone
        · exact .other _ _ (hsome rfl)
  | joinViaInviteLink =>
    simp only [Operation.step] at hstep
    split at hstep
    · cases hstep
      exact .other _ _ (hsome rfl)
    · split at hstep <;> cases hstep <;> exact .other _ _ (hsome rfl)

section

variable (hcovers : operation.Covers world)

include hcovers

theorem Operation.Covers.congr (hpersist : next.persisted = world.persisted)
    (hrotated : next.rotated = world.rotated) : operation.Covers next := by
  unfold Operation.Covers at hcovers ⊢
  rw [hpersist, hrotated]
  exact hcovers

theorem Operation.Covers.rotation {started : List ℤ} :
    operation.Covers { world with rotated := world.rotated ++ started } := by
  cases operation with
  | clearSenderKeyRotationBarrier revision continuation =>
    obtain ⟨hpersist, hrotated, hlater⟩ := hcovers
    refine ⟨hpersist, mem_append_left _ hrotated, fun later hmem hnot => ?_⟩
    exact hlater later hmem fun hold => hnot (mem_append_left _ hold)
  | _ => exact hcovers

theorem Operation.Covers.removal {record : StoredGroupRecord} {newest : ℤ}
    (hnewest : ∀ revision ∈ world.persisted, revision ≤ newest) :
    operation.Covers { world with record, persisted := world.persisted ++ [newest] } := by
  have hlater : ∀ {revision : ℤ} {known : List ℤ}, revision ∈ world.persisted →
      revision ∈ known →
      (∀ later ∈ world.persisted, later ∉ known → revision < later) →
      ∀ later ∈ world.persisted ++ [newest], later ∉ known → revision < later := by
    intro revision known hmem hknown hold later hlater hnot
    obtain hprev | hnew := mem_append.mp hlater
    · exact hold later hprev hnot
    · obtain rfl := mem_singleton.mp hnew
      have hne : revision ≠ later := fun heq => hnot (heq ▸ hknown)
      have hle := hnewest revision hmem
      omega
  cases operation with
  | checkAcceptedState revision continuation => exact mem_append_left _ hcovers
  | onSenderKeyRotation revision started continuation =>
    obtain ⟨hpersist, hstart, hold⟩ := hcovers
    exact ⟨mem_append_left _ hpersist, hstart, hlater hpersist hstart hold⟩
  | clearSenderKeyRotationBarrier revision continuation =>
    obtain ⟨hpersist, hrotated, hold⟩ := hcovers
    exact ⟨mem_append_left _ hpersist, hrotated, hlater hpersist hrotated hold⟩
  | _ => trivial

end

theorem Effect.keepsCovers {other : Operation} (heffect : Effect world operation next)
    (hholds : BarrierHolds world) (hforward : storedRevision world ≤ storedRevision next)
    (hcovers : other.Covers world) : other.Covers next := by
  cases heffect with
  | quiet => exact hcovers
  | snapshot snapshot caller => exact hcovers.congr rfl rfl
  | change state after change continuation => exact hcovers.congr rfl rfl
  | removal state after change continuation =>
    exact hcovers.removal fun revision hmem =>
      Int.le_trans (hholds.stored revision hmem) hforward
  | rotation revision started continuation => exact hcovers.rotation
  | clear revision continuation => exact hcovers.congr rfl rfl
  | submission state change attempts entry hfollows => exact hcovers.congr rfl rfl

theorem clear_barrier (record : StoredGroupRecord) (revision : ℤ) :
    (record.clearSenderKeyRotationBarrier revision).senderKeyRotationBarrier =
      if record.senderKeyRotationBarrier = some revision then none
      else record.senderKeyRotationBarrier := by
  unfold StoredGroupRecord.clearSenderKeyRotationBarrier
  split <;> rfl

theorem Effect.keepsBarrier (heffect : Effect world operation next) (hholds : BarrierHolds world)
    (hforward : storedRevision world ≤ storedRevision next) (hcovers : operation.Covers world) :
    (∀ revision ∈ next.persisted, revision ≤ storedRevision next) ∧
      (∀ revision ∈ next.record.senderKeyRotationBarrier, revision ∈ next.persisted) ∧
      ∀ revision ∈ next.persisted, revision ∉ next.rotated →
        ∃ barrier, next.record.senderKeyRotationBarrier = some barrier ∧ revision ≤ barrier := by
  have hstored : ∀ revision ∈ world.persisted, revision ≤ storedRevision next :=
    fun revision hmem => Int.le_trans (hholds.stored revision hmem) hforward
  cases heffect with
  | quiet => exact ⟨hstored, hholds.barrier, hholds.pending⟩
  | snapshot snapshot caller => exact ⟨hstored, hholds.barrier, hholds.pending⟩
  | change state after change continuation => exact ⟨hstored, hholds.barrier, hholds.pending⟩
  | removal state after change continuation =>
    refine ⟨fun revision hmem => ?_, ?_, fun revision hmem _ => ?_⟩
    · obtain hold | hnew := mem_append.mp hmem
      · exact hstored revision hold
      · obtain rfl := mem_singleton.mp hnew
        exact Int.le_refl _
    · rintro _ ⟨⟩
      exact mem_append_right _ (mem_singleton.mpr rfl)
    · refine ⟨after.revision, rfl, ?_⟩
      obtain hold | hnew := mem_append.mp hmem
      · exact hstored revision hold
      · exact Int.le_of_eq (mem_singleton.mp hnew)
  | rotation revision started continuation =>
    refine ⟨hstored, hholds.barrier, fun later hmem hnot => hholds.pending later hmem ?_⟩
    exact fun hold => hnot (mem_append_left _ hold)
  | clear revision continuation =>
    obtain ⟨-, -, hlater⟩ := hcovers
    refine ⟨hstored, fun barrier hbarrier => ?_, fun pending hmem hnot => ?_⟩
    · rw [clear_barrier] at hbarrier
      split at hbarrier
      · cases hbarrier
      · exact hholds.barrier barrier hbarrier
    · obtain ⟨barrier, hbarrier, hle⟩ := hholds.pending pending hmem hnot
      refine ⟨barrier, ?_, hle⟩
      -- The callback covers everything that was persisted before it, so the barrier is newer.
      have hnewer : barrier ≠ revision := by
        rintro rfl
        have hlt := hlater pending hmem hnot
        omega
      rw [clear_barrier, if_neg]
      · exact hbarrier
      · rw [hbarrier]
        exact fun hsame => hnewer (Option.some.inj hsame)
  | submission state change attempts entry hfollows =>
    exact ⟨hstored, hholds.barrier, hholds.pending⟩

theorem Leaves.covers (hleaves : Leaves world next operation continued)
    (hholds : BarrierHolds world) (hcovers : operation.Covers world) :
    ∀ left ∈ continued, left.Covers next := by
  cases hleaves with
  | other operation continued hother =>
    exact fun left hleft => .of_isOther (hother left hleft)
  | retry continuation revision hbarrier hsame =>
    rintro _ ⟨⟩
    rw [hsame]
    exact hholds.barrier revision hbarrier
  | start revision continuation hsame =>
    rintro _ ⟨⟩
    rw [hsame]
    exact ⟨hcovers, hcovers, fun later hmem hnot => absurd hmem hnot⟩
  | complete revision started continuation hnext =>
    rintro _ ⟨⟩
    obtain ⟨hpersist, hstart, hlater⟩ := hcovers
    rw [hnext]
    refine ⟨hpersist, mem_append_right _ hstart, fun later hmem hnot => ?_⟩
    exact hlater later hmem fun hold => hnot (mem_append_right _ hold)
  | react state after change continuation hpersist =>
    rintro _ ⟨⟩
    change after.revision ∈ next.persisted
    rw [hpersist]
    exact mem_append_right _ (mem_singleton.mpr rfl)

theorem BarrierHolds.begin (hholds : BarrierHolds world) (hother : operation.isOther = true) :
    BarrierHolds (world.begin operation) :=
  { hholds with
    operations := by
      intro other hmem
      obtain hold | hnew := mem_append.mp hmem
      · exact (hholds.operations other hold).congr rfl rfl
      · obtain rfl := mem_singleton.mp hnew
        exact .of_isOther hother }

theorem BarrierHolds.step {event : GroupEvent} (hholds : BarrierHolds world)
    (hworld : FromServer world) (hforward : world.writesForward event = true)
    (hstep : world.step self event = some next) : BarrierHolds next := by
  have hrev := storedRevision_step hworld hforward hstep
  cases event with
  | sync =>
    cases hstep
    exact hholds.begin rfl
  | carried revision position =>
    obtain ⟨entry, -, rfl⟩ := map_eq_some_iff.mp hstep
    exact hholds.begin rfl
  | submit change =>
    cases hstep
    exact hholds.begin rfl
  | join =>
    cases hstep
    exact hholds.begin rfl
  | advance index answer =>
    obtain ⟨operation, after, continued, hmem, hafter, rfl⟩ := GroupWorld.step_advance hstep
    have hcovers := hholds.operations operation (mem_of_getElem? hmem)
    have heffect := Operation.step_effect hafter
    obtain ⟨hstored, hbarrier, hpend⟩ := heffect.keepsBarrier hholds hrev hcovers
    refine ⟨hstored, hbarrier, hpend, fun other hother => ?_⟩
    obtain hold | hleft := mem_replaceOperation hother
    · exact (heffect.keepsCovers hholds hrev (hholds.operations other hold)).congr rfl rfl
    · exact ((Operation.step_leaves hafter).covers hholds hcovers other hleft).congr rfl rfl
  | fail index =>
    cases hstep
    exact ⟨hholds.stored, hholds.barrier, hholds.pending, fun other hother =>
      (hholds.operations other (mem_of_mem_eraseIdx hother)).congr rfl rfl⟩
  | append entry =>
    simp only [GroupWorld.step] at hstep
    split at hstep
    · cases hstep
      exact ⟨hholds.stored, hholds.barrier, hholds.pending,
        fun other hother => (hholds.operations other hother).congr rfl rfl⟩
    · cases hstep
  | restart =>
    cases hstep
    exact ⟨hholds.stored, hholds.barrier, hholds.pending, fun _ hother => by cases hother⟩

theorem barrierHolds_reachable (hreach : (forwardRuns self).Reachable world) :
    BarrierHolds world := by
  have hboth : FromServer world ∧ BarrierHolds world := by
    refine hreach.invariant (motive := fun world => FromServer world ∧ BarrierHolds world)
      ?_ ?_
    · exact fun start hfresh => ⟨hfresh.fromServer, hfresh.barrierHolds⟩
    · rintro before after ⟨hworld, hholds⟩ ⟨event, hforward, hstep⟩
      exact ⟨hworld.step hstep, hholds.step hworld hforward hstep⟩
  exact hboth.2

/-- In a run whose writes are all forward, a removal that was persisted blocks every send until a
callback that began after it has completed: the barrier of it or of a later one is up. -/
theorem rotation_barrier_holds (self : GroupAccount) (rawGroupId : String) (world : GroupWorld)
    (hreachable : (forwardRuns self).Reachable world) :
    ∀ revision ∈ world.persisted, revision ∉ world.rotated →
      ∃ barrier, world.record.senderKeyRotationBarrier = some barrier ∧ revision ≤ barrier ∧
        ∃ error, assertGroupSendAllowed self rawGroupId world.record = .error error := by
  intro revision hmem hnot
  obtain ⟨barrier, hbarrier, hle⟩ := (barrierHolds_reachable hreachable).pending revision hmem hnot
  refine ⟨barrier, hbarrier, hle, ?_⟩
  unfold assertGroupSendAllowed
  rw [hbarrier]
  exact ⟨_, rfl⟩

end Steps

/-- The first sync waits before its store. -/
def lateCallbackRun : List GroupEvent :=
  syncUntilStore 0 ++ syncUntilStore 1 ++ [.advance 1 .none, .advance 1 .none] ++
    [.sync, .advance 2 .none, .advance 2 .none] ++
    [.advance 1 .none, .advance 1 .none, .advance 1 .none] ++
    [.advance 0 .none, .advance 2 .none, .advance 2 .none]

theorem late_callback_clears_newer_barrier :
    ¬ ∀ self rawGroupId world, (groupRuns self).Reachable world →
      ∀ revision ∈ world.persisted, revision ∉ world.rotated →
        ∃ error, assertGroupSendAllowed self rawGroupId world.record = .error error := by
  intro hblocked
  have hrun : (exampleWorld.run exampleAccount lateCallbackRun).map (fun world =>
      (decide ((2 : ℤ) ∈ world.persisted ∧ (2 : ℤ) ∉ world.rotated),
        (assertGroupSendAllowed exampleAccount "group" world.record).isOk)) =
      some (true, true) := by
    decide
  obtain ⟨world, hworld, hfacts⟩ := map_eq_some_iff.mp hrun
  obtain ⟨hpending, hallowed⟩ := Prod.mk.inj hfacts
  obtain ⟨hpersisted, hrotated⟩ := of_decide_eq_true hpending
  obtain ⟨error, hrefused⟩ := hblocked exampleAccount "group" world
    (GroupWorld.reachable_run exampleWorld_fresh hworld) 2 hpersisted hrotated
  rw [hrefused] at hallowed
  cases hallowed

theorem singleRun_blocked :
    ∃ world error, exampleWorld.runForward exampleAccount
        (syncUntilStore 0 ++ [.advance 0 .none]) = some world ∧
      assertGroupSendAllowed exampleAccount "group" world.record = .error error := by
  have hrun : (exampleWorld.runForward exampleAccount
      (syncUntilStore 0 ++ [.advance 0 .none])).map
        (fun world => decide ((1 : ℤ) ∈ world.persisted ∧ (1 : ℤ) ∉ world.rotated)) =
      some true := by
    decide
  obtain ⟨world, hworld, hfacts⟩ := map_eq_some_iff.mp hrun
  obtain ⟨hpersisted, hrotated⟩ := of_decide_eq_true hfacts
  obtain ⟨-, -, -, error, hrefused⟩ := rotation_barrier_holds exampleAccount "group" world
    ⟨exampleWorld, exampleWorld_fresh, GroupWorld.reachable_runForward hworld⟩ 1 hpersisted hrotated
  exact ⟨world, error, hworld, hrefused⟩

end SignalProtocol.Groups

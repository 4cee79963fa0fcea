import SignalProtocol.Groups.ManagerRun
import SignalProtocol.Proof.GroupMembership

/-! # Stored states and the log of the server

Every state that an operation holds or stores is one that the log gives. -/

namespace SignalProtocol.Groups

open Results List Option

variable {event : GroupEvent} {events : List GroupEvent} {index : ℕ} {continuation : Continuation}

/-- The log gives a state at its revision. -/
def GroupLog.gives (log : GroupLog) (state : DecryptedGroup) : Prop :=
  ∃ index : ℕ, log.states[index]? = some state ∧ state.revision = index

/-- The first state has revision zero, and every entry follows the state before it. -/
structure GroupLog.Valid (log : GroupLog) : Prop where
  initial : log.initial.revision = 0
  entries : ∀ (index : ℕ) (entry : LogEntry), log.entries[index]? = some entry →
    ∃ previous, log.states[index]? = some previous ∧ entry.follows previous = true

namespace GroupLog

variable {log : GroupLog} {state next : DecryptedGroup} {entry : LogEntry}

@[simp] theorem states_zero : log.states[0]? = some log.initial := rfl

theorem states_succ (index : ℕ) :
    log.states[index + 1]? = (log.entries[index]?).map LogEntry.state := by
  simp [states]

theorem follows_eq_true_iff {previous : DecryptedGroup} :
    entry.follows previous = true ↔
      entry.change.revision = previous.revision + 1 ∧
        entry.state.revision = previous.revision + 1 ∧
        ∀ next, applyVerifiedChange previous entry.change = .ok next → next = entry.state := by
  unfold LogEntry.follows
  cases applyVerifiedChange previous entry.change with
  | ok next => simp [Except.toOption]
  | error message => simp [Except.toOption]

theorem Valid.revision (hvalid : log.Valid)
    (hstate : log.states[index]? = some state) : state.revision = index := by
  induction index generalizing state with
  | zero =>
    obtain rfl : log.initial = state := by simpa using hstate
    simpa using hvalid.initial
  | succ index ih =>
    rw [states_succ, map_eq_some_iff] at hstate
    obtain ⟨entry, hentry, rfl⟩ := hstate
    obtain ⟨previous, hprev, hfollows⟩ := hvalid.entries index entry hentry
    obtain ⟨-, hrev, -⟩ := follows_eq_true_iff.mp hfollows
    rw [hrev, ih hprev]
    push_cast
    rfl

theorem Valid.gives (hvalid : log.Valid) (hstate : log.states[index]? = some state) :
    log.gives state :=
  ⟨index, hstate, hvalid.revision hstate⟩

theorem Valid.gives_next (hvalid : log.Valid) (hstate : log.gives state)
    (hentry : entry ∈ log.entries) (hok : applyVerifiedChange state entry.change = .ok next) :
    log.gives next ∧ next.revision = state.revision + 1 := by
  obtain ⟨index, hidx⟩ := mem_iff_getElem?.mp hentry
  obtain ⟨previous, hprev, hfollows⟩ := hvalid.entries index entry hidx
  obtain ⟨hchange, hrev, hhonest⟩ := follows_eq_true_iff.mp hfollows
  obtain ⟨-, hstructural, happlied, -⟩ := applyVerifiedChange_eq_ok hok
  simp only [validateChangeStructure, append_eq_nil_iff] at hstructural
  obtain ⟨-, hsequence, -⟩ := applied_of_structuralErrors hstructural.2
  obtain ⟨position, hpos, hheld⟩ := hstate
  have hsame : position = index := by
    have hpreviousRevision := hvalid.revision hprev
    omega
  subst hsame
  obtain rfl : previous = state := by
    rw [hprev] at hpos
    exact Option.some.inj hpos
  obtain rfl := hhonest next hok
  have hnext : log.states[position + 1]? = some entry.state := by
    rw [states_succ, hidx, map_some]
  exact ⟨hvalid.gives hnext, hrev⟩

theorem entries_append (entry : LogEntry) :
    (log.append entry).entries = log.entries ++ [entry] := rfl

theorem states_append (entry : LogEntry) :
    (log.append entry).states = log.states ++ [entry.state] := by
  simp [states, append]

theorem gives_append (hstate : log.gives state) (entry : LogEntry) :
    (log.append entry).gives state := by
  obtain ⟨index, hidx, hrev⟩ := hstate
  refine ⟨index, ?_, hrev⟩
  rw [states_append, getElem?_append_left (List.getElem?_eq_some_iff.mp hidx).1]
  exact hidx

theorem states_head : log.states[log.entries.length]? = some log.head := by
  unfold states head
  obtain hempty | ⟨earlier, last, hlast⟩ := eq_nil_or_concat log.entries
  · rw [hempty]
    rfl
  · simp [hlast]

theorem Valid.append (hvalid : log.Valid) (hfollows : entry.follows log.head = true) :
    (log.append entry).Valid where
  initial := hvalid.initial
  entries := by
    intro index other hother
    rcases Nat.lt_trichotomy index log.entries.length with hearlier | rfl | hlater
    · have hold : log.entries[index]? = some other := by
        rw [entries_append, getElem?_append_left hearlier] at hother
        exact hother
      obtain ⟨previous, hprev, hpreviousFollows⟩ := hvalid.entries index other hold
      refine ⟨previous, ?_, hpreviousFollows⟩
      rw [states_append, getElem?_append_left (List.getElem?_eq_some_iff.mp hprev).1]
      exact hprev
    · have hnew : entry = other := by
        rw [entries_append, getElem?_concat_length] at hother
        exact Option.some.inj hother
      refine ⟨log.head, ?_, hnew ▸ hfollows⟩
      rw [states_append, getElem?_append_left (by simp [states])]
      exact states_head
    · have hnone : (log.append entry).entries[index]? = none := by
        rw [List.getElem?_eq_none_iff]
        simp only [entries_append, length_append, length_singleton]
        omega
      rw [hnone] at hother
      cases hother

end GroupLog

section Operations

variable (log : GroupLog)

def Continuation.FromLog : Continuation → Prop
  | sync _ => True
  | apply state entries _ _ => log.gives state ∧ ∀ entry ∈ entries, entry ∈ log.entries
  | applyLast state entry => log.gives state ∧ entry ∈ log.entries
  | finish => True

def SnapshotRule.FromLog : SnapshotRule → Prop
  | revoked state => log.gives state
  | _ => True

def Operation.FromLog : Operation → Prop
  | getSenderKeyRotationBarrier next => next.FromLog log
  | checkAcceptedState _ next => next.FromLog log
  | onSenderKeyRotation _ _ next => next.FromLog log
  | clearSenderKeyRotationBarrier _ next => next.FromLog log
  | getGroupState _ => True
  | getGroup rule _ => rule.FromLog log
  | storeSnapshot snapshot _ => log.gives snapshot
  | getGroupChanges state _ => log.gives state
  | storeChange state next _ continuation =>
    log.gives next ∧ next.revision = state.revision + 1 ∧ continuation.FromLog log
  | applyCarriedGroupChange _ entry => entry ∈ log.entries
  | readForSubmit _ => True
  | submitGroupChange state _ _ => log.gives state
  | joinViaInviteLink => True

def Continues (continued : Option Operation) : Prop :=
  ∀ operation ∈ continued, operation.FromLog log

end Operations

section Append

variable {log : GroupLog}

theorem Continuation.FromLog.append (hcont : continuation.FromLog log) (entry : LogEntry) :
    continuation.FromLog (log.append entry) := by
  have hgrows : ∀ {other}, other ∈ log.entries → other ∈ (log.append entry).entries :=
    fun hother => mem_append_left _ hother
  cases continuation with
  | sync caller => trivial
  | apply state entries hasMore caller =>
    exact ⟨GroupLog.gives_append hcont.1 entry, fun other hother => hgrows (hcont.2 other hother)⟩
  | applyLast state last =>
    exact ⟨GroupLog.gives_append hcont.1 entry, hgrows hcont.2⟩
  | finish => trivial

theorem SnapshotRule.FromLog.append {rule : SnapshotRule} (hrule : rule.FromLog log)
    (entry : LogEntry) : rule.FromLog (log.append entry) := by
  cases rule with
  | first => trivial
  | pending revision => trivial
  | restored revision => trivial
  | revoked state => exact GroupLog.gives_append hrule entry
  | joined revision => trivial

theorem Operation.FromLog.append {operation : Operation} (hop : operation.FromLog log)
    (entry : LogEntry) : operation.FromLog (log.append entry) := by
  cases operation with
  | getSenderKeyRotationBarrier next => exact Continuation.FromLog.append hop entry
  | checkAcceptedState revision next => exact Continuation.FromLog.append hop entry
  | onSenderKeyRotation revision started next =>
    exact Continuation.FromLog.append hop entry
  | clearSenderKeyRotationBarrier revision next =>
    exact Continuation.FromLog.append hop entry
  | getGroupState caller => trivial
  | getGroup rule caller => exact SnapshotRule.FromLog.append hop entry
  | storeSnapshot snapshot caller => exact GroupLog.gives_append hop entry
  | getGroupChanges state caller => exact GroupLog.gives_append hop entry
  | storeChange state next change continuation =>
    exact ⟨GroupLog.gives_append hop.1 entry, hop.2.1, hop.2.2.append entry⟩
  | applyCarriedGroupChange revision carried => exact mem_append_left _ hop
  | readForSubmit change => trivial
  | submitGroupChange state change attempts => exact GroupLog.gives_append hop entry
  | joinViaInviteLink => trivial

end Append

section Continued

variable {self : GroupAccount} {log : GroupLog}

theorem continues_none : Continues log none := by
  rintro _ ⟨⟩

theorem continues_some {operation : Operation} (hop : operation.FromLog log) :
    Continues log (some operation) := by
  rintro _ ⟨⟩
  exact hop

theorem afterSync_fromLog {state : DecryptedGroup} (hstate : log.gives state)
    (caller : SyncCaller) : Continues log (afterSync self state caller) := by
  cases caller with
  | application => exact continues_none
  | submit change attempts => exact continues_some hstate
  | join =>
    dsimp only [afterSync]
    split
    · exact continues_none
    · exact continues_some trivial

theorem applyEntries_fromLog (hvalid : log.Valid) {state : DecryptedGroup}
    {entries : List LogEntry} (hstate : log.gives state)
    (hentries : ∀ entry ∈ entries, entry ∈ log.entries) (hasMore : Bool) (caller : SyncCaller) :
    Continues log (applyEntries self state entries hasMore caller) := by
  cases entries with
  | nil =>
    unfold applyEntries
    dsimp only
    split
    · exact continues_some hstate
    · split
      · exact afterSync_fromLog hstate caller
      · exact continues_some hstate
  | cons entry rest =>
    obtain ⟨hentry, hrest⟩ := forall_mem_cons.mp hentries
    unfold applyEntries
    dsimp only
    split
    · exact continues_none
    · next next hok =>
        obtain ⟨hnext, hrev⟩ := hvalid.gives_next hstate hentry hok
        exact continues_some ⟨hnext, hrev, hnext, hrest⟩

theorem resume_fromLog (hvalid : log.Valid)
    (hcont : continuation.FromLog log) : Continues log (resume self continuation) := by
  cases continuation with
  | sync caller => exact continues_some trivial
  | apply state entries hasMore caller =>
    exact applyEntries_fromLog hvalid hcont.1 hcont.2 hasMore caller
  | applyLast state entry =>
    unfold resume
    dsimp only
    split
    · exact continues_none
    · next next hok =>
        obtain ⟨hnext, hrev⟩ := hvalid.gives_next hcont.1 hcont.2 hok
        exact continues_some ⟨hnext, hrev, trivial⟩
  | finish => exact continues_none

end Continued

/-! ## Steps -/

inductive Effect (world : GroupWorld) : Operation → GroupWorld → Prop
  | quiet (operation : Operation) : Effect world operation world
  | snapshot (snapshot : DecryptedGroup) (caller : SyncCaller) :
      Effect world (.storeSnapshot snapshot caller)
        { world with record := world.record.storeGroupState snapshot }
  | change (state next : DecryptedGroup) (change : DecryptedGroupChange)
      (continuation : Continuation) :
      Effect world (.storeChange state next change continuation)
        { world with record := world.record.storeGroupState next }
  | removal (state next : DecryptedGroup) (change : DecryptedGroupChange)
      (continuation : Continuation) :
      Effect world (.storeChange state next change continuation)
        { world with
          record := world.record.storeGroupStateWithSenderKeyRotationBarrier next
          persisted := world.persisted ++ [next.revision] }
  | rotation (revision : ℤ) (started : List ℤ) (continuation : Continuation) :
      Effect world (.onSenderKeyRotation revision started continuation)
        { world with rotated := world.rotated ++ started }
  | clear (revision : ℤ) (continuation : Continuation) :
      Effect world (.clearSenderKeyRotationBarrier revision continuation)
        { world with record := world.record.clearSenderKeyRotationBarrier revision }
  | submission (state : DecryptedGroup) (change : DecryptedGroupChange) (attempts : ℕ)
      (entry : LogEntry) (hfollows : entry.follows world.log.head = true) :
      Effect world (.submitGroupChange state change attempts)
        { world with log := world.log.append entry }

section Step

variable {self : GroupAccount} {world next : GroupWorld} {operation : Operation} {answer : Answer}
  {continued : Option Operation}

theorem Operation.step_effect (hstep : operation.step self world answer = some (next, continued)) :
    Effect world operation next := by
  cases operation with
  | getSenderKeyRotationBarrier continuation =>
    simp only [Operation.step] at hstep
    split at hstep <;> cases hstep <;> exact .quiet _
  | checkAcceptedState revision continuation =>
    simp only [Operation.step] at hstep
    split at hstep <;> cases hstep <;> exact .quiet _
  | onSenderKeyRotation revision started continuation =>
    cases hstep
    exact .rotation ..
  | clearSenderKeyRotationBarrier revision continuation =>
    cases hstep
    exact .clear ..
  | getGroupState caller =>
    simp only [Operation.step] at hstep
    split at hstep
    · cases hstep
      exact .quiet _
    · split at hstep
      · cases hstep
        exact .quiet _
      · split at hstep <;> cases hstep <;> exact .quiet _
  | getGroup rule caller =>
    simp only [Operation.step] at hstep
    split at hstep
    · obtain ⟨snapshot, -, hnext⟩ := map_eq_some_iff.mp hstep
      cases hnext
      exact .quiet _
    · split at hstep <;> cases hstep <;> exact .quiet _
    · cases hstep
  | storeSnapshot snapshot caller =>
    cases hstep
    exact .snapshot ..
  | getGroupChanges state caller =>
    simp only [Operation.step] at hstep
    split at hstep
    · split at hstep <;> cases hstep <;> exact .quiet _
    · cases hstep
  | storeChange state after change continuation =>
    simp only [Operation.step] at hstep
    split at hstep <;> cases hstep
    · exact .removal ..
    · exact .change ..
  | applyCarriedGroupChange revision entry =>
    simp only [Operation.step] at hstep
    split at hstep
    · cases hstep
      exact .quiet _
    · split at hstep <;> cases hstep <;> exact .quiet _
  | readForSubmit change =>
    simp only [Operation.step] at hstep
    split at hstep <;> cases hstep <;> exact .quiet _
  | submitGroupChange state change attempts =>
    simp only [Operation.step] at hstep
    split at hstep
    · cases hstep
      exact .quiet _
    · split at hstep
      · split at hstep
        · split at hstep
          · next hfollows =>
              cases hstep
              exact .submission _ _ _ _ hfollows
          · cases hstep
        · cases hstep
      · split at hstep <;> cases hstep <;> exact .quiet _
  | joinViaInviteLink =>
    simp only [Operation.step] at hstep
    split at hstep
    · cases hstep
      exact .quiet _
    · split at hstep <;> cases hstep <;> exact .quiet _

structure FromServer (world : GroupWorld) : Prop where
  valid : world.log.Valid
  stored : ∀ state ∈ world.record.state, world.log.gives state
  operations : ∀ operation ∈ world.operations, operation.FromLog world.log

theorem Operation.step_continues (hvalid : world.log.Valid)
    (hstored : ∀ state ∈ world.record.state, world.log.gives state)
    (hop : operation.FromLog world.log)
    (hstep : operation.step self world answer = some (next, continued)) :
    Continues next.log continued := by
  cases operation with
  | getSenderKeyRotationBarrier continuation =>
    simp only [Operation.step] at hstep
    split at hstep <;> cases hstep
    · exact resume_fromLog hvalid hop
    · exact continues_some hop
  | checkAcceptedState revision continuation =>
    simp only [Operation.step] at hstep
    split at hstep <;> cases hstep
    · exact continues_some hop
    · exact continues_none
  | onSenderKeyRotation revision started continuation =>
    cases hstep
    exact continues_some hop
  | clearSenderKeyRotationBarrier revision continuation =>
    cases hstep
    exact resume_fromLog hvalid hop
  | getGroupState caller =>
    simp only [Operation.step] at hstep
    split at hstep
    · cases hstep
      exact continues_some trivial
    · next cached hcached =>
        split at hstep
        · cases hstep
          exact continues_some trivial
        · split at hstep <;> cases hstep
          · exact continues_some trivial
          · exact continues_some (hstored cached hcached)
  | getGroup rule caller =>
    simp only [Operation.step] at hstep
    split at hstep
    · obtain ⟨snapshot, hsnapshot, hnext⟩ := map_eq_some_iff.mp hstep
      cases hnext
      split
      · exact continues_some (hvalid.gives hsnapshot)
      · exact continues_none
    · split at hstep <;> cases hstep
      · exact afterSync_fromLog hop caller
      · exact continues_none
    · cases hstep
  | storeSnapshot snapshot caller =>
    cases hstep
    exact afterSync_fromLog hop caller
  | getGroupChanges state caller =>
    simp only [Operation.step] at hstep
    split at hstep
    · split at hstep <;> cases hstep
      · exact continues_none
      · refine applyEntries_fromLog hvalid hop (fun entry hentry => ?_) _ _
        exact mem_of_mem_drop (mem_of_mem_take hentry)
    · cases hstep
  | storeChange state after change continuation =>
    simp only [Operation.step] at hstep
    split at hstep <;> cases hstep
    · exact continues_some hop.2.2
    · exact resume_fromLog hvalid hop.2.2
  | applyCarriedGroupChange revision entry =>
    simp only [Operation.step] at hstep
    split at hstep
    · cases hstep
      exact continues_none
    · next state hstate =>
        split at hstep <;> cases hstep
        · exact continues_some ⟨hstored state hstate, hop⟩
        · exact continues_none
  | readForSubmit change =>
    simp only [Operation.step] at hstep
    split at hstep <;> cases hstep
    · exact continues_some trivial
    · next state hstate => exact continues_some (hstored state hstate)
  | submitGroupChange state change attempts =>
    simp only [Operation.step] at hstep
    split at hstep
    · cases hstep
      exact continues_none
    · split at hstep
      · split at hstep
        · split at hstep
          · next entry hfollows =>
              cases hstep
              refine resume_fromLog (hvalid.append hfollows)
                ⟨GroupLog.gives_append hop entry, ?_⟩
              simp [GroupLog.append]
          · cases hstep
        · cases hstep
      · split at hstep <;> cases hstep
        · exact continues_none
        · exact continues_some trivial
  | joinViaInviteLink =>
    simp only [Operation.step] at hstep
    split at hstep
    · cases hstep
      exact continues_some trivial
    · split at hstep <;> cases hstep <;> exact continues_some trivial

theorem Effect.log (heffect : Effect world operation next) :
    next.log = world.log ∨
      ∃ entry, entry.follows world.log.head = true ∧ next.log = world.log.append entry := by
  cases heffect with
  | quiet => exact .inl rfl
  | snapshot snapshot caller => exact .inl rfl
  | change state next change continuation => exact .inl rfl
  | removal state next change continuation => exact .inl rfl
  | rotation revision started continuation => exact .inl rfl
  | clear revision continuation => exact .inl rfl
  | submission state change attempts entry hfollows => exact .inr ⟨entry, hfollows, rfl⟩

theorem clear_state (record : StoredGroupRecord) (revision : ℤ) :
    (record.clearSenderKeyRotationBarrier revision).state = record.state := by
  unfold StoredGroupRecord.clearSenderKeyRotationBarrier
  split <;> rfl

theorem Effect.stored (heffect : Effect world operation next)
    (hstored : ∀ state ∈ world.record.state, world.log.gives state)
    (hop : operation.FromLog world.log) : ∀ state ∈ next.record.state, next.log.gives state := by
  cases heffect with
  | quiet => exact hstored
  | snapshot snapshot caller =>
    rintro _ ⟨⟩
    exact hop
  | change state next change continuation =>
    rintro _ ⟨⟩
    exact hop.1
  | removal state next change continuation =>
    rintro _ ⟨⟩
    exact hop.1
  | rotation revision started continuation => exact hstored
  | clear revision continuation =>
    intro state hstate
    rw [clear_state] at hstate
    exact hstored state hstate
  | submission state change attempts entry hfollows =>
    exact fun stored hmem => GroupLog.gives_append (hstored stored hmem) entry

theorem mem_replaceOperation {operations : List Operation} {other : Operation}
    (hother : other ∈ replaceOperation operations index continued) :
    other ∈ operations ∨ continued = some other := by
  cases continued with
  | none => exact .inl (mem_of_mem_eraseIdx hother)
  | some next =>
    obtain hold | rfl := mem_or_eq_of_mem_set hother
    · exact .inl hold
    · exact .inr rfl

theorem GroupWorld.step_advance (hstep : world.step self (.advance index answer) = some next) :
    ∃ operation after continued, world.operations[index]? = some operation ∧
      operation.step self world answer = some (after, continued) ∧
      next = { after with
        operations := replaceOperation world.operations index continued } := by
  simp only [GroupWorld.step, bind_eq_bind, bind_eq_some_iff] at hstep
  obtain ⟨operation, hop, ⟨after, continued⟩, hafter, hnext⟩ := hstep
  exact ⟨operation, after, continued, hop, hafter, (Option.some.inj hnext).symm⟩

theorem FromServer.begin (hworld : FromServer world) (hop : operation.FromLog world.log) :
    FromServer (world.begin operation) :=
  { hworld with
    operations := by
      intro other hother
      obtain hold | hnew := mem_append.mp hother
      · exact hworld.operations other hold
      · obtain rfl := mem_singleton.mp hnew
        exact hop }

theorem FromServer.step (hworld : FromServer world)
    (hstep : world.step self event = some next) : FromServer next := by
  cases event with
  | sync =>
    cases hstep
    exact hworld.begin trivial
  | carried revision position =>
    obtain ⟨entry, hentry, rfl⟩ := map_eq_some_iff.mp hstep
    exact hworld.begin (mem_of_getElem? hentry)
  | submit change =>
    cases hstep
    exact hworld.begin trivial
  | join =>
    cases hstep
    exact hworld.begin trivial
  | advance index answer =>
    obtain ⟨operation, after, continued, hmem, hafter, rfl⟩ := GroupWorld.step_advance hstep
    have hop := hworld.operations operation (mem_of_getElem? hmem)
    have heffect := Operation.step_effect hafter
    have hcontinued :=
      Operation.step_continues hworld.valid hworld.stored hop hafter
    have hstored := heffect.stored hworld.stored hop
    refine ⟨?_, hstored, fun other hother => ?_⟩
    · obtain hsame | ⟨entry, hfollows, hlog⟩ := heffect.log
      · exact hsame ▸ hworld.valid
      · exact hlog ▸ hworld.valid.append hfollows
    · obtain hold | hleft := mem_replaceOperation hother
      · have hheld := hworld.operations other hold
        obtain hsame | ⟨entry, -, hlog⟩ := heffect.log
        · exact hsame ▸ hheld
        · exact hlog ▸ hheld.append entry
      · exact hcontinued other hleft
  | fail index =>
    cases hstep
    exact ⟨hworld.valid, hworld.stored,
      fun other hother => hworld.operations other (mem_of_mem_eraseIdx hother)⟩
  | append entry =>
    simp only [GroupWorld.step] at hstep
    split at hstep
    · next hfollows =>
        cases hstep
        exact ⟨hworld.valid.append hfollows,
          fun state hstate => GroupLog.gives_append (hworld.stored state hstate) entry,
          fun other hother => (hworld.operations other hother).append entry⟩
    · cases hstep
  | restart =>
    cases hstep
    exact ⟨hworld.valid, hworld.stored, fun _ hother => by cases hother⟩

end Step

/-- A write of an operation leaves no later state behind: the store holds none beyond the entry or
the snapshot that the operation writes. -/
def Operation.writesForward (record : StoredGroupRecord) : Operation → Bool
  | storeSnapshot snapshot _ => record.state.all fun stored => stored.revision ≤ snapshot.revision
  | storeChange state _ _ _ => record.state.all fun stored => stored.revision ≤ state.revision + 1
  | _ => true

def GroupWorld.writesForward (world : GroupWorld) : GroupEvent → Bool
  | .advance index _ =>
    (world.operations[index]?).all fun operation => operation.writesForward world.record
  | _ => true

/-- A record without a pending rotation, and no operation yet. -/
structure GroupWorld.Fresh (world : GroupWorld) : Prop where
  valid : world.log.Valid
  stored : ∀ state ∈ world.record.state, world.log.gives state
  barrier : world.record.senderKeyRotationBarrier = none
  operations : world.operations = []
  persisted : world.persisted = []
  rotated : world.rotated = []

def groupRuns (self : GroupAccount) : TransitionSystem GroupWorld where
  init := GroupWorld.Fresh
  step world next := ∃ event, world.step self event = some next

/-- The runs in which every write of a state is forward. -/
def forwardRuns (self : GroupAccount) : TransitionSystem GroupWorld where
  init := GroupWorld.Fresh
  step world next := ∃ event, world.writesForward event = true ∧ world.step self event = some next

/-- The revision of the cached state, as the source reads it. -/
def storedRevision (world : GroupWorld) : ℤ :=
  (world.record.state.map DecryptedGroup.revision).getD (-1)

section Runs

variable {self : GroupAccount} {world next : GroupWorld}

theorem GroupWorld.Fresh.fromServer (hfresh : world.Fresh) : FromServer world :=
  { hfresh with
    operations := by
      rw [hfresh.operations]
      exact fun _ hother => by cases hother }

theorem reachable_fromServer (hreach : (groupRuns self).Reachable world) : FromServer world := by
  refine hreach.invariant ?_ ?_
  · exact fun start hfresh => hfresh.fromServer
  · rintro before after hbefore ⟨event, hstep⟩
    exact hbefore.step hstep

theorem forward_reachable (hreach : (forwardRuns self).Reachable world) :
    (groupRuns self).Reachable world := by
  refine hreach.invariant ?_ ?_
  · exact fun start hfresh => .of_init hfresh
  · rintro before after hbefore ⟨event, -, hstep⟩
    exact hbefore.step ⟨event, hstep⟩

theorem storedRevision_le {revision : ℤ} (hnonneg : 0 ≤ revision)
    (hforward : (world.record.state.all fun stored => stored.revision ≤ revision) = true) :
    storedRevision world ≤ revision := by
  unfold storedRevision
  cases hstate : world.record.state with
  | none =>
    rw [map_none, getD_none]
    omega
  | some stored => simpa [hstate] using hforward

theorem gives_nonneg {log : GroupLog} {state : DecryptedGroup} (hstate : log.gives state) :
    0 ≤ state.revision := by
  obtain ⟨index, -, hrev⟩ := hstate
  omega

theorem Effect.storedRevision_le {operation : Operation} (heffect : Effect world operation next)
    (hop : operation.FromLog world.log) (hforward : operation.writesForward world.record = true) :
    storedRevision world ≤ storedRevision next := by
  cases heffect with
  | quiet => exact Int.le_refl _
  | snapshot snapshot caller => exact Groups.storedRevision_le (gives_nonneg hop) hforward
  | change state after change continuation =>
    obtain ⟨hgives, hrev, -⟩ := hop
    change storedRevision world ≤ after.revision
    refine Groups.storedRevision_le (gives_nonneg hgives) ?_
    rw [hrev]
    exact hforward
  | removal state after change continuation =>
    obtain ⟨hgives, hrev, -⟩ := hop
    change storedRevision world ≤ after.revision
    refine Groups.storedRevision_le (gives_nonneg hgives) ?_
    rw [hrev]
    exact hforward
  | rotation revision started continuation => exact Int.le_refl _
  | clear revision continuation =>
    refine Int.le_of_eq ?_
    unfold storedRevision
    rw [clear_state]
  | submission state change attempts entry hfollows => exact Int.le_refl _

theorem storedRevision_step (hworld : FromServer world)
    (hforward : world.writesForward event = true) (hstep : world.step self event = some next) :
    storedRevision world ≤ storedRevision next := by
  cases event with
  | sync =>
    cases hstep
    exact Int.le_refl _
  | carried revision position =>
    obtain ⟨entry, -, rfl⟩ := map_eq_some_iff.mp hstep
    exact Int.le_refl _
  | submit change =>
    cases hstep
    exact Int.le_refl _
  | join =>
    cases hstep
    exact Int.le_refl _
  | advance index answer =>
    obtain ⟨operation, after, continued, hmem, hafter, rfl⟩ := GroupWorld.step_advance hstep
    have hop := hworld.operations operation (mem_of_getElem? hmem)
    refine (Operation.step_effect hafter).storedRevision_le hop ?_
    simpa [GroupWorld.writesForward, hmem] using hforward
  | fail index =>
    cases hstep
    exact Int.le_refl _
  | append entry =>
    simp only [GroupWorld.step] at hstep
    split at hstep
    · cases hstep
      exact Int.le_refl _
    · cases hstep
  | restart =>
    cases hstep
    exact Int.le_refl _

end Runs

def exampleAccount : GroupAccount where
  aci := List.replicate 16 1
  pni := none

def exampleStart : DecryptedGroup := { exampleGroup with revision := 0, pendingMembers := [] }

def exampleFirst : DecryptedGroupChange where
  editorServiceIdBytes := serviceIdAci :: List.replicate 16 1
  revision := 1
  deleteMembers := [List.replicate 16 2]

def exampleSecond : DecryptedGroupChange where
  editorServiceIdBytes := serviceIdAci :: List.replicate 16 1
  revision := 2
  newBannedMembers :=
    [{ serviceIdBytes := serviceIdAci :: List.replicate 16 4
       timestamp := some 9
       serviceIdCipherText := none
       quarantined := false }]

def entryOf (state : DecryptedGroup) (change : DecryptedGroupChange) : LogEntry where
  change
  state := (applyVerifiedChange state change).toOption.getD state

def exampleLog : GroupLog where
  initial := exampleStart
  entries :=
    [entryOf exampleStart exampleFirst,
      entryOf (entryOf exampleStart exampleFirst).state exampleSecond]

def exampleWorld : GroupWorld where
  record := { masterKey := some [1], state := some exampleStart, senderKeyRotationBarrier := none }
  log := exampleLog
  operations := []
  persisted := []
  rotated := []

theorem exampleWorld_fresh : exampleWorld.Fresh where
  valid := by
    refine ⟨rfl, fun index entry hentry => ?_⟩
    match index with
    | 0 =>
      cases hentry
      exact ⟨exampleStart, rfl, by decide⟩
    | 1 =>
      cases hentry
      exact ⟨(entryOf exampleStart exampleFirst).state, rfl, by decide⟩
    | index + 2 => cases hentry
  stored := by
    rintro _ ⟨⟩
    exact ⟨0, rfl, rfl⟩
  barrier := rfl
  operations := rfl
  persisted := rfl
  rotated := rfl

def GroupWorld.run (self : GroupAccount) (world : GroupWorld) (events : List GroupEvent) :
    Option GroupWorld :=
  events.foldlM (GroupWorld.step self) world

/-- A run of forward writes. -/
def GroupWorld.runForward (self : GroupAccount) (world : GroupWorld) (events : List GroupEvent) :
    Option GroupWorld :=
  events.foldlM
    (fun world event => if world.writesForward event then world.step self event else none) world

theorem GroupWorld.run_append {self : GroupAccount} {world next : GroupWorld} {before : GroupWorld}
    (hbefore : world.run self events = some before)
    (hrun : world.run self (events ++ [event]) = some next) :
    before.step self event = some next := by
  unfold GroupWorld.run at hbefore hrun
  rw [foldlM_append, hbefore] at hrun
  simpa using hrun

theorem GroupWorld.reachable_run {self : GroupAccount} {world next : GroupWorld}
    (hfresh : world.Fresh) (hrun : world.run self events = some next) :
    (groupRuns self).Reachable next :=
  ⟨world, hfresh, TransitionSystem.reflTransGen_of_foldlM
    (fun _ event _ hstep => ⟨event, hstep⟩) hrun⟩

theorem GroupWorld.reachable_runForward {self : GroupAccount} {world next : GroupWorld}
    (hrun : world.runForward self events = some next) :
    Relation.ReflTransGen (forwardRuns self).step world next := by
  refine TransitionSystem.reflTransGen_of_foldlM (fun before event after hstep => ?_) hrun
  split at hstep
  · next hforward => exact ⟨event, hforward, hstep⟩
  · cases hstep

/-- A sync up to the store of the first change. -/
def syncUntilStore (index : ℕ) : List GroupEvent :=
  [.sync, .advance index .none, .advance index .none, .advance index (.page 2 false)]

def staleRun : List GroupEvent :=
  syncUntilStore 0 ++ syncUntilStore 1 ++
    [.advance 1 .none, .advance 1 .none, .advance 1 .none, .advance 1 .none, .advance 1 .none]

/-- One sync alone stores both changes. -/
def singleRun : List GroupEvent :=
  syncUntilStore 0 ++ [.advance 0 .none, .advance 0 .none, .advance 0 .none, .advance 0 .none,
    .advance 0 .none]

end SignalProtocol.Groups

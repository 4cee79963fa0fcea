import SignalProtocol.Outbox.DeviceSets

/-! # Destination progress is monotone

No write takes a mark back. -/

namespace SignalProtocol.Outbox

open Results List

variable {existing : StoredOutgoingMessageIntent} {key : String} (changes : List DestinationUpdate)

theorem progressEntry_set (existing : StoredOutgoingMessageIntent) (key other : String)
    (entry : StoredDestinationProgress) :
    (existing.setProgressEntry key entry).progressEntry other =
      if other = key then some entry else existing.progressEntry other := by
  unfold StoredOutgoingMessageIntent.setProgressEntry StoredOutgoingMessageIntent.progressEntry
  rw [Option.getD_some, OrderedMap.get?_set]

@[simp] theorem progressEntry_stamp (existing : StoredOutgoingMessageIntent) (key : String) :
    (stampOutgoingDeadline existing).progressEntry key = existing.progressEntry key := by
  unfold stampOutgoingDeadline
  split <;> rfl

def takesProgress (existing : StoredOutgoingMessageIntent)
    (update : OutgoingDestinationProgressUpdate) : Bool :=
  !(existing.result.isSome || existing.outcome.isSome) || pendingSync existing update

theorem record_of_takes {update : OutgoingDestinationProgressUpdate}
    (htakes : takesProgress existing update = true) :
    stepProgress existing (.record key update) =
      stampOutgoingDeadline (existing.setProgressEntry key (applyDestinationUpdate
        (outgoingDestinationProgressEntry existing key update.destination) update.update)) := by
  have hopen : ¬ ((existing.result.isSome || existing.outcome.isSome) &&
      !pendingSync existing update) = true := by
    rw [takesProgress] at htakes
    revert htakes
    cases existing.result.isSome || existing.outcome.isSome <;>
      cases pendingSync existing update <;> decide
  rw [stepProgress, recordOutgoingDestinationProgress]
  simp only
  rw [if_neg hopen]
  rfl

theorem record_of_not_takes {update : OutgoingDestinationProgressUpdate}
    (hclosed : takesProgress existing update = false) :
    recordOutgoingDestinationProgress (some existing) key update = .ok none := by
  have hended : ((existing.result.isSome || existing.outcome.isSome) &&
      !pendingSync existing update) = true := by
    rw [takesProgress] at hclosed
    revert hclosed
    cases existing.result.isSome || existing.outcome.isSome <;>
      cases pendingSync existing update <;> decide
  rw [recordOutgoingDestinationProgress]
  simp only
  rw [if_pos hended]
  rfl

/-- Nothing that an entry has is taken back. -/
structure Advances (before after : StoredDestinationProgress) : Prop where
  accepted : before.state = .accepted → after.state = .accepted
  uncertain : before.uncertain = true → after.uncertain = true
  repairSpent : before.repairSpent = true → after.repairSpent = true

theorem Advances.refl (entry : StoredDestinationProgress) : Advances entry entry :=
  ⟨id, id, id⟩

theorem Advances.trans {first second third : StoredDestinationProgress}
    (hfst : Advances first second) (hsnd : Advances second third) : Advances first third :=
  ⟨hsnd.accepted ∘ hfst.accepted, hsnd.uncertain ∘ hfst.uncertain,
    hsnd.repairSpent ∘ hfst.repairSpent⟩

theorem advances_update (entry : StoredDestinationProgress) (update : DestinationUpdate) :
    Advances entry (applyDestinationUpdate entry update) := by
  cases update with
  | request =>
    rw [applyDestinationUpdate]
    split
    · next hacc => exact ⟨fun _ => hacc, fun hmark => by simp [hmark], id⟩
    · next hopen =>
      exact ⟨fun hacc => absurd hacc hopen, fun hmark => by simp [hmark], id⟩
  | answer answer =>
    rw [applyDestinationUpdate]
    split
    · exact .refl entry
    · next hopen =>
      have hmarked (marked : StoredDestinationProgress)
          (huncertain : entry.uncertain = true → marked.uncertain = true)
          (hspent : entry.repairSpent = true → marked.repairSpent = true) :
          Advances entry marked :=
        ⟨fun hacc => absurd hacc hopen, huncertain, hspent⟩
      simp only
      split
      · exact hmarked _ (fun hmark => by simp [hmark]) id
      · exact hmarked _ (fun hmark => by simp [hmark]) fun hmark => by simp [hmark]
      · exact hmarked _ (fun hmark => by simp [hmark]) id

theorem advances_step {entry : StoredDestinationProgress}
    (hentry : existing.progressEntry key = some entry) (step : ProgressStep) :
    ∃ next, (stepProgress existing step).progressEntry key = some next ∧ Advances entry next := by
  have hbase (destination : ProgressDestination) :
      outgoingDestinationProgressEntry existing key destination =
        { entry with postMessageId := destination.postMessageId } := by
    rw [outgoingDestinationProgressEntry, hentry]
    rfl
  cases step with
  | record other update =>
    by_cases htakes : takesProgress existing update = true
    · rw [record_of_takes htakes, progressEntry_stamp, progressEntry_set]
      split
      · next hsame =>
        obtain rfl := hsame
        refine ⟨_, rfl, ?_⟩
        rw [hbase]
        have haddressed : Advances entry
            { entry with postMessageId := update.destination.postMessageId } := ⟨id, id, id⟩
        exact haddressed.trans (advances_update _ update.update)
      · exact ⟨entry, hentry, .refl entry⟩
    · rw [stepProgress, record_of_not_takes (by simpa using htakes)]
      exact ⟨entry, hentry, .refl entry⟩
  | repaired phase message recovery replaced =>
    rw [stepProgress, markOutgoingDestinationRepaired, progressEntry_set]
    split
    · next hsame =>
      refine ⟨_, rfl, ?_⟩
      rw [← hsame, hbase]
      exact ⟨id, id, id⟩
    · exact ⟨entry, hentry, .refl entry⟩
  | other written => exact ⟨entry, hentry, .refl entry⟩

theorem advances_run {entry : StoredDestinationProgress}
    (hentry : existing.progressEntry key = some entry) (steps : List ProgressStep) :
    ∃ final, (runProgress existing steps).progressEntry key = some final ∧
      Advances entry final := by
  induction steps generalizing existing entry with
  | nil => exact ⟨entry, hentry, .refl entry⟩
  | cons step steps ih =>
    obtain ⟨next, hnext, hstep⟩ := advances_step hentry step
    obtain ⟨final, hfinal, hrun⟩ := ih hnext
    exact ⟨final, hfinal, hstep.trans hrun⟩

abbrev Marks := DestinationState × Bool

def StoredDestinationProgress.marks (entry : StoredDestinationProgress) : Marks :=
  (entry.state, entry.uncertain)

def marksAt (existing : StoredOutgoingMessageIntent) (key : String) : Marks :=
  ((existing.progressEntry key).map StoredDestinationProgress.marks).getD
    (.pending, !existing.progressFromStart)

def applyMarks (marks : Marks) : DestinationUpdate → Marks
  | .request =>
    if marks.1 = .accepted then marks else (.posted, marks.2 || marks.1 = .posted)
  | .answer update =>
    if marks.1 = .accepted then marks
    else (update.answer.state, marks.2 || update.answer = .unknown)

def recordedChange (existing : StoredOutgoingMessageIntent) (key : String) :
    ProgressStep → Option DestinationUpdate
  | .record other update =>
    if other = key ∧ takesProgress existing update = true then some update.update else none
  | .repaired .. => none
  | .other _ => none

/-- The requests and the answers that a run records for a destination. -/
def changesAt (existing : StoredOutgoingMessageIntent) (key : String) :
    List ProgressStep → List DestinationUpdate
  | [] => []
  | step :: steps =>
    (recordedChange existing key step).toList ++ changesAt (stepProgress existing step) key steps

theorem marks_update (entry : StoredDestinationProgress) (update : DestinationUpdate) :
    (applyDestinationUpdate entry update).marks = applyMarks entry.marks update := by
  unfold StoredDestinationProgress.marks
  cases update with
  | request =>
    rw [applyDestinationUpdate, applyMarks]
    split
    · next hacc => simp [hacc]
    · simp
  | answer answer =>
    rw [applyDestinationUpdate, applyMarks]
    split
    · rfl
    · simp only
      split
      all_goals simp

variable (existing : StoredOutgoingMessageIntent)
  (key : String)

theorem marks_base (destination : ProgressDestination) :
    (outgoingDestinationProgressEntry existing key destination).marks = marksAt existing key := by
  unfold outgoingDestinationProgressEntry marksAt
  cases existing.progressEntry key <;> rfl

theorem marksAt_set (key other : String) (entry : StoredDestinationProgress) :
    marksAt (existing.setProgressEntry key entry) other =
      if other = key then entry.marks else marksAt existing other := by
  unfold marksAt
  rw [progressEntry_set]
  split <;> rfl

theorem marksAt_stamp :
    marksAt (stampOutgoingDeadline existing) key = marksAt existing key := by
  have hstart : (stampOutgoingDeadline existing).progressFromStart =
      existing.progressFromStart := by
    unfold stampOutgoingDeadline
    split <;> rfl
  unfold marksAt
  rw [progressEntry_stamp, hstart]

theorem marks_step (step : ProgressStep) :
    marksAt (stepProgress existing step) key =
      (recordedChange existing key step).elim (marksAt existing key)
        (applyMarks (marksAt existing key)) := by
  cases step with
  | record other update =>
    by_cases htakes : takesProgress existing update = true
    · rw [record_of_takes htakes, marksAt_stamp, marksAt_set]
      by_cases hsame : key = other
      · subst hsame
        rw [if_pos rfl, marks_update, marks_base, recordedChange, if_pos ⟨rfl, htakes⟩]
        rfl
      · rw [if_neg hsame, recordedChange, if_neg fun hboth => hsame hboth.1.symm]
        rfl
    · rw [stepProgress, record_of_not_takes (by simpa using htakes), recordedChange,
        if_neg fun hboth => htakes hboth.2]
      rfl
  | repaired phase message recovery replaced =>
    rw [stepProgress, markOutgoingDestinationRepaired, marksAt_set]
    split
    · next hsame =>
      rw [hsame]
      exact marks_base existing _ _
    · rfl
  | other written => rfl

theorem marks_run (steps : List ProgressStep) :
    marksAt (runProgress existing steps) key =
      (changesAt existing key steps).foldl applyMarks (marksAt existing key) := by
  induction steps generalizing existing with
  | nil => rfl
  | cons step steps ih =>
    change marksAt (runProgress (stepProgress existing step) steps) key = _
    rw [ih, changesAt, marks_step, foldl_append]
    cases recordedChange existing key step <;> rfl

theorem foldl_accepted {marks : Marks}
    (hacc : marks.1 = .accepted) : (changes.foldl applyMarks marks).1 = .accepted := by
  induction changes generalizing marks with
  | nil => exact hacc
  | cons change changes ih =>
    refine ih ?_
    cases change <;> rw [applyMarks, if_pos hacc, hacc]

theorem foldl_uncertain {marks : Marks}
    (huncertain : marks.2 = true) : (changes.foldl applyMarks marks).2 = true := by
  induction changes generalizing marks with
  | nil => exact huncertain
  | cons change changes ih =>
    refine ih ?_
    cases change with
    | request => rw [applyMarks]; split <;> simp [huncertain]
    | answer answer => rw [applyMarks]; split <;> simp [huncertain]

/-- Where a destination ends neither posted nor accepted nor uncertain, the next change after each
request is an answer, and not the unknown one. -/
theorem request_answered (before after : List DestinationUpdate) (marks : Marks)
    (huncertain : ((before ++ .request :: after).foldl applyMarks marks).2 = false)
    (hposted : ((before ++ .request :: after).foldl applyMarks marks).1 ≠ .posted)
    (hacc : ((before ++ .request :: after).foldl applyMarks marks).1 ≠ .accepted) :
    ∃ answer rest, after = .answer answer :: rest ∧ answer.answer ≠ .unknown := by
  rw [foldl_append, foldl_cons] at huncertain hposted hacc
  generalize before.foldl applyMarks marks = start at huncertain hposted hacc
  by_cases hstart : start.1 = .accepted
  · rw [applyMarks, if_pos hstart] at hacc
    exact absurd (foldl_accepted after hstart) hacc
  rw [applyMarks, if_neg hstart] at huncertain hposted hacc
  cases after with
  | nil => exact absurd rfl hposted
  | cons change after =>
    cases change with
    | request =>
      have hmarked : (applyMarks (DestinationState.posted, start.2 || start.1 = .posted)
          .request).2 = true := by
        simp [applyMarks]
      rw [foldl_cons, foldl_uncertain after hmarked] at huncertain
      cases huncertain
    | answer answer =>
      refine ⟨answer, after, rfl, ?_⟩
      intro hunknown
      have hmarked : (applyMarks (DestinationState.posted, start.2 || start.1 = .posted)
          (.answer answer)).2 = true := by
        simp [applyMarks, hunknown]
      rw [foldl_cons, foldl_uncertain after hmarked] at huncertain
      cases huncertain

/-- From any stored intent, no progress write takes back an acceptance, an uncertain mark or a spent
repair, a destination without a mark had an answer to each of its requests, and an ended intent
takes a write only of its pending sync phase. -/
theorem destinationProgress_monotone (existing : StoredOutgoingMessageIntent) (key : String)
    (steps : List ProgressStep) :
    (∀ entry, existing.progressEntry key = some entry →
      ∃ final, (runProgress existing steps).progressEntry key = some final ∧ Advances entry final) ∧
    (∀ final, (runProgress existing steps).progressEntry key = some final →
      final.uncertain = false → final.state ≠ .posted → final.state ≠ .accepted →
        ∀ before after, changesAt existing key steps = before ++ .request :: after →
          ∃ answer rest, after = .answer answer :: rest ∧ answer.answer ≠ .unknown) ∧
    ∀ update, existing.result.isSome ∨ existing.outcome.isSome →
      ¬ (update.destination.phase = .sync ∧ existing.result.isSome ∧ existing.syncPending = true) →
        recordOutgoingDestinationProgress (some existing) key update = .ok none := by
  refine ⟨fun entry hentry => advances_run hentry steps, ?_, ?_⟩
  · intro final hfinal huncertain hposted haccepted before after hchanges
    have hmarks := marks_run existing key steps
    rw [hchanges, marksAt, hfinal] at hmarks
    change final.marks = _ at hmarks
    refine request_answered before after (marksAt existing key) ?_ ?_ ?_
    · rw [← hmarks]
      exact huncertain
    · rw [← hmarks]
      exact hposted
    · rw [← hmarks]
      exact haccepted
  · intro update hended hsync
    refine record_of_not_takes ?_
    rw [takesProgress, pendingSync]
    simp only [Bool.or_eq_false_iff, Bool.not_eq_false', Bool.or_eq_true]
    refine ⟨hended, ?_⟩
    rw [Bool.eq_false_iff]
    intro hpending
    simp only [Bool.and_eq_true, decide_eq_true_eq] at hpending
    exact hsync ⟨hpending.1.1, hpending.1.2, hpending.2⟩

def deviceUpdate (update : DestinationUpdate) : OutgoingDestinationProgressUpdate where
  destination := ⟨.recipient, "bob", 1, "message"⟩
  update := update

/-- A request of a device, and its refusal. -/
def refusedPost : List ProgressStep :=
  [.record "device" (deviceUpdate .request),
    .record "device" (deviceUpdate (.answer { answer := .refused }))]

def openIntent : StoredOutgoingMessageIntent where
  clientMessageId := "message"
  clientTimestamp := 1000
  createdAt := 1000
  deviceMessages := []
  syncMessages := []
  progressFromStart := true

def refusedEntry : StoredDestinationProgress where
  phase := .recipient
  userId := "bob"
  deviceId := 1
  postMessageId := "message"
  state := .refused
  requests := 1

/-- A repeated post of a refused device, its refusal, and an ended intent. -/
theorem destinationProgress_monotone_refused :
    (∃ final, (runProgress (runProgress openIntent refusedPost) refusedPost).progressEntry
      "device" = some final ∧ Advances refusedEntry final) ∧
    (∃ answer rest, [DestinationUpdate.answer { answer := .refused }] = .answer answer :: rest ∧
      answer.answer ≠ .unknown) ∧
    recordOutgoingDestinationProgress (some { openIntent with outcome := some .failed }) "device"
      (deviceUpdate .request) = .ok none := by
  refine ⟨?_, ?_, ?_⟩
  · exact (destinationProgress_monotone (runProgress openIntent refusedPost) "device"
      refusedPost).1 refusedEntry (by decide)
  · exact (destinationProgress_monotone openIntent "device" refusedPost).2.1 refusedEntry
      (by decide) rfl (by decide) (by decide) [] _ rfl
  · exact (destinationProgress_monotone _ "device" []).2.2 (deviceUpdate .request)
      (Or.inr rfl) (by decide)

end SignalProtocol.Outbox

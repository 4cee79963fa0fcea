import SignalProtocol.Library.Triple
import SignalProtocol.Receive.Queue

/-! # The order of received content

A pass holds a conversation back from the first record of it that it leaves unsettled, so content
that the application gets has no such record before it. -/

namespace SignalProtocol.Receive

open Groups Results List Option

theorem listReceiveWork_pairwise (stored : List ReceiveWorkRecord)
    (after : Option ReceiveOrderKey) (limit : ℕ) :
    (listReceiveWork stored after limit).Pairwise fun first second =>
      first.orderKey ≤ second.orderKey :=
  (pairwise_insertionSort (fun first second : ReceiveWorkRecord =>
    first.orderKey ≤ second.orderKey) _).sublist (List.take_sublist _ _)

theorem mem_listReceiveWork {stored : List ReceiveWorkRecord} {after : Option ReceiveOrderKey}
    {limit : ℕ} {record last : ReceiveWorkRecord} (hstored : record ∈ stored)
    (hafter : ∀ place, after = some place → place < record.orderKey)
    (hlast : last ∈ listReceiveWork stored after limit) (hlt : record.orderKey < last.orderKey) :
    record ∈ listReceiveWork stored after limit := by
  have hmem : record ∈ Listing.sortBy ReceiveWorkRecord.orderKey
      (stored.filter fun record => after.all (· < record.orderKey)) := by
    rw [Listing.sortBy, mem_insertionSort, mem_filter]
    refine ⟨hstored, ?_⟩
    cases after with
    | none => rfl
    | some place => exact decide_eq_true (hafter place rfl)
  have hsorted := pairwise_insertionSort (fun first second : ReceiveWorkRecord =>
    first.orderKey ≤ second.orderKey)
    (stored.filter fun record => after.all (· < record.orderKey))
  rw [listReceiveWork] at hlast ⊢
  rw [Listing.sortBy] at hmem hlast ⊢
  rw [← List.take_append_drop limit (List.insertionSort _ _), mem_append] at hmem
  rw [← List.take_append_drop limit (List.insertionSort _ _), pairwise_append] at hsorted
  cases hmem with
  | inl htake => exact htake
  | inr hdrop => exact absurd (hsorted.2.2 last hlast record hdrop) (not_le_of_gt hlt)

def HeldFrom (blocked : BlockedConversations) (conversation : String) (place : ReceiveOrderKey) :
    Prop :=
  ∃ earliest, blocked conversation = some earliest ∧ earliest ≤ place

theorem block_heldFrom (blocked : BlockedConversations) (record : ReceiveWorkRecord)
    (conversation : String) :
    HeldFrom (block blocked record conversation) conversation record.orderKey := by
  rw [block]
  split
  case isTrue => exact ⟨record.orderKey, Function.update_self .., le_rfl⟩
  case isFalse hblocked =>
    cases hearliest : blocked conversation with
    | none => exact absurd (by rw [hearliest]; rfl) hblocked
    | some earliest =>
      rw [hearliest, all_some, sortsBefore, decide_eq_true_iff, not_lt] at hblocked
      exact ⟨earliest, hearliest, hblocked⟩

theorem HeldFrom.block {blocked : BlockedConversations} {conversation : String}
    {place : ReceiveOrderKey} (hheld : HeldFrom blocked conversation place)
    (record : ReceiveWorkRecord) (other : String) :
    HeldFrom (block blocked record other) conversation place := by
  obtain ⟨earliest, hearliest, hle⟩ := hheld
  rw [Receive.block]
  split
  case isFalse => exact ⟨earliest, hearliest, hle⟩
  case isTrue hbefore =>
    by_cases hother : conversation = other
    · subst hother
      rw [hearliest, all_some, sortsBefore, decide_eq_true_iff] at hbefore
      exact ⟨record.orderKey, Function.update_self .., hbefore.le.trans hle⟩
    · exact ⟨earliest, (Function.update_of_ne hother ..).trans hearliest, hle⟩

theorem isBlocked_iff {blocked : BlockedConversations} {record : ReceiveWorkRecord}
    {conversation : String} :
    isBlocked blocked record conversation = true ↔
      ∃ place < record.orderKey, HeldFrom blocked conversation place := by
  rw [isBlocked, Option.any_eq_true]
  constructor
  · rintro ⟨earliest, hearliest, hbefore⟩
    exact ⟨earliest, of_decide_eq_true hbefore, earliest, hearliest, le_rfl⟩
  · rintro ⟨place, hlt, earliest, hearliest, hle⟩
    exact ⟨earliest, hearliest, decide_eq_true (hle.trans_lt hlt)⟩

def UsedUp (record : ReceiveWorkRecord) : Prop := receiveHookAttemptCap ≤ record.attempts

def SeenTo (visits : List RecordVisit) (conversation : String) (record : ReceiveWorkRecord) :
    Prop :=
  UsedUp record ∨ ∃ visit ∈ visits, visit.record = record ∧
    (visit.conversation = conversation → visit.settled.isSome)

/-- Whatever the store held at each page read before the content is listed and seen to. -/
def Handing.InOrder (handing : Handing) : Prop :=
  ∀ place < handing.record.orderKey,
    (∀ stored ∈ handing.reads, ∃ record ∈ stored, record.orderKey = place) →
      ∃ record ∈ handing.listed, record.orderKey = place ∧
        SeenTo handing.visits handing.conversation record

/-! ## One visit -/

/-- A visit changes neither what the pass has listed nor its earlier visits, and lets no
conversation go. -/
structure During (fixed state : PassState) : Prop where
  reads : state.reads = fixed.reads
  listed : state.listed = fixed.listed
  visits : state.visits = fixed.visits
  capped : state.capped = fixed.capped
  timedOut : state.timedOut = fixed.timedOut
  blocked : ∀ conversation place, HeldFrom fixed.blocked conversation place →
    HeldFrom state.blocked conversation place
  handings : ∀ handing ∈ state.handings, handing.InOrder

theorem During.with_memory {fixed state : PassState} (hduring : During fixed state)
    (memory : QueueMemory) : During fixed { state with memory := memory } where
  reads := hduring.reads
  listed := hduring.listed
  visits := hduring.visits
  capped := hduring.capped
  timedOut := hduring.timedOut
  blocked := hduring.blocked
  handings := hduring.handings

theorem During.with_block {fixed state : PassState} (hduring : During fixed state)
    (record : ReceiveWorkRecord) (conversation : String) :
    During fixed { state with blocked := block state.blocked record conversation } :=
  { hduring with
    blocked other place hother := (hduring.blocked other place hother).block record conversation }

def Keyed (fixed : PassState) (record : ReceiveWorkRecord) (conversation : String)
    (state : PassState) : Prop :=
  During fixed state ∧ state.memory.conversationOf record = conversation

def StepEnd (fixed : PassState) (record : ReceiveWorkRecord) (step : RecordStep)
    (state : PassState) : Prop :=
  During fixed state ∧ (step.settled = none →
    HeldFrom state.blocked (state.memory.conversationOf record) record.orderKey)

def Allowed (fixed : PassState) (record : ReceiveWorkRecord) (conversation : String) : Prop :=
  (Handing.mk record conversation fixed.reads fixed.listed fixed.visits).InOrder

section

variable {fixed : PassState} {record : ReceiveWorkRecord} {conversation : String}
  {stop : PassState → Prop}

theorem updateMemory_during (update : QueueMemory → QueueMemory) :
    Triple (During fixed) (updateMemory update) (fun _ => During fixed) stop :=
  .modify _ fun state hduring => hduring.with_memory (update state.memory)

theorem updateMemory_keyed {update : QueueMemory → QueueMemory}
    (hupdate : ∀ memory, (update memory).conversations = memory.conversations) :
    Triple (Keyed fixed record conversation) (updateMemory update)
      (fun _ => Keyed fixed record conversation) stop := by
  refine .modify _ fun state hkeyed => ⟨?_, ?_⟩
  · exact hkeyed.1.with_memory (update state.memory)
  · rw [← hkeyed.2, QueueMemory.conversationOf, QueueMemory.conversationOf, hupdate]

theorem holdBack_stepEnd (next : Option ℤ) :
    Triple (Keyed fixed record conversation)
      (do holdBack record conversation; pure (.wait next)) (StepEnd fixed record) stop := by
  have hheld : Triple (Keyed fixed record conversation) (holdBack record conversation)
      (fun _ state => StepEnd fixed record (.wait next) state) stop := by
    refine .modify _ ?_
    rintro state ⟨hduring, rfl⟩
    exact ⟨hduring.with_block record _, fun _ => block_heldFrom ..⟩
  exact hheld.bind fun _ => .pure _ fun _ hend => hend

theorem StepEnd.of_settled {step : RecordStep} {state : PassState} (hduring : During fixed state)
    (hsettled : step.settled.isSome) : StepEnd fixed record step state := by
  refine ⟨hduring, fun hnone => ?_⟩
  rw [hnone] at hsettled
  cases hsettled

theorem fromResult_during {α : Type} {invariant : PassState → Prop} (result : Except VisitError α)
    (hduring : ∀ state, invariant state → During fixed state) :
    Triple invariant (fromResult result : PassM α) (fun _ => invariant) (During fixed) :=
  .fromResult (fun _ _ _ hstate => hstate) hduring

theorem pure_settled {step : RecordStep} (hsettled : step.settled.isSome) :
    Triple (During fixed) (pure step : PassM RecordStep) (StepEnd fixed record) stop :=
  .pure _ fun _ hduring => .of_settled hduring hsettled

variable (config : QueueConfig) (params : GroupParams) {ownUserId : String}
variable (answers : VisitAnswers ownUserId)

theorem completeAs_stepEnd (completed : ReceiveWorkRecord) (settlement : Settlement) :
    Triple (During fixed) (completeAs answers completed settlement) (StepEnd fixed record)
      (During fixed) :=
  (fromResult_during _ fun _ hduring => hduring).andThen fun _ =>
    (updateMemory_during _).andThen fun _ => pure_settled rfl

theorem denyRecord_stepEnd :
    Triple (During fixed) (denyRecord answers record) (StepEnd fixed record) (During fixed) :=
  (fromResult_during _ fun _ hduring => hduring).andThen fun _ =>
    (updateMemory_during _).andThen fun _ => pure_settled rfl

variable (due : ReceiveWorkRecord)

theorem sendReceipt_stepEnd (now : ℤ) :
    Triple (During fixed) (receiptStep.sendReceipt config answers due now) (StepEnd fixed record)
      (During fixed) := by
  refine (updateMemory_during _).andThen fun _ => ?_
  refine Triple.andThen (.get fun _ hduring => hduring) fun state => ?_
  refine .ite (fun _ => pure_settled rfl) fun _ => ?_
  refine .ite (fun _ => pure_settled rfl) fun _ => ?_
  refine .ite (fun _ => ?_) fun _ => ?_
  · exact (fromResult_during _ fun _ hduring => hduring).andThen fun _ =>
      (updateMemory_during _).andThen fun _ => pure_settled rfl
  · exact (updateMemory_during _).andThen fun _ => pure_settled rfl

theorem receiptStep_stepEnd (now : ℤ) :
    Triple (During fixed) (receiptStep config answers due now) (StepEnd fixed record)
      (During fixed) := by
  refine Triple.andThen (.get fun _ hduring => hduring) fun state => ?_
  refine .ite (fun _ => completeAs_stepEnd answers due .taken) fun _ => ?_
  cases due.ackIntent with
  | none => exact sendReceipt_stepEnd config answers due now
  | some intent =>
    refine .ite (fun _ => ?_) fun _ => sendReceipt_stepEnd config answers due now
    refine (updateMemory_during _).andThen fun _ => ?_
    exact pure_settled rfl

theorem expireRecord_stepEnd :
    Triple (During fixed) (expireRecord answers record) (StepEnd fixed record) (During fixed) := by
  have hcompl : Triple (During fixed) (fromResult answers.complete : PassM Unit)
      (fun _ => During fixed) (During fixed) := fromResult_during _ fun _ hduring => hduring
  have hexpire : Triple (During fixed) (expireReceiveWork answers) (fun _ => During fixed)
      (During fixed) := by
    refine (fromResult_during _ fun _ hduring => hduring).andThen fun current => ?_
    refine .ite (fun _ => ?_) fun _ => .pure _ fun _ hduring => hduring
    exact (fromResult_during _ fun _ hduring => hduring).andThen fun _ => hcompl
  refine Triple.andThen (.ite (fun _ => hcompl) fun _ => hexpire) fun _ => ?_
  refine (updateMemory_during _).andThen fun _ => ?_
  exact pure_settled rfl

variable {handed : ReceiveWorkRecord}

/-- The hook gets content only where the order allows it. -/
theorem deliver_keyed (restored : RestoredContent ownUserId) (groupId : Option String)
    (hallow : Allowed fixed handed (conversationOf params handed restored)) :
    Triple (Keyed fixed record conversation) (deliver config params answers handed restored groupId)
      (fun _ => Keyed fixed record conversation) (Keyed fixed record conversation) := by
  have hanswer {α : Type} (result : Except VisitError α) :
      Triple (Keyed fixed record conversation) (fromResult result : PassM α)
        (fun _ => Keyed fixed record conversation) (Keyed fixed record conversation) :=
    .fromResult (fun _ _ _ hkeyed => hkeyed) fun _ hkeyed => hkeyed
  have hpure (owes : Bool) : Triple (Keyed fixed record conversation) (pure owes : PassM Bool)
      (fun _ => Keyed fixed record conversation) (Keyed fixed record conversation) :=
    .pure _ fun _ hkeyed => hkeyed
  refine .ite (fun _ => hpure _) fun _ => ?_
  refine .ite (fun _ => hpure _) fun _ => ?_
  refine .ite (fun _ => (hanswer _).andThen fun _ => hpure _) fun _ => ?_
  refine .ite (fun _ => (hanswer _).andThen fun _ => hpure _) fun _ => ?_
  refine (hanswer _).andThen fun received => ?_
  refine .ite (fun _ => hpure _) fun _ => ?_
  refine .ite (fun _ => .throw _ fun _ hkeyed => hkeyed) fun _ => ?_
  refine Triple.andThen (.modify _ ?_) fun _ => (hanswer _).andThen fun _ => hpure _
  rintro state ⟨hduring, hconv⟩
  refine ⟨{ hduring with handings := ?_ }, hconv⟩
  intro handing hhanding
  rw [mem_append, mem_singleton] at hhanding
  cases hhanding with
  | inl hprev => exact hduring.handings handing hprev
  | inr hnew =>
    rw [hnew, hduring.reads, hduring.listed, hduring.visits]
    exact hallow

theorem moveToReceiptDue_stepEnd (restored : RestoredContent ownUserId) :
    Triple (During fixed) (moveToReceiptDue config answers due restored) (StepEnd fixed record)
      (During fixed) := by
  refine Triple.andThen (.get fun _ hduring => hduring) fun state => ?_
  refine (fromResult_during _ fun _ hduring => hduring).andThen fun written => ?_
  refine .ite (fun _ => pure_settled rfl) fun _ => ?_
  refine (fromResult_during _ fun _ hduring => hduring).andThen fun _ => ?_
  refine (updateMemory_during _).andThen fun _ => ?_
  refine (fromResult_during _ fun _ hduring => hduring).andThen fun _ => ?_
  have hreceipt : Triple (During fixed) (receiptStep config answers
      (receiptDueOf answers state.memory due restored) answers.later) (StepEnd fixed record)
      (During fixed) := receiptStep_stepEnd config answers _ _
  exact hreceipt.bind fun _ =>
    (pure_settled rfl).weaken (fun _ hend => hend.1) fun _ _ hend => hend

theorem deliverRecord_stepEnd (restored : RestoredContent ownUserId)
    (groupId : Option String) (hkey : handed.orderKey = record.orderKey)
    (hstored : ∀ memory : QueueMemory, memory.conversationOf handed = memory.conversationOf record)
    (hallow : Allowed fixed handed (conversationOf params handed restored)) :
    Triple (Keyed fixed record conversation)
      (deliverRecord config params answers handed restored groupId conversation)
      (StepEnd fixed record) (During fixed) := by
  have hend (next : Option ℤ) : Triple (Keyed fixed record conversation)
      (do holdBack handed conversation; pure (.wait next)) (StepEnd fixed record)
      (During fixed) := by
    have hhanded : Triple (Keyed fixed handed conversation)
        (do holdBack handed conversation; pure (.wait next)) (StepEnd fixed handed)
        (During fixed) := holdBack_stepEnd next
    refine hhanded.weaken (fun state hkeyed => ?_) fun step state hstep => ?_
    · exact ⟨hkeyed.1, (hstored state.memory).trans hkeyed.2⟩
    · refine ⟨hstep.1, fun hnone => ?_⟩
      rw [← hkey, ← hstored]
      exact hstep.2 hnone
  have hdeliver : Triple (Keyed fixed record conversation)
      (caught (deliver config params answers handed restored groupId))
      (fun _ => Keyed fixed record conversation) (During fixed) :=
    (deliver_keyed config params answers restored groupId hallow).caught
      (fun _ _ hkeyed => hkeyed) fun _ _ hkeyed => hkeyed
  refine hdeliver.bind fun delivery => ?_
  cases delivery with
  | ok owesReceipt =>
    refine (fromResult_during _ fun _ hkeyed => hkeyed.1).andThen fun _ => ?_
    refine ((updateMemory_during _).andThen fun _ => ?_).weaken (fun _ hkeyed => hkeyed.1)
      fun _ _ hstep => hstep
    refine .ite (fun _ => completeAs_stepEnd answers handed .delivered) fun _ => ?_
    exact moveToReceiptDue_stepEnd config answers handed restored
  | error error =>
    have hfailed : Triple (Keyed fixed record conversation)
        (if receiveHookAttemptCap ≤ handed.attempts then do
          updateMemory (·.backedOff handed.workId none)
          pure (.rest (receiveExpiresAt handed) .attemptsUsedUp)
        else do
          updateMemory (·.backedOff handed.workId (some (answers.later + receiveRetryBackoffMs)))
          holdBack handed conversation
          pure (.wait (min (answers.later + receiveRetryBackoffMs) (receiveExpiresAt handed) : ℤ)))
        (StepEnd fixed record) (During fixed) := by
      refine .ite (fun _ => ?_) fun _ => ?_
      · exact ((updateMemory_during _).andThen fun _ => pure_settled rfl).weaken
          (fun _ hkeyed => hkeyed.1) fun _ _ hstep => hstep
      · refine Triple.andThen (updateMemory_keyed ?_) fun _ => hend _
        exact fun _ => rfl
    cases error with
    | stopped => exact .throw _ fun _ hkeyed => hkeyed.1
    | hookMissing => exact hend _
    | failed => exact hfailed
    | hookTimeout => exact hfailed

theorem attemptRecord_stepEnd (restored : RestoredContent ownUserId) (groupId : Option String)
    (hallow : Allowed fixed record (conversationOf params record restored)) :
    Triple (Keyed fixed record conversation)
      (attemptRecord config params answers record restored groupId conversation)
      (StepEnd fixed record) (During fixed) := by
  refine .ite (fun _ => ?_) fun _ => ?_
  · exact deliverRecord_stepEnd config params answers restored groupId rfl (fun _ => rfl) hallow
  · refine Triple.andThen (fromResult_during _ fun _ hkeyed => hkeyed.1) fun written => ?_
    refine .ite (fun _ => holdBack_stepEnd _) fun _ => ?_
    refine Triple.andThen (updateMemory_keyed ?_) fun _ => ?_
    · intro memory
      split <;> rfl
    · exact deliverRecord_stepEnd config params answers restored groupId rfl (fun _ => rfl)
        hallow

theorem decideRecord_stepEnd (restored : RestoredContent ownUserId)
    (hallow : Allowed fixed record (conversationOf params record restored)) :
    Triple (Keyed fixed record conversation)
      (decideRecord config params answers record restored conversation)
      (StepEnd fixed record) (During fixed) := by
  refine Triple.andThen (fromResult_during _ fun _ hkeyed => hkeyed.1) fun decision => ?_
  cases decision with
  | denied reason =>
    exact (denyRecord_stepEnd answers).weaken (fun _ hkeyed => hkeyed.1) fun _ _ hstep => hstep
  | unavailable reason retryAfterMs messageId groupId =>
    exact Triple.andThen (fromResult_during _ fun _ hkeyed => hkeyed.1) fun _ =>
      holdBack_stepEnd _
  | authorized groupId =>
    refine .ite (fun _ => ?_) fun _ => ?_
    · refine Triple.weaken (Triple.andThen (fromResult_during _ fun _ hduring => hduring)
        fun _ => ?_) (fun _ hkeyed => hkeyed.1) fun _ _ hstep => hstep
      refine (updateMemory_during _).andThen fun _ => ?_
      exact pure_settled rfl
    · exact attemptRecord_stepEnd config params answers restored groupId hallow

/-- Every record before this one that stood at the page reads is used up or has been visited. -/
structure Ready (fixed : PassState) (record : ReceiveWorkRecord) : Prop where
  waiting : ∀ visit ∈ fixed.visits, visit.settled = none →
    HeldFrom fixed.blocked visit.conversation visit.record.orderKey
  listed : ∀ place < record.orderKey,
    (∀ stored ∈ fixed.reads, ∃ other ∈ stored, other.orderKey = place) →
      ∃ other ∈ fixed.listed, other.orderKey = place ∧
        (UsedUp other ∨ ∃ visit ∈ fixed.visits, visit.record = other)

theorem Ready.allowed {state : PassState} (hready : Ready fixed record)
    (hduring : During fixed state)
    (hblocked : ¬ isBlocked state.blocked record conversation = true) :
    Allowed fixed record conversation := by
  intro place hplace hstood
  obtain ⟨other, hlist, hkey, hseen⟩ := hready.listed place hplace hstood
  refine ⟨other, hlist, hkey, hseen.imp_right ?_⟩
  rintro ⟨visit, hvisit, rfl⟩
  refine ⟨visit, hvisit, rfl, fun hconv => ?_⟩
  cases hsettled : visit.settled with
  | some settlement => rfl
  | none =>
    have hheld := hduring.blocked _ _ (hready.waiting visit hvisit hsettled)
    rw [hconv, hkey] at hheld
    exact absurd (isBlocked_iff.mpr ⟨place, hplace, hheld⟩) hblocked

theorem blocked_stepEnd {step : RecordStep} {state : PassState}
    (hkeyed : Keyed fixed record conversation state)
    (hblocked : isBlocked state.blocked record conversation = true) :
    StepEnd fixed record step state := by
  obtain ⟨place, hplace, earliest, hearliest, hle⟩ := isBlocked_iff.mp hblocked
  obtain ⟨hduring, rfl⟩ := hkeyed
  exact ⟨hduring, fun _ => ⟨earliest, hearliest, hle.trans hplace.le⟩⟩

theorem wait_stepEnd (result : Except VisitError Unit) (next : Option ℤ) :
    Triple (fun state => Keyed fixed record conversation state ∧
        isBlocked state.blocked record conversation = true)
      (do fromResult result; pure (.wait next) : PassM RecordStep) (StepEnd fixed record)
      (During fixed) := by
  refine Triple.andThen (fromResult_during _ fun _ hstate => hstate.1.1) fun _ => ?_
  exact .pure _ fun _ hstate => blocked_stepEnd hstate.1 hstate.2

theorem processRecord_stepEnd (hready : Ready fixed record) :
    Triple (During fixed) (processRecord config params answers record) (StepEnd fixed record)
      (During fixed) := by
  refine (fromResult_during _ fun _ hduring => hduring).andThen fun result => ?_
  cases result with
  | denied => exact denyRecord_stepEnd answers
  | committed restored =>
    refine .ite (fun _ => completeAs_stepEnd answers record .completed) fun _ => ?_
    refine (fromResult_during _ fun _ hduring => hduring).andThen fun keySync => ?_
    refine .ite (fun _ => completeAs_stepEnd answers record .completed) fun _ => ?_
    have hkeyed : Triple (During fixed)
        (updateMemory (·.keyed record.workId (conversationOf params record restored)))
        (fun _ => Keyed fixed record (conversationOf params record restored)) (During fixed) := by
      refine .modify _ fun state hduring => ⟨hduring.with_memory _, ?_⟩
      simp [QueueMemory.conversationOf, QueueMemory.keyed]
    refine hkeyed.bind fun _ => ?_
    -- The order lets the content through as it stands when the conversation is looked up.
    refine Triple.get_eq.bind fun found => ?_
    refine .ite (fun hblocked => ?_) fun hblocked => ?_
    · rintro state ⟨rfl, hstate⟩
      exact wait_stepEnd _ _ found ⟨hstate, hblocked⟩
    · rintro state ⟨rfl, hstate⟩
      exact decideRecord_stepEnd config params answers restored
        (hready.allowed hstate.1 hblocked) found hstate

theorem step_stepEnd (cappedRetry : CappedRetry) (hready : Ready fixed record) :
    Triple (During fixed) (step config params answers cappedRetry record) (StepEnd fixed record)
      (During fixed) := by
  refine Triple.get_eq.bind fun found => ?_
  have hkeyed : ∀ state, found = state ∧ During fixed state →
      Keyed fixed record (found.memory.conversationOf record) state := by
    rintro state ⟨rfl, hduring⟩
    exact ⟨hduring, rfl⟩
  have hholdBack (next : Option ℤ) : Triple (fun state => found = state ∧ During fixed state)
      (do holdBack record (found.memory.conversationOf record); pure (.wait next))
      (StepEnd fixed record) (During fixed) :=
    (holdBack_stepEnd next).weaken hkeyed fun _ _ hstep => hstep
  have hrest {rest : RecordStep} (hsettled : rest.settled.isSome) :
      Triple (fun state => found = state ∧ During fixed state) (pure rest : PassM RecordStep)
        (StepEnd fixed record) (During fixed) :=
    (pure_settled hsettled).weaken (fun _ hstate => hstate.2) fun _ _ hstep => hstep
  refine .ite (fun _ => hholdBack _) fun _ => ?_
  refine .ite (fun _ => (expireRecord_stepEnd answers).weaken (fun _ hstate => hstate.2)
    fun _ _ hstep => hstep) fun _ => ?_
  refine .ite (fun _ => (completeAs_stepEnd answers record .taken).weaken
    (fun _ hstate => hstate.2) fun _ _ hstep => hstep) fun _ => ?_
  refine .ite (fun _ => hrest rfl) fun _ => ?_
  refine .ite (fun _ => (receiptStep_stepEnd config answers record answers.now).weaken
    (fun _ hstate => hstate.2) fun _ _ hstep => hstep) fun _ => ?_
  refine .ite (fun hblocked => ?_) fun _ => ?_
  · have hwoken (update : QueueMemory → QueueMemory)
        (hupdate : ∀ memory, (update memory).conversations = memory.conversations) :
        Triple (fun state => found = state ∧ During fixed state) (updateMemory update)
          (fun _ state => Keyed fixed record (found.memory.conversationOf record) state ∧
            isBlocked state.blocked record (found.memory.conversationOf record) = true)
          (During fixed) := by
      refine .modify _ ?_
      rintro state ⟨rfl, hduring⟩
      refine ⟨⟨hduring.with_memory _, ?_⟩, hblocked⟩
      rw [QueueMemory.conversationOf, QueueMemory.conversationOf, hupdate]
    refine Triple.bind (hwoken _ ?_) fun _ => wait_stepEnd _ _
    exact fun _ => rfl
  refine .ite (fun _ => hrest rfl) fun _ => ?_
  refine .ite (fun _ => hholdBack _) fun _ => ?_
  refine .ite (fun _ => hholdBack _) fun _ => ?_
  exact (processRecord_stepEnd config params answers hready).weaken (fun _ hstate => hstate.2)
    fun _ _ hstep => hstep

end

/-! ## A pass -/

def Ordered (state : PassState) : Prop := ∀ handing ∈ state.handings, handing.InOrder

/-- What a pass keeps while the records of `rest` are still to be visited. -/
structure Watched (after : Option ReceiveOrderKey) (rest : List ReceiveWorkRecord)
    (state : PassState) : Prop where
  waiting : ∀ visit ∈ state.visits, visit.settled = none →
    HeldFrom state.blocked visit.conversation visit.record.orderKey
  covered : state.timedOut = false → ∀ record ∈ state.listed,
    UsedUp record ∨ (∃ visit ∈ state.visits, visit.record = record) ∨ record ∈ rest
  whole : ∀ place, (∀ stored ∈ state.reads, ∃ record ∈ stored, record.orderKey = place) →
    (∃ record ∈ state.listed, place ≤ record.orderKey) →
      ∃ record ∈ state.listed, record.orderKey = place
  cursor : ∀ place, after = some place → ∃ record ∈ state.listed, record.orderKey = place
  capped : ∀ record ∈ state.capped, record ∈ state.listed ∧ UsedUp record
  listed : ∀ record ∈ rest, record ∈ state.listed
  sorted : rest.Pairwise fun first second => first.orderKey ≤ second.orderKey ∨ UsedUp second
  ordered : Ordered state

section

variable {after : Option ReceiveOrderKey} {rest : List ReceiveWorkRecord}
variable {record : ReceiveWorkRecord} {state found : PassState}

theorem Watched.ready (hwatch : Watched after (record :: rest) state)
    (htimedOut : state.timedOut = false) : Ready state record where
  waiting := hwatch.waiting
  listed := by
    intro place hplace hstood
    have hrec := hwatch.listed record mem_cons_self
    obtain ⟨other, hother, rfl⟩ := hwatch.whole place hstood ⟨record, hrec, hplace.le⟩
    refine ⟨other, hother, rfl, ?_⟩
    rcases hwatch.covered htimedOut other hother with hused | hvisited | hrest
    · exact .inl hused
    · exact .inr hvisited
    · cases hrest with
      | head => exact absurd hplace (lt_irrefl _)
      | tail _ hrest =>
        rcases rel_of_pairwise_cons hwatch.sorted hrest with hle | hused
        · exact absurd hplace (not_lt_of_ge hle)
        · exact .inl hused

theorem Watched.during (hwatch : Watched after rest state) : During state state :=
  ⟨rfl, rfl, rfl, rfl, rfl, fun _ _ hheld => hheld, hwatch.ordered⟩

variable {stop : PassState → Prop}

theorem visited_watched {step : RecordStep} (hwatch : Watched after (record :: rest) found) :
    Triple (StepEnd found record step) (visited record step) (fun _ => Watched after rest)
      stop := by
  refine .modify _ ?_
  rintro state ⟨hduring, hheld⟩
  exact {
    waiting := by
      intro visit hvisit hsettled
      rw [mem_append, mem_singleton, hduring.visits] at hvisit
      rcases hvisit with hprev | rfl
      · exact hduring.blocked _ _ (hwatch.waiting visit hprev hsettled)
      · exact hheld hsettled
    covered := by
      intro htimedOut other hother
      have hother' : other ∈ found.listed := hduring.listed ▸ hother
      have hvisits : (⟨record, state.memory.conversationOf record, step.settled⟩ : RecordVisit) ∈
          state.visits ++ [⟨record, state.memory.conversationOf record, step.settled⟩] :=
        mem_append_right _ (mem_singleton_self _)
      have hcovered := hwatch.covered (hduring.timedOut ▸ htimedOut) other hother'
      rcases hcovered with hused | hseen | hleft
      · exact .inl hused
      · obtain ⟨visit, hvisit, hrec⟩ := hseen
        exact .inr (.inl ⟨visit, mem_append_left _ (hduring.visits ▸ hvisit), hrec⟩)
      · cases hleft with
        | head => exact .inr (.inl ⟨_, hvisits, rfl⟩)
        | tail _ hrest => exact .inr (.inr hrest)
    whole := by
      dsimp only
      rw [hduring.reads, hduring.listed]
      exact hwatch.whole
    cursor := by
      dsimp only
      rw [hduring.listed]
      exact hwatch.cursor
    capped := by
      dsimp only
      rw [hduring.capped, hduring.listed]
      exact hwatch.capped
    listed := by
      dsimp only
      rw [hduring.listed]
      exact fun other hother => hwatch.listed other (mem_cons_of_mem _ hother)
    sorted := hwatch.sorted.of_cons
    ordered := hduring.handings }

variable (config : QueueConfig) (params : GroupParams) {ownUserId : String}

theorem updateMemory_watched (update : QueueMemory → QueueMemory) :
    Triple (Watched after rest) (updateMemory update) (fun _ => Watched after rest) stop :=
  .modify _ fun _ hwatch =>
    ⟨hwatch.waiting, hwatch.covered, hwatch.whole, hwatch.cursor, hwatch.capped,
      hwatch.listed, hwatch.sorted, hwatch.ordered⟩

theorem skip_watched :
    Triple (Watched after (record :: rest)) (skip record) (fun _ => Watched after rest) stop := by
  refine .modify _ fun state hwatch => ?_
  refine ⟨hwatch.waiting, ?_, hwatch.whole, hwatch.cursor, hwatch.capped, ?_,
    hwatch.sorted.of_cons, hwatch.ordered⟩
  · rintro ⟨⟩
  · exact fun other hother => hwatch.listed other (mem_cons_of_mem _ hother)

theorem failVisit_watched (answers : VisitAnswers ownUserId)
    (hwatch : Watched after (record :: rest) found) :
    Triple (During found) (failVisit answers record) (fun _ => Watched after rest) stop := by
  refine Triple.get_eq.bind fun caughtState => ?_
  have hheld : Triple (fun state => caughtState = state ∧ During found state)
      (holdBack record (caughtState.memory.conversationOf record))
      (fun _ => StepEnd found record (.wait (answers.later + receiveRetryBackoffMs : ℤ)))
      stop := by
    refine .modify _ ?_
    rintro state ⟨rfl, hduring⟩
    exact ⟨hduring.with_block record _, fun _ => block_heldFrom ..⟩
  refine hheld.bind fun _ => ?_
  refine Triple.andThen (.modify _ ?_) fun _ => visited_watched hwatch
  rintro state ⟨hduring, hheld⟩
  exact ⟨hduring.with_memory _, hheld⟩

theorem visit_watched (answers : VisitAnswers ownUserId) (cappedRetry : CappedRetry) :
    Triple (Watched after (record :: rest)) (visit config params answers cappedRetry record)
      (fun _ => Watched after rest) Ordered := by
  refine (updateMemory_watched _).andThen fun _ => Triple.get_eq.bind fun found => ?_
  refine .ite (fun _ => ?_) fun hproceeds => ?_
  · exact skip_watched.weaken (fun _ hstate => hstate.2) fun _ _ hwatch => hwatch
  · have hfound (state : PassState) (hstate : found = state ∧ Watched after (record :: rest) state) :
        During found state ∧ Watched after (record :: rest) found := by
      obtain ⟨rfl, hwatch⟩ := hstate
      exact ⟨hwatch.during, hwatch⟩
    refine (Triple.assuming fun hwatch => ?_).weaken hfound fun _ _ hafter => hafter
    obtain ⟨hopen, -⟩ := not_or.mp hproceeds
    have hstep := step_stepEnd config params answers cappedRetry
      (hwatch.ready (Bool.eq_false_iff.mpr hopen))
    refine Triple.andThen (.fromResult (fun _ _ _ hduring => hduring)
      fun _ hduring => hduring.handings) fun _ => ?_
    have hcaught : Triple (During found)
        (caught (step config params answers cappedRetry record))
        (fun stepped state => During found state ∧
          ∀ step, stepped = .ok step → StepEnd found record step state) Ordered := by
      refine hstep.caught (fun step state hend => ⟨hend.1, ?_⟩)
        fun error state hduring => ⟨hduring, ?_⟩
      · rintro _ ⟨⟩
        exact hend
      · rintro _ ⟨⟩
    refine hcaught.bind fun stepped => ?_
    have hfail : Triple (fun state => During found state ∧
        ∀ step, stepped = .ok step → StepEnd found record step state)
        (failVisit answers record) (fun _ => Watched after rest) Ordered :=
      (failVisit_watched answers hwatch).weaken (fun _ hstate => hstate.1)
        fun _ _ hwatch => hwatch
    cases stepped with
    | ok step =>
      exact (visited_watched hwatch).weaken (fun _ hstate => hstate.2 step rfl)
        fun _ _ hwatch => hwatch
    | error error =>
      cases error with
      | stopped => exact .throw _ fun _ hstate => hstate.1.handings
      | failed => exact hfail
      | hookMissing => exact hfail
      | hookTimeout => exact hfail

theorem visitListed_watched (answers : String → VisitAnswers ownUserId)
    (cappedRetry : CappedRetry) :
    Triple (Watched after (record :: rest)) (visitListed config params cappedRetry answers record)
      (fun _ => Watched after rest) Ordered := by
  refine Triple.andThen (.get fun _ hwatch => hwatch) fun state => ?_
  refine .ite (fun hretries => ?_) fun _ => visit_watched config params _ cappedRetry
  have hused : UsedUp record := (of_decide_eq_true hretries).1
  refine .modify _ fun state hwatch => ?_
  refine ⟨hwatch.waiting, ?_, hwatch.whole, hwatch.cursor, ?_, ?_,
    hwatch.sorted.of_cons, hwatch.ordered⟩
  · intro htimedOut other hother
    rcases hwatch.covered htimedOut other hother with hother | hvisited | hleft
    · exact .inl hother
    · exact .inr (.inl hvisited)
    · cases hleft with
      | head => exact .inl hused
      | tail _ hrest => exact .inr (.inr hrest)
  · intro other hother
    rw [mem_append, mem_singleton] at hother
    rcases hother with hother | rfl
    · exact hwatch.capped other hother
    · exact ⟨hwatch.listed other mem_cons_self, hused⟩
  · exact fun other hother => hwatch.listed other (mem_cons_of_mem _ hother)

theorem listPage_watched (stored : List ReceiveWorkRecord) (limit : ℕ) :
    Triple (Watched after []) (listPage stored (listReceiveWork stored after limit))
      (fun _ => Watched (cursorAfter (listReceiveWork stored after limit) after)
        (listReceiveWork stored after limit)) stop := by
  refine .modify _ fun state hwatch => ?_
  exact {
    waiting := hwatch.waiting
    covered := by
      intro htimedOut record hrec
      rcases mem_append.mp hrec with hprev | hpage
      · rcases hwatch.covered htimedOut record hprev with hused | hvisited | hnone
        · exact .inl hused
        · exact .inr (.inl hvisited)
        · cases hnone
      · exact .inr (.inr hpage)
    whole := by
      intro place hstood hreached
      by_cases hprev : ∃ record ∈ state.listed, place ≤ record.orderKey
      · obtain ⟨record, hrec, hkey⟩ := hwatch.whole place
          (fun other hother => hstood other (mem_append_left _ hother)) hprev
        exact ⟨record, mem_append_left _ hrec, hkey⟩
      · -- The place is after the last page, so the new page lists it if it goes beyond it.
        obtain ⟨last, hlast, hle⟩ := hreached
        obtain hlist | hpage := mem_append.mp hlast
        · exact absurd ⟨last, hlist, hle⟩ hprev
        · obtain rfl | hlt := hle.eq_or_lt
          · exact ⟨last, hlast, rfl⟩
          · obtain ⟨record, hrec, rfl⟩ :=
              hstood stored (mem_append_right _ (mem_singleton_self _))
            refine ⟨record, mem_append_right _ ?_, rfl⟩
            refine mem_listReceiveWork hrec (fun place hplace => ?_) hpage hlt
            obtain ⟨other, hother, rfl⟩ := hwatch.cursor place hplace
            exact lt_of_not_ge fun hge => hprev ⟨other, hother, hge⟩
    cursor := by
      intro place hplace
      rw [cursorAfter, or_eq_some_iff] at hplace
      rcases hplace with hpage | ⟨-, hafter⟩
      · obtain ⟨record, hlast, hkey⟩ := map_eq_some_iff.mp hpage
        exact ⟨record, mem_append_right _ (mem_of_getLast? hlast), hkey⟩
      · obtain ⟨record, hrec, hkey⟩ := hwatch.cursor place hafter
        exact ⟨record, mem_append_left _ hrec, hkey⟩
    capped := fun record hrec =>
      (hwatch.capped record hrec).imp_left (mem_append_left _)
    listed := fun record hrec => mem_append_right _ hrec
    sorted := (listReceiveWork_pairwise stored after limit).imp .inl
    ordered := hwatch.ordered }

theorem readPages_watched (cappedRetry : CappedRetry) (reads : List (PageRead ownUserId)) :
    Triple (Watched after []) (readPages config params cappedRetry reads after)
      (fun _ state => ∃ last, Watched last [] state) Ordered := by
  induction reads generalizing after with
  | nil => exact .throw _ fun _ hwatch => hwatch.ordered
  | cons read reads ih =>
    refine (listPage_watched read.stored receiveWorkDefaultLimit).bind fun _ => ?_
    refine Triple.bind (.forM _ fun record rest => ?_) fun _ => ?_
    · exact visitListed_watched config params read.answers cappedRetry
    · exact .ite (fun _ => .pure _ fun _ hwatch => ⟨_, hwatch⟩) fun _ => ih

theorem Watched.withCapped (hwatch : Watched after [] state) :
    Watched after state.capped state :=
  { hwatch with
    covered := by
      intro htimedOut record hrec
      rcases hwatch.covered htimedOut record hrec with hused | hvisited | hnone
      · exact .inl hused
      · exact .inr (.inl hvisited)
      · cases hnone
    listed := fun record hrec => (hwatch.capped record hrec).1
    sorted := pairwise_of_forall_mem_list fun _ _ other hother =>
      .inr (hwatch.capped other hother).2 }

theorem visitPages_ordered (cappedRetry : CappedRetry) (answers : PassAnswers ownUserId) :
    Triple (Watched none []) (visitPages config params cappedRetry answers)
      (fun _ => Ordered) Ordered := by
  refine (readPages_watched config params cappedRetry answers.reads).bind fun _ => ?_
  refine Triple.get_eq.bind fun found => ?_
  rintro state ⟨rfl, last, hwatch⟩
  have hcapped : Triple (Watched last found.capped)
      (found.capped.forM fun record =>
        visit config params (answers.capped record.workId) cappedRetry record)
      (fun _ => Watched last []) Ordered :=
    .forM _ fun record rest => visit_watched config params _ cappedRetry
  exact hcapped.weaken_post (fun _ _ hend => hend.ordered) found hwatch.withCapped

theorem passStart_watched (memory : QueueMemory) : Watched none [] (passStart memory) where
  waiting := by rintro _ ⟨⟩
  covered := by rintro _ _ ⟨⟩
  whole := by rintro _ _ ⟨_, ⟨⟩, _⟩
  cursor := by rintro _ ⟨⟩
  capped := by rintro _ ⟨⟩
  listed := by rintro _ ⟨⟩
  sorted := .nil
  ordered := by rintro _ ⟨⟩

theorem endPass_handings (cappedRetry : CappedRetry) (finished : Bool) (state : PassState) :
    (endPass cappedRetry finished state).handings = state.handings := by
  rw [endPass]
  split <;> rfl

theorem runPass_ordered (cappedRetry : CappedRetry) (answers : PassAnswers ownUserId)
    (memory : QueueMemory) : Ordered (runPass config params cappedRetry answers memory) := by
  obtain ⟨hok, herr⟩ := visitPages_ordered config params cappedRetry answers _
    (passStart_watched memory)
  rw [runPass]
  cases hrun : visitPages config params cappedRetry answers (passStart memory) with
  | ok value state =>
    intro handing hhanding
    exact hok value state hrun handing (endPass_handings .. ▸ hhanding)
  | error error state =>
    intro handing hhanding
    exact herr error state hrun handing (endPass_handings .. ▸ hhanding)

theorem next_ordered {queue : QueueState} (event : QueueEvent ownUserId)
    (hordered : ∀ handing ∈ queue.handings, handing.InOrder) :
    ∀ handing ∈ (queue.next config params event).handings, handing.InOrder := by
  have hafterPass (cappedRetry : CappedRetry) (answers : PassAnswers ownUserId) :
      ∀ handing ∈ (queue.afterPass
        (runPass config params cappedRetry answers queue.memory)).handings, handing.InOrder := by
    intro handing hhanding
    rcases mem_append.mp hhanding with hprev | hpass
    · exact hordered handing hprev
    · exact runPass_ordered config params cappedRetry answers queue.memory handing hpass
  cases event with
  | memory event => exact hordered
  | run answers =>
    rw [QueueState.next]
    split
    · exact hordered
    · exact hafterPass _ answers
  | processPending answers => exact hafterPass _ answers

/-- In every run, the hook gets the content of a record only after each earlier record that the
queue knows to be of its conversation is settled or used up. -/
theorem content_handed_in_order (events : List (QueueEvent ownUserId)) :
    ∀ handing ∈ (runQueue config params events).handings, handing.InOrder := by
  rw [runQueue]
  have hstart : ∀ handing ∈ ({} : QueueState).handings, handing.InOrder := by rintro _ ⟨⟩
  induction events using List.reverseRecOn with
  | nil => exact hstart
  | append_singleton events event ih =>
    rw [foldl_append]
    exact next_ordered config params event ih

end

section

variable {ownUserId : String} (contentOf : String → RestoredContent ownUserId)

/-- Each restore of a record of the pass gives its content. -/
def PassAnswers.RestoresTo (answers : PassAnswers ownUserId) : Prop :=
  (∀ read ∈ answers.reads, ∀ workId restored,
    (read.answers workId).restore = .ok (.committed restored) → restored = contentOf workId) ∧
  ∀ workId restored,
    (answers.capped workId).restore = .ok (.committed restored) → restored = contentOf workId

def QueueEvent.RestoresTo : QueueEvent ownUserId → Prop
  | .memory _ => True
  | .run answers => answers.RestoresTo contentOf
  | .processPending answers => answers.RestoresTo contentOf

/-- The order by the conversation of the content of each record, restored or not. -/
def Handing.InContentOrder (params : GroupParams) (handing : Handing) : Prop :=
  ∀ place < handing.record.orderKey,
    (∀ stored ∈ handing.reads, ∃ record ∈ stored, record.orderKey = place) →
      ∃ record ∈ handing.listed, record.orderKey = place ∧
        (UsedUp record ∨ ∃ visit ∈ handing.visits, visit.record = record ∧
          (conversationOf params record (contentOf record.workId) = handing.conversation →
            visit.settled.isSome))

end

def transcriptToBob : CommittedContent "alice" where
  messageId := "m1"
  senderUserId := "alice"
  senderDeviceId := 2
  messageType := "ciphertext"
  envelopeTimestamp := none
  serverTimestamp := none
  arrivedSealed := false
  plaintext := .object { sync := some (.sent "dm" 1 (some .text)) }
  text := ""
  transportGroupId := none
  receivedAt := 1
  transport_iff := by decide
  checked := by decide

def messageFromBob : CommittedContent "alice" where
  messageId := "m2"
  senderUserId := "bob"
  senderDeviceId := 1
  messageType := "ciphertext"
  envelopeTimestamp := none
  serverTimestamp := none
  arrivedSealed := false
  plaintext := .text
  text := "hello"
  transportGroupId := none
  receivedAt := 2
  transport_iff := by decide
  checked := by decide

def bobContentOf (workId : String) : RestoredContent "alice" :=
  if workId = "w1" then ⟨transcriptToBob, some "bob", false, false, false, false, false⟩
  else ⟨messageFromBob, none, false, false, false, false, false⟩

def transcriptRecord : ReceiveWorkRecord :=
  { workId := "w1", arrivalSeq := 1, receivedAt := 1, dueAt := 1, senderUserId := "alice" }

def bobRecord : ReceiveWorkRecord :=
  { workId := "w2", arrivalSeq := 2, receivedAt := 2, dueAt := 2, senderUserId := "bob" }

/-- Parameters under which every group has the same identifier. -/
def oneGroup : GroupParams where
  groupIdentifier _ := List.replicate groupIdentifierLen 0
  identifier_length _ := length_replicate

def heldTranscriptEvents : List (QueueEvent "alice") :=
  let answers (workId : String) : VisitAnswers "alice" :=
    { now := 3, restore := .ok (.committed (bobContentOf workId)) }
  [.memory (.start 0), .memory (.hold "w1"),
    .run ⟨[⟨[transcriptRecord, bobRecord], answers⟩], answers⟩]

/-- The message from Bob, which overtakes the transcript to him. -/
def bobHanding : Handing where
  record := attempted bobRecord
  conversation := "account:bob"
  reads := [[transcriptRecord, bobRecord]]
  listed := [transcriptRecord, bobRecord]
  visits := [⟨transcriptRecord, "account:alice", none⟩]

theorem heldTranscriptEvents_restoresTo :
    ∀ event ∈ heldTranscriptEvents, event.RestoresTo bobContentOf := by
  have hanswers (workId : String) (restored : RestoredContent "alice")
      (hrestore : (Except.ok (.committed (bobContentOf workId)) :
        Except VisitError (RestoreResult "alice")) = .ok (.committed restored)) :
      restored = bobContentOf workId := by
    cases hrestore
    rfl
  rw [heldTranscriptEvents]
  simp only [forall_mem_cons]
  refine ⟨trivial, trivial, ⟨?_, hanswers⟩, forall_mem_nil _⟩
  exact forall_mem_singleton.mpr hanswers

theorem bobHanding_handed :
    bobHanding ∈ (runQueue ⟨true⟩ oneGroup heldTranscriptEvents).handings := by
  decide

theorem content_handed_in_order_bobHanding : bobHanding.InOrder :=
  content_handed_in_order ⟨true⟩ oneGroup heldTranscriptEvents bobHanding bobHanding_handed

/-- A record that no pass has restored holds back the account of its sender alone. -/
theorem transcript_overtaken :
    ¬ ∀ events : List (QueueEvent "alice"), (∀ event ∈ events, event.RestoresTo bobContentOf) →
      ∀ handing ∈ (runQueue ⟨true⟩ oneGroup events).handings,
        handing.InContentOrder bobContentOf oneGroup := by
  intro horder
  obtain ⟨record, hlisted, hkey, hseen⟩ := horder _ heldTranscriptEvents_restoresTo _
    bobHanding_handed transcriptRecord.orderKey (by decide) (by
      rw [bobHanding]
      exact forall_mem_singleton.mpr ⟨transcriptRecord, mem_cons_self, rfl⟩)
  obtain rfl | rfl : record = transcriptRecord ∨ record = bobRecord := by
    simpa [bobHanding] using hlisted
  · rcases hseen with hused | ⟨visit, hvisit, -, hsettled⟩
    · exact absurd hused (Nat.not_succ_le_zero _)
    · obtain rfl : visit = ⟨transcriptRecord, "account:alice", none⟩ := by
        simpa [bobHanding] using hvisit
      cases hsettled (by decide)
  · exact absurd hkey (by decide)

end SignalProtocol.Receive

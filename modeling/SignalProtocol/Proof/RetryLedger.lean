import SignalProtocol.Retry.Ledger

/-! # The processed envelopes of the incoming ledger

The index of the ledger names the day of every record it prunes, so a fulfilled record stays as
long as the clock stays in the window of its lifetime. -/

namespace SignalProtocol.Retry

variable {store : RetryStore} {envelopeId failedEnvelopeId : EnvelopeId} {low now : ℤ}

/-- The readings at most the lifetime of a fulfilled record after `low`. -/
def InLifetime (low now : ℤ) : Prop :=
  low ≤ now ∧ now ≤ low + RETRY_REQUESTER_RECORD_TTL_MS

namespace RetryStore

/-- The application got the content of the failed envelope, at `low` or later. -/
def FulfilledSince (store : RetryStore) (failedEnvelopeId : EnvelopeId) (low : ℤ) : Prop :=
  ∃ record, store.processed failedEnvelopeId = some record ∧ record.fulfilled = true ∧
    low ≤ record.processedAt

def IndexSound (store : RetryStore) : Prop :=
  ∀ entry ∈ store.incoming, ∃ record, store.processed entry.2 = some record ∧
    entry.1 = dayFor (processedEnvelopeIndexTime record)

end RetryStore

theorem dayFor_mono {earlier later : ℤ} (hle : earlier ≤ later) : dayFor earlier ≤ dayFor later :=
  Int.ediv_le_ediv (by decide) hle

theorem processedEnvelopeTtl_of_fulfilled {record : ProcessedEnvelope}
    (hfulfilled : record.fulfilled = true) :
    processedEnvelopeTtl record = RETRY_REQUESTER_RECORD_TTL_MS := by
  simp [processedEnvelopeTtl, hfulfilled]

theorem RetryStore.FulfilledSince.counts (hfulfilled : store.FulfilledSince failedEnvelopeId low)
    (hnow : InLifetime low now) :
    ∃ record, store.getProcessedEnvelope failedEnvelopeId now = some record ∧
      record.fulfilled = true := by
  obtain ⟨record, hrec, hflag, hat⟩ := hfulfilled
  refine ⟨record, ?_, hflag⟩
  have hlive : now - processedEnvelopeTtl record ≤ record.processedAt := by
    rw [processedEnvelopeTtl_of_fulfilled hflag]
    have hlast := hnow.2
    omega
  unfold RetryStore.getProcessedEnvelope
  rw [hrec, Option.filter_some, if_pos (decide_eq_true hlive)]

theorem mem_pruned_iff {entry : ℤ × EnvelopeId} :
    entry ∈ (store.pruneExpiredBuckets now).incoming ↔
      entry ∈ store.incoming ∧ dayFor (now - RELIABILITY_RECORD_TTL_MS) ≤ entry.1 := by
  unfold RetryStore.pruneExpiredBuckets
  simp only [List.mem_filter, decide_eq_true_eq]

theorem pruned_processed (hday : ∀ entry ∈ store.incoming, entry.2 = envelopeId →
      dayFor (now - RELIABILITY_RECORD_TTL_MS) ≤ entry.1) :
    (store.pruneExpiredBuckets now).processed envelopeId = store.processed envelopeId := by
  unfold RetryStore.pruneExpiredBuckets
  refine if_neg ?_
  intro hany
  obtain ⟨entry, hmem, hentry⟩ := List.any_eq_true.mp hany
  rw [Bool.and_eq_true, beq_iff_eq, decide_eq_true_eq] at hentry
  have hkept := hday entry hmem hentry.1
  omega

theorem pruned_processed_some {record : ProcessedEnvelope}
    (hrec : (store.pruneExpiredBuckets now).processed envelopeId = some record) :
    store.processed envelopeId = some record := by
  unfold RetryStore.pruneExpiredBuckets at hrec
  dsimp only at hrec
  split at hrec
  · cases hrec
  · exact hrec

theorem RetryStore.IndexSound.pruned (hsound : store.IndexSound) (now : ℤ) :
    (store.pruneExpiredBuckets now).IndexSound := by
  intro entry hmem
  obtain ⟨hindexed, hretain⟩ := mem_pruned_iff.mp hmem
  obtain ⟨record, hrec, hday⟩ := hsound entry hindexed
  refine ⟨record, ?_, hday⟩
  rw [pruned_processed, hrec]
  intro other hother hsame
  obtain ⟨otherRecord, hotherRecord, hotherDay⟩ := hsound other hother
  rw [hsame, hrec] at hotherRecord
  cases hotherRecord
  rw [hotherDay, ← hday]
  exact hretain

section Write

variable {write : ProcessedEnvelopeWrite}

theorem indexRecord_processed (envelopeId : EnvelopeId) (timestamp : ℤ) :
    (store.indexRecord envelopeId timestamp).processed = store.processed := by
  unfold RetryStore.indexRecord
  split <;> rfl

theorem mem_indexRecord_iff {timestamp : ℤ} {entry : ℤ × EnvelopeId} :
    entry ∈ (store.indexRecord envelopeId timestamp).incoming ↔
      entry ∈ store.incoming ∨ entry = (dayFor timestamp, envelopeId) := by
  unfold RetryStore.indexRecord
  split
  case isTrue hindexed =>
    constructor
    · exact .inl
    · rintro (hmem | rfl)
      · exact hmem
      · exact hindexed
  case isFalse => simp

/-- What a write of a processed record leaves: the record, and the pruned records of the others. -/
theorem writeProcessedEnvelope_processed :
    (store.writeProcessedEnvelope now write).processed =
      Function.update (store.pruneExpiredBuckets now).processed write.envelopeId
        (store.processedRecord now write) := by
  unfold RetryStore.writeProcessedEnvelope
  dsimp only
  cases store.processed write.envelopeId with
  | none => exact indexRecord_processed _ _
  | some existing =>
    dsimp only
    split <;> exact indexRecord_processed _ _

theorem mem_written {entry : ℤ × EnvelopeId}
    (hmem : entry ∈ (store.writeProcessedEnvelope now write).incoming) :
    entry = (dayFor (processedEnvelopeIndexTime (store.processedRecord now write)),
        write.envelopeId) ∨
      entry ∈ (store.pruneExpiredBuckets now).incoming ∧
        ∀ existing, store.processed write.envelopeId = some existing →
          entry = (dayFor (processedEnvelopeIndexTime existing), write.envelopeId) →
          dayFor (processedEnvelopeIndexTime existing) =
            dayFor (processedEnvelopeIndexTime (store.processedRecord now write)) := by
  unfold RetryStore.writeProcessedEnvelope at hmem
  dsimp only at hmem
  cases hexist : store.processed write.envelopeId with
  | none =>
    rw [hexist] at hmem
    obtain hold | hnew := mem_indexRecord_iff.mp hmem
    · refine .inr ⟨hold, ?_⟩
      rintro existing ⟨⟩
    · exact .inl hnew
  | some existing =>
    rw [hexist] at hmem
    dsimp only at hmem
    split at hmem
    case isTrue hmoved =>
      obtain ⟨hindexed, hother⟩ := List.mem_filter.mp hmem
      obtain hold | hnew := mem_indexRecord_iff.mp hindexed
      · refine .inr ⟨hold, ?_⟩
        intro other hsame hentry
        cases hsame
        rw [hentry, bne_self_eq_false] at hother
        cases hother
      · exact .inl hnew
    case isFalse hsameDay =>
      obtain hold | hnew := mem_indexRecord_iff.mp hmem
      · refine .inr ⟨hold, ?_⟩
        intro other hsame _
        cases hsame
        exact of_not_not hsameDay
      · exact .inl hnew

theorem RetryStore.IndexSound.written (hsound : store.IndexSound) (now : ℤ)
    (write : ProcessedEnvelopeWrite) : (store.writeProcessedEnvelope now write).IndexSound := by
  intro entry hmem
  rw [writeProcessedEnvelope_processed]
  obtain rfl | ⟨hold, hunmoved⟩ := mem_written hmem
  · exact ⟨_, Function.update_self _ _ _, rfl⟩
  · by_cases hid : entry.2 = write.envelopeId
    · obtain ⟨hindexed, -⟩ := mem_pruned_iff.mp hold
      obtain ⟨record, hrec, hday⟩ := hsound entry hindexed
      rw [hid] at hrec ⊢
      refine ⟨_, Function.update_self _ _ _, ?_⟩
      rw [← hunmoved record hrec (Prod.ext hday hid)]
      exact hday
    · rw [Function.update_of_ne hid]
      exact hsound.pruned now entry hold

theorem RetryStore.FulfilledSince.written (hsound : store.IndexSound)
    (hfulfilled : store.FulfilledSince failedEnvelopeId low) (hnow : InLifetime low now)
    (write : ProcessedEnvelopeWrite) :
    (store.writeProcessedEnvelope now write).FulfilledSince failedEnvelopeId low := by
  rw [RetryStore.FulfilledSince, writeProcessedEnvelope_processed]
  by_cases hid : failedEnvelopeId = write.envelopeId
  · obtain ⟨record, hrec, hflag⟩ := hfulfilled.counts hnow
    subst hid
    refine ⟨_, Function.update_self _ _ _, ?_, hnow.1⟩
    simp [RetryStore.processedRecord, hrec, hflag]
  · obtain ⟨record, hrec, hflag, hat⟩ := hfulfilled
    refine ⟨record, ?_, hflag, hat⟩
    rw [Function.update_of_ne hid, pruned_processed, hrec]
    intro entry hmem hentry
    obtain ⟨indexed, hindexed, hday⟩ := hsound entry hmem
    rw [hentry, hrec] at hindexed
    cases hindexed
    rw [hday]
    apply dayFor_mono
    unfold processedEnvelopeIndexTime
    rw [processedEnvelopeTtl_of_fulfilled hflag]
    have hlast := hnow.2
    omega

end Write

end SignalProtocol.Retry

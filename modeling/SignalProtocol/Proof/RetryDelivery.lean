import SignalProtocol.Library.Transition
import SignalProtocol.Proof.RetryLedger

/-! # A retry family delivers once, from the asked sender

The operations of one receive keep every fact about the store that its writes keep. -/

namespace SignalProtocol.Retry

open Results List

variable {α : Type} {failedEnvelopeId : EnvelopeId}

/-- The clock only reads what `window` admits, and the store is as `holds` says. -/
def Over (window : ℤ → Prop) (holds : RetryStore → Prop) (run : FamilyRun) : Prop :=
  (∀ now ∈ run.clock, window now) ∧ holds run.store

/-- The writes of a receive that touch only the envelopes that are `mine` keep `holds`. -/
structure Kept (window : ℤ → Prop) (mine : EnvelopeId → Prop) (holds : RetryStore → Prop) :
    Prop where
  processed : ∀ store write now, window now → mine write.envelopeId → holds store →
    holds (store.writeProcessedEnvelope now write)
  answered : ∀ store failedEnvelopeId retryId attempt now, mine failedEnvelopeId → holds store →
    holds (store.markRetryRequestAnswered failedEnvelopeId retryId attempt now)
  updated : ∀ store failedEnvelopeId retryId attempt changes now,
    (∀ record : StoredRetryRequest, (changes record).answered = record.answered ∧
      (changes record).target = record.target) → holds store →
    holds (store.updateRetryRequest failedEnvelopeId retryId attempt changes now).2
  request : ∀ store request, mine request.failedEnvelopeId → holds store →
    holds (store.storeRetryRequest request)

section Operations

variable {window : ℤ → Prop} {mine : EnvelopeId → Prop} {holds : RetryStore → Prop}

theorem readStore_triple {read : ℤ → RetryStore → α} {post : α → Prop}
    (hread : ∀ now store, window now → holds store → post (read now store)) :
    Triple (Over window holds) (readStore read)
      (fun value run => Over window holds run ∧ post value) (Over window holds) := by
  rintro ⟨store, clock⟩ hrun
  cases clock with
  | nil =>
    refine ⟨?_, ?_⟩
    · rintro value next ⟨⟩
    · rintro error next ⟨⟩
      exact hrun
  | cons now clock =>
    refine ⟨?_, ?_⟩
    · intro value next hread'
      cases hread'
      refine ⟨⟨fun later hlater => hrun.1 later (mem_cons_of_mem _ hlater), hrun.2⟩, ?_⟩
      exact hread now store (hrun.1 now mem_cons_self) hrun.2
    · rintro error next ⟨⟩

theorem writeStore_reaches {write : ℤ → RetryStore → RetryStore} {after : RetryStore → Prop}
    (hwrite : ∀ now store, window now → holds store → after (write now store)) :
    Triple (Over window holds) (writeStore write) (fun _ => Over window after)
      (Over window holds) := by
  rintro ⟨store, clock⟩ hrun
  cases clock with
  | nil =>
    refine ⟨?_, ?_⟩
    · rintro value next ⟨⟩
    · rintro error next ⟨⟩
      exact hrun
  | cons now clock =>
    refine ⟨?_, ?_⟩
    · intro value next hwrote
      cases hwrote
      refine ⟨fun later hlater => hrun.1 later (mem_cons_of_mem _ hlater), ?_⟩
      exact hwrite now store (hrun.1 now mem_cons_self) hrun.2
    · rintro error next ⟨⟩

theorem writeStore_triple {write : ℤ → RetryStore → RetryStore}
    (hwrite : ∀ now store, window now → holds store → holds (write now store)) :
    Triple (Over window holds) (writeStore write) (fun _ => Over window holds)
      (Over window holds) :=
  writeStore_reaches hwrite

theorem readStore_keeps {read : ℤ → RetryStore → α} :
    Triple (Over window holds) (readStore read) (fun _ => Over window holds)
      (Over window holds) := by
  have hread : Triple (Over window holds) (readStore read)
      (fun _ run => Over window holds run ∧ True) (Over window holds) :=
    readStore_triple fun _ _ _ _ => trivial
  exact hread.weaken_post fun _ _ hrun => hrun.1

theorem pure_keeps (value : α) :
    Triple (Over window holds) (pure value : RetryM α) (fun _ => Over window holds)
      (Over window holds) :=
  Triple.pure value fun _ hrun => hrun

variable (kept : Kept window mine holds)
include kept

theorem storeProcessedEnvelope_keeps {envelopeId : EnvelopeId} (hmine : mine envelopeId)
    (fingerprint : Option Fingerprint) (fulfilled : Bool) :
    Triple (Over window holds) (storeProcessedEnvelope envelopeId fingerprint fulfilled)
      (fun _ => Over window holds) (Over window holds) :=
  writeStore_triple fun now store hnow hstore => kept.processed store _ now hnow hmine hstore

theorem post_keeps (hmine : mine failedEnvelopeId) (post : RetryPost) :
    Triple (Over window holds) (post.run failedEnvelopeId) (fun _ => Over window holds)
      (Over window holds) := by
  unfold RetryPost.run
  cases post.request with
  | none => exact pure_keeps _
  | some request =>
    refine Triple.bind (writeStore_triple fun _ store _ hstore => ?_) fun _ => pure_keeps _
    exact kept.request store _ hmine hstore

theorem reportDeliveryRecovered_keeps (failedEnvelopeId : EnvelopeId) :
    Triple (Over window holds) (reportDeliveryRecovered failedEnvelopeId)
      (fun _ => Over window holds) (Over window holds) := by
  unfold reportDeliveryRecovered
  refine Triple.bind readStore_keeps fun record => ?_
  cases record with
  | none => exact pure_keeps _
  | some record =>
    refine Triple.ite (fun _ => pure_keeps _) fun _ => ?_
    refine Triple.bind readStore_keeps fun processed => ?_
    refine Triple.ite (fun _ => pure_keeps _) fun _ => ?_
    refine writeStore_triple fun now store _ hstore => ?_
    exact kept.updated store _ _ _ _ now (fun _ => ⟨rfl, rfl⟩) hstore

end Operations

/-! ## The family of an envelope -/

namespace RetryFamilyReceive

structure Formed (family : RetryFamilyReceive) : Prop where
  member : ∀ member, family.member = some member →
    family.failedEnvelopeId = some member.failedEnvelopeId
  ordinary : family.member = none → family.failedEnvelopeId = family.delivered.id

/-- What the sender of the envelope decides, which `admitEnvelope` leaves as it is. -/
structure SameFamily (family next : RetryFamilyReceive) : Prop where
  delivered : next.delivered = family.delivered
  requested : next.requested = family.requested
  member : next.member = family.member
  failedEnvelopeId : next.failedEnvelopeId = family.failedEnvelopeId
  senderBound : next.senderBound = family.senderBound

structure Writes (family : RetryFamilyReceive) (mine : EnvelopeId → Prop) : Prop where
  own : ∀ envelopeId, family.delivered.id = some envelopeId → mine envelopeId
  failed : ∀ envelopeId, family.failedEnvelopeId = some envelopeId → mine envelopeId
  member : ∀ member, family.member = some member → mine member.failedEnvelopeId

variable {family next : RetryFamilyReceive} {mine : EnvelopeId → Prop}

protected theorem SameFamily.refl (family : RetryFamilyReceive) : family.SameFamily family where
  delivered := rfl
  requested := rfl
  member := rfl
  failedEnvelopeId := rfl
  senderBound := rfl

protected theorem SameFamily.trans {last : RetryFamilyReceive} (hfst : family.SameFamily next)
    (hsnd : next.SameFamily last) : family.SameFamily last where
  delivered := hsnd.delivered.trans hfst.delivered
  requested := hsnd.requested.trans hfst.requested
  member := hsnd.member.trans hfst.member
  failedEnvelopeId := hsnd.failedEnvelopeId.trans hfst.failedEnvelopeId
  senderBound := hsnd.senderBound.trans hfst.senderBound

theorem SameFamily.formed (hsame : family.SameFamily next) (hformed : family.Formed) :
    next.Formed where
  member := by
    rw [hsame.member, hsame.failedEnvelopeId]
    exact hformed.member
  ordinary := by
    rw [hsame.member, hsame.failedEnvelopeId, hsame.delivered]
    exact hformed.ordinary

theorem Writes.same (hsame : family.SameFamily next) (hwrites : family.Writes mine) :
    next.Writes mine where
  own := by
    rw [hsame.delivered]
    exact hwrites.own
  failed := by
    rw [hsame.failedEnvelopeId]
    exact hwrites.failed
  member := by
    rw [hsame.member]
    exact hwrites.member

theorem writes_all : family.Writes fun _ => True where
  own := fun _ _ => trivial
  failed := fun _ _ => trivial
  member := fun _ _ => trivial

theorem bindSender_delivered (sender : EnvelopeSender) :
    (family.bindSender sender).delivered = family.delivered := by
  unfold bindSender
  split
  · rfl
  · split <;> rfl

theorem bindSender_requested (sender : EnvelopeSender) :
    (family.bindSender sender).requested = family.requested := by
  unfold bindSender
  split
  · rfl
  · split <;> rfl

theorem Formed.bindSender (hformed : family.Formed) (sender : EnvelopeSender) :
    (family.bindSender sender).Formed := by
  unfold RetryFamilyReceive.bindSender
  split
  · exact ⟨hformed.member, hformed.ordinary⟩
  · split
    · exact ⟨hformed.member, hformed.ordinary⟩
    · refine ⟨?_, fun _ => rfl⟩
      rintro member ⟨⟩

theorem Formed.named (hformed : family.Formed) (fingerprint : Option Fingerprint) :
    (family.named fingerprint).Formed := by
  unfold RetryFamilyReceive.named
  have hprint : Formed { family with receivedFingerprint := fingerprint } :=
    ⟨hformed.member, hformed.ordinary⟩
  split
  · exact hprint.bindSender _
  · exact hprint

theorem named_delivered (fingerprint : Option Fingerprint) :
    (family.named fingerprint).delivered = family.delivered := by
  unfold named
  split
  · exact bindSender_delivered _
  · rfl

end RetryFamilyReceive

section Receive

variable {window : ℤ → Prop} {mine : EnvelopeId → Prop} {holds : RetryStore → Prop}
variable {family : RetryFamilyReceive} (kept : Kept window mine holds)

open RetryFamilyReceive

include kept

theorem markAnswered_keeps (hwrites : family.Writes mine) :
    Triple (Over window holds) family.markAnswered
      (fun marked run => Over window holds run ∧ family.SameFamily marked)
      (Over window holds) := by
  unfold RetryFamilyReceive.markAnswered
  split
  case h_1 member failedEnvelopeId hmember hfailed =>
    refine Triple.ite (fun _ => ?_) fun _ => ?_
    · exact Triple.pure _ fun _ hrun => ⟨hrun, .refl family⟩
    · refine Triple.bind (writeStore_triple fun now store _ hstore => ?_) fun _ => ?_
      · exact kept.answered store _ _ _ now (hwrites.failed _ hfailed) hstore
      · exact Triple.pure _ fun _ hrun => ⟨hrun, rfl, rfl, rfl, rfl, rfl⟩
  case h_2 => exact Triple.pure _ fun _ hrun => ⟨hrun, .refl family⟩

theorem afterMark_keeps (hwrites : family.Writes mine) {next : RetryFamilyReceive → RetryM α}
    (hnext : ∀ marked : RetryFamilyReceive, marked.Writes mine →
      Triple (Over window holds) (next marked) (fun _ => Over window holds)
        (Over window holds)) :
    Triple (Over window holds) (family.markAnswered >>= next) (fun _ => Over window holds)
      (Over window holds) := by
  refine Triple.bind (markAnswered_keeps kept hwrites) fun marked => ?_
  exact Triple.assuming fun hsame => hnext marked (hwrites.same hsame)

omit kept in
theorem fulfills_eq_some {decrypted : DecryptedContent}
    (hfulfills : family.fulfills decrypted = some failedEnvelopeId) :
    family.failedEnvelopeId = some failedEnvelopeId := by
  unfold RetryFamilyReceive.fulfills at hfulfills
  split at hfulfills
  · cases hfulfills
  · split at hfulfills
    · cases hfulfills
    · split at hfulfills
      · exact hfulfills
      · cases hfulfills

theorem recordGroup_keeps (failedEnvelopeId : EnvelopeId) (decrypted : DecryptedContent) :
    Triple (Over window holds) (family.recordGroup failedEnvelopeId decrypted)
      (fun _ => Over window holds) (Over window holds) := by
  unfold RetryFamilyReceive.recordGroup
  split
  · refine Triple.ite (fun _ => pure_keeps _) fun _ => ?_
    refine writeStore_triple fun now store _ hstore => ?_
    exact kept.updated store _ _ _ _ now (fun _ => ⟨rfl, rfl⟩) hstore
  · exact pure_keeps _

section

variable (hwrites : family.Writes mine)
  (fingerprint : Option Fingerprint)

include hwrites

theorem fulfill_keeps (decrypted : DecryptedContent) :
    Triple (Over window holds) (family.fulfill decrypted) (fun _ => Over window holds)
      (Over window holds) := by
  unfold RetryFamilyReceive.fulfill
  refine Triple.ite (fun _ => pure_keeps _) fun _ => ?_
  refine afterMark_keeps kept hwrites fun marked hmarked => ?_
  cases hfulfills : marked.fulfills decrypted with
  | none => exact pure_keeps _
  | some failedEnvelopeId =>
    refine Triple.bind (recordGroup_keeps kept failedEnvelopeId decrypted) fun _ => ?_
    have hmine := hmarked.failed _ (fulfills_eq_some hfulfills)
    exact storeProcessedEnvelope_keeps kept hmine none true

theorem consumeFailed_keeps :
    Triple (Over window holds) family.consumeFailed (fun _ => Over window holds)
      (Over window holds) := by
  unfold RetryFamilyReceive.consumeFailed
  split
  · exact pure_keeps _
  case h_2 member hmember =>
    refine Triple.ite (fun _ => ?_) fun _ => pure_keeps _
    refine afterMark_keeps kept hwrites fun marked _ => ?_
    exact storeProcessedEnvelope_keeps kept (hwrites.member _ hmember) none false

theorem consumeNull_keeps :
    Triple (Over window holds) (family.consumeNull fingerprint) (fun _ => Over window holds)
      (Over window holds) := by
  unfold RetryFamilyReceive.consumeNull
  refine Triple.bind (consumeFailed_keeps kept hwrites) fun _ => ?_
  split
  · exact pure_keeps _
  case h_2 envelopeId hid =>
    exact storeProcessedEnvelope_keeps kept (hwrites.own _ hid) fingerprint false

theorem recordPosted_keeps (outcome : RetryRequestOutcome) (fingerprint : Option Fingerprint) :
    Triple (Over window holds) (family.recordPosted outcome fingerprint)
      (fun _ => Over window holds) (Over window holds) := by
  unfold RetryFamilyReceive.recordPosted
  split
  · exact pure_keeps _
  case h_2 envelopeId hid =>
    refine Triple.ite (fun _ => ?_) fun _ => pure_keeps _
    exact storeProcessedEnvelope_keeps kept (hwrites.own _ hid) fingerprint false

theorem requestRetry_keeps (post : RetryPost) :
    Triple (Over window holds) (family.requestRetry fingerprint post)
      (fun _ => Over window holds) (Over window holds) := by
  unfold RetryFamilyReceive.requestRetry
  split
  · exact pure_keeps _
  case h_2 failedEnvelopeId hfailed =>
    have hpost := post_keeps kept (hwrites.failed _ hfailed) post
    refine Triple.ite (fun _ => ?_) fun _ => ?_
    · refine Triple.bind readStore_keeps fun stored => ?_
      exact Triple.ite (fun _ => pure_keeps _) fun _ => hpost
    · refine afterMark_keeps kept hwrites fun marked _ => ?_
      refine Triple.bind readStore_keeps fun _ => ?_
      refine Triple.bind hpost fun outcome => ?_
      exact Triple.bind (recordPosted_keeps kept hwrites outcome fingerprint)
        fun _ => pure_keeps _

theorem afterDecrypt_keeps (delivery : Delivery) :
    Triple (Over window holds) (delivery.afterDecrypt family) (fun _ => Over window holds)
      (Over window holds) := by
  unfold Delivery.afterDecrypt
  split
  · exact pure_keeps _
  · exact Triple.bind (requestRetry_keeps kept hwrites _ _) fun _ => pure_keeps _
  · exact consumeNull_keeps kept hwrites _
  · exact fulfill_keeps kept hwrites _

end

end Receive

/-! ## Admission -/

section Admission

open RetryFamilyReceive

variable {window : ℤ → Prop} {mine : EnvelopeId → Prop} {holds : RetryStore → Prop}
variable {family : RetryFamilyReceive}

/-- What a store that `holds` shows of the envelopes that the checks let through. -/
structure Shows (window : ℤ → Prop) (holds : RetryStore → Prop)
    (unprocessed unfulfilled : EnvelopeId → Prop) : Prop where
  processed : ∀ now store envelopeId, window now → holds store →
    store.getProcessedEnvelope envelopeId now = none → unprocessed envelopeId
  fulfilled : ∀ now store envelopeId, window now → holds store →
    (store.getProcessedEnvelope envelopeId now).any (·.fulfilled) = false → unfulfilled envelopeId

variable {unprocessed unfulfilled : EnvelopeId → Prop}
variable (shows : Shows window holds unprocessed unfulfilled)

include shows in
theorem processedBefore_triple :
    Triple (Over window holds) family.processedBefore
      (fun value run => Over window holds run ∧ (value = false →
        ∀ envelopeId, family.delivered.id = some envelopeId → unprocessed envelopeId))
      (Over window holds) := by
  unfold RetryFamilyReceive.processedBefore
  split
  case h_1 hid =>
    refine Triple.pure _ fun _ hrun => ⟨hrun, ?_⟩
    intro _ envelopeId hsome
    rw [hid] at hsome
    cases hsome
  case h_2 envelopeId hid =>
    have hread : Triple (Over window holds) (readProcessedEnvelope envelopeId)
        (fun processed run => Over window holds run ∧
          (processed = none → unprocessed envelopeId)) (Over window holds) :=
      readStore_triple fun now store hnow hstore => shows.processed now store envelopeId hnow hstore
    refine Triple.bind hread fun processed => ?_
    refine Triple.pure _ fun _ hrun => ⟨hrun.1, ?_⟩
    intro hnone other hother
    rw [hid] at hother
    cases hother
    exact hrun.2 (by simpa using hnone)

include shows in
theorem fulfilledBefore_triple :
    Triple (Over window holds) family.fulfilledBefore
      (fun value run => Over window holds run ∧ (value = false → ∀ member failedEnvelopeId,
        family.member = some member → family.failedEnvelopeId = some failedEnvelopeId →
        unfulfilled failedEnvelopeId))
      (Over window holds) := by
  unfold RetryFamilyReceive.fulfilledBefore
  split
  case h_1 member failedEnvelopeId hmember hfailed =>
    have hread : Triple (Over window holds) (readProcessedEnvelope failedEnvelopeId)
        (fun processed run => Over window holds run ∧
          (processed.any (·.fulfilled) = false → unfulfilled failedEnvelopeId))
        (Over window holds) :=
      readStore_triple fun now store hnow hstore =>
        shows.fulfilled now store failedEnvelopeId hnow hstore
    refine Triple.bind hread fun processed => ?_
    refine Triple.pure _ fun _ hrun => ⟨hrun.1, ?_⟩
    intro hnone _ other _ hother
    rw [hfailed] at hother
    cases hother
    exact hrun.2 hnone
  case h_2 hnone =>
    refine Triple.pure _ fun _ hrun => ⟨hrun, ?_⟩
    intro _ member failedEnvelopeId hmember hfailed
    exact absurd hfailed (hnone member failedEnvelopeId hmember)

theorem markArrival_keeps (kept : Kept window mine holds)
    (hbound : family.senderBound = true → ∀ failedEnvelopeId,
      family.failedEnvelopeId = some failedEnvelopeId → mine failedEnvelopeId) :
    Triple (Over window holds) family.markArrival
      (fun arrived run => Over window holds run ∧ family.SameFamily arrived)
      (Over window holds) := by
  unfold RetryFamilyReceive.markArrival
  split
  case h_1 member failedEnvelopeId hmember hfailed =>
    refine Triple.ite (fun hsender => ?_) fun _ => ?_
    · refine Triple.bind (writeStore_triple fun now store _ hstore => ?_) fun _ => ?_
      · exact kept.answered store _ _ _ now (hbound hsender _ hfailed) hstore
      · exact Triple.pure _ fun _ hrun => ⟨hrun, .refl family⟩
    · split
      · exact Triple.pure _ fun _ hrun => ⟨hrun, .refl family⟩
      · refine Triple.bind readStore_keeps fun _ => ?_
        exact Triple.pure _ fun _ hrun => ⟨hrun, rfl, rfl, rfl, rfl, rfl⟩
  case h_2 => exact Triple.pure _ fun _ hrun => ⟨hrun, .refl family⟩

theorem readRequest_keeps :
    Triple (Over window holds) family.readRequest
      (fun read run => Over window holds run ∧ family.SameFamily read) (Over window holds) := by
  unfold RetryFamilyReceive.readRequest
  split
  · exact Triple.pure _ fun _ hrun => ⟨hrun, .refl family⟩
  · refine Triple.bind readStore_keeps fun _ => ?_
    exact Triple.pure _ fun _ hrun => ⟨hrun, rfl, rfl, rfl, rfl, rfl⟩

structure Admitted (family : RetryFamilyReceive) (unprocessed unfulfilled : EnvelopeId → Prop) :
    Prop where
  own : ∀ envelopeId, family.delivered.id = some envelopeId → unprocessed envelopeId
  failed : ∀ member failedEnvelopeId, family.member = some member →
    family.failedEnvelopeId = some failedEnvelopeId → unfulfilled failedEnvelopeId

theorem admitNamed_triple (kept : Kept window mine holds)
    (shows : Shows window holds unprocessed unfulfilled)
    (hbound : family.senderBound = true → ∀ failedEnvelopeId,
      family.failedEnvelopeId = some failedEnvelopeId → mine failedEnvelopeId) :
    Triple (Over window holds) family.admitNamed
      (fun admitted run => Over window holds run ∧ family.SameFamily admitted.2 ∧
        (admitted.1 = true → Admitted family unprocessed unfulfilled))
      (Over window holds) := by
  unfold RetryFamilyReceive.admitNamed
  refine Triple.bind (processedBefore_triple shows) fun processed => Triple.assuming fun hown => ?_
  refine Triple.ite (fun _ => ?_) fun hunprocessed => ?_
  · refine Triple.pure _ fun _ hrun => ⟨hrun, .refl family, ?_⟩
    rintro ⟨⟩
  · refine Triple.bind (fulfilledBefore_triple shows) fun fulfilled =>
      Triple.assuming fun hfailed => ?_
    refine Triple.ite (fun _ => ?_) fun hunfulfilled => ?_
    · refine Triple.pure _ fun _ hrun => ⟨hrun, .refl family, ?_⟩
      rintro ⟨⟩
    · refine Triple.bind (markArrival_keeps kept hbound) fun arrived =>
        Triple.assuming fun harrived => ?_
      refine Triple.bind readRequest_keeps fun read => Triple.assuming fun hread => ?_
      refine Triple.pure _ fun _ hrun => ⟨hrun, harrived.trans hread, fun _ => ?_⟩
      exact ⟨hown (Bool.eq_false_iff.mpr hunprocessed), hfailed (Bool.eq_false_iff.mpr hunfulfilled)⟩

theorem admit_triple (kept : Kept window mine holds)
    (shows : Shows window holds unprocessed unfulfilled) (hformed : family.Formed)
    (fingerprint : Option Fingerprint)
    (hbound : (family.named fingerprint).senderBound = true → ∀ failedEnvelopeId,
      (family.named fingerprint).failedEnvelopeId = some failedEnvelopeId →
      mine failedEnvelopeId) :
    Triple (Over window holds) (family.admitEnvelope fingerprint)
      (fun admitted run => Over window holds run ∧
        (family.failedEnvelopeId = none ∧ admitted.2 = family ∨
          (family.named fingerprint).SameFamily admitted.2) ∧
        (admitted.1 = true → Admitted admitted.2 unprocessed unfulfilled))
      (Over window holds) := by
  unfold RetryFamilyReceive.admitEnvelope
  refine Triple.ite (fun hnone => ?_) fun _ => ?_
  · have hfailed : family.failedEnvelopeId = none := Option.isNone_iff_eq_none.mp hnone
    have hmember : family.member = none := by
      cases hmember : family.member with
      | none => rfl
      | some member =>
        rw [hformed.member member hmember] at hfailed
        cases hfailed
    refine Triple.pure _ fun _ hrun => ⟨hrun, .inl ⟨hfailed, rfl⟩, fun _ => ?_⟩
    constructor
    · rw [← hformed.ordinary hmember, hfailed]
      rintro envelopeId ⟨⟩
    · rw [hmember]
      rintro member failedEnvelopeId ⟨⟩
  · refine (admitNamed_triple kept shows hbound).weaken_post ?_
    rintro ⟨value, admitted⟩ run ⟨hrun, hsame, hadmitted⟩
    refine ⟨hrun, .inr hsame, fun hval => ?_⟩
    obtain ⟨hown, hfailed⟩ := hadmitted hval
    constructor
    · rw [hsame.delivered]
      exact hown
    · rw [hsame.member, hsame.failedEnvelopeId]
      exact hfailed

theorem openRetryFamily_triple (kept : Kept window mine holds) (unasked : EnvelopeId → Prop)
    (sender : EnvelopeSender)
    (hunasked : ∀ now store failedEnvelopeId, window now → holds store → unasked failedEnvelopeId →
      (requestedSenderOf (store.getRetryRequest failedEnvelopeId now)).any sender.is = false)
    (delivered : DeliveredEnvelope) :
    Triple (Over window holds) (openRetryFamily delivered)
      (fun family run => Over window holds run ∧ family.Formed ∧ family.delivered = delivered ∧
        family.senderBound = false ∧
        ∀ member, family.member = some member → unasked member.failedEnvelopeId →
          family.requested.any sender.is = false)
      (Over window holds) := by
  unfold openRetryFamily
  split
  case h_1 hid =>
    refine Triple.pure _ fun _ hrun => ⟨hrun, ⟨?_, fun _ => hid.symm⟩, rfl, rfl, ?_⟩
    · rintro member ⟨⟩
    · rintro member ⟨⟩
  case h_2 envelopeId hid =>
    refine Triple.bind readStore_keeps fun member => ?_
    refine Triple.bind (reportDeliveryRecovered_keeps kept _) fun _ => ?_
    have hrequested : Triple (Over window holds) (readRequestedSender member)
        (fun requested run => Over window holds run ∧ ∀ resolved, member = some resolved →
          unasked resolved.failedEnvelopeId → requested.any sender.is = false)
        (Over window holds) := by
      unfold readRequestedSender
      split
      · refine Triple.pure _ fun _ hrun => ⟨hrun, ?_⟩
        rintro resolved ⟨⟩
      case h_2 resolved =>
        have hread : Triple (Over window holds) (readRetryRequest resolved.failedEnvelopeId)
            (fun request run => Over window holds run ∧ (unasked resolved.failedEnvelopeId →
              (requestedSenderOf request).any sender.is = false)) (Over window holds) :=
          readStore_triple fun now store hnow hstore =>
            hunasked now store resolved.failedEnvelopeId hnow hstore
        refine Triple.bind hread fun request => Triple.assuming fun hreq => ?_
        refine Triple.pure _ fun _ hrun => ⟨hrun, ?_⟩
        rintro other ⟨⟩
        exact hreq
    refine Triple.bind hrequested fun requested => Triple.assuming fun hsender => ?_
    refine Triple.pure _ fun _ hrun => ⟨hrun, ⟨?_, ?_⟩, rfl, rfl, hsender⟩
    · rintro resolved rfl
      rfl
    · rintro rfl
      exact hid.symm

end Admission

/-! ## Runs of retry families

Facts about the store over whole runs: the content of a failed envelope is not asked for again in
the lifetime of its fulfilled record, and a sender that was not asked changes nothing of it. -/

open RetryFamilyReceive Option

variable {store : RetryStore} {failedEnvelopeId : EnvelopeId} {low : ℤ}

section Receive

variable {window : ℤ → Prop} {holds : RetryStore → Prop}

theorem shows_nothing : Shows window holds (fun _ => True) (fun _ => True) where
  processed := fun _ _ _ _ _ _ => trivial
  fulfilled := fun _ _ _ _ _ _ => trivial

variable (kept : Kept window (fun _ => True) holds) (delivery : Delivery)
include kept

theorem admitInFamily_triple {unprocessed unfulfilled : EnvelopeId → Prop}
    (shows : Shows window holds unprocessed unfulfilled) :
    Triple (Over window holds) delivery.admitInFamily
      (fun admitted run => Over window holds run ∧
        (admitted.1 = true → Admitted admitted.2 unprocessed unfulfilled ∧
          admitted.2.Formed ∧ admitted.2.delivered = delivery.envelope))
      (Over window holds) := by
  unfold Delivery.admitInFamily
  have hopen := openRetryFamily_triple kept (fun _ => False) delivery.envelope.sender
    (fun _ _ _ _ _ himpossible => himpossible.elim) delivery.envelope
  refine Triple.bind hopen fun family => Triple.assuming ?_
  rintro ⟨hformed, hdeliv, -⟩
  refine (admit_triple kept shows hformed delivery.fingerprint fun _ _ _ => trivial).weaken_post ?_
  rintro ⟨value, admitted⟩ run ⟨hrun, hsame, hadmitted⟩
  refine ⟨hrun, fun hval => ⟨hadmitted hval, ?_⟩⟩
  rcases hsame with ⟨-, rfl⟩ | hsame
  · exact ⟨hformed, hdeliv⟩
  · refine ⟨hsame.formed (hformed.named _), ?_⟩
    rw [hsame.delivered, named_delivered, hdeliv]

theorem receiveInRetryFamily_keeps :
    Triple (Over window holds) delivery.receiveInRetryFamily (fun _ => Over window holds)
      (Over window holds) := by
  unfold Delivery.receiveInRetryFamily
  refine Triple.bind (admitInFamily_triple kept delivery shows_nothing) fun admitted =>
    Triple.assuming fun _ => ?_
  refine Triple.ite (fun _ => ?_) fun _ => pure_keeps _
  exact afterDecrypt_keeps kept writes_all delivery

section

variable (hrequests : ∀ store failedEnvelopeId request, holds store →
  holds (store.setRetryRequest failedEnvelopeId request))

include hrequests

theorem step_keeps (event : FamilyEvent) (hwin : ∀ now ∈ event.readings, window now)
    (hstore : holds store) : holds (store.step event) := by
  cases event with
  | deliver delivery clock =>
    have hrun : Over window holds { store, clock } := ⟨hwin, hstore⟩
    exact ((receiveInRetryFamily_keeps kept delivery).finalState hrun).2
  | processed write now =>
    exact kept.processed store write now (hwin now mem_cons_self) trivial hstore
  | request request => exact kept.request store request trivial hstore
  | updated failedEnvelopeId request => exact hrequests store failedEnvelopeId request hstore

theorem run_keeps
    {events : List FamilyEvent} (hwin : ∀ event ∈ events, ∀ now ∈ event.readings, window now)
    (hstore : holds store) : holds (store.run events) := by
  unfold RetryStore.run
  induction events generalizing store with
  | nil => exact hstore
  | cons event events ih =>
    rw [foldl_cons]
    refine ih (fun later hlater => hwin later (mem_cons_of_mem _ hlater)) ?_
    exact step_keeps kept hrequests event (hwin event mem_cons_self) hstore

end

end Receive

section Requests

variable {request : StoredRetryRequest}

theorem getRetryRequest_some {now : ℤ}
    (hreq : store.getRetryRequest failedEnvelopeId now = some request) :
    store.requests failedEnvelopeId = some request :=
  (filter_eq_some_iff.mp hreq).1

variable (store : RetryStore)

theorem setRetryRequest_self (record : StoredRetryRequest) :
    (store.setRetryRequest failedEnvelopeId record).requests failedEnvelopeId = some record :=
  Function.update_self _ _ _

theorem markRetryRequestAnswered_eq (failedEnvelopeId : EnvelopeId)
    (retryId : RetryId) (attempt : ℕ) (now : ℤ) :
    store.markRetryRequestAnswered failedEnvelopeId retryId attempt now = store ∨
      ∃ record, store.markRetryRequestAnswered failedEnvelopeId retryId attempt now =
        store.setRetryRequest failedEnvelopeId record := by
  unfold RetryStore.markRetryRequestAnswered
  split
  · exact .inl rfl
  · split
    · exact .inl rfl
    · exact .inr ⟨_, rfl⟩

theorem updateRetryRequest_eq (failedEnvelopeId : EnvelopeId) (retryId : RetryId) (attempt : ℕ)
    (changes : StoredRetryRequest → StoredRetryRequest) (now : ℤ) :
    (store.updateRetryRequest failedEnvelopeId retryId attempt changes now).2 = store ∨
      ∃ record, store.requests failedEnvelopeId = some record ∧
        (store.updateRetryRequest failedEnvelopeId retryId attempt changes now).2 =
          store.setRetryRequest failedEnvelopeId (changes record) := by
  unfold RetryStore.updateRetryRequest
  split
  · exact .inl rfl
  case h_2 record hrec =>
    split
    · exact .inl rfl
    · exact .inr ⟨record, getRetryRequest_some hrec, rfl⟩

variable (request : StoredRetryRequest)

theorem storeRetryRequest_processed :
    (store.storeRetryRequest request).processed = store.processed ∧
      (store.storeRetryRequest request).incoming = store.incoming := by
  unfold RetryStore.storeRetryRequest
  dsimp only
  split <;> exact ⟨rfl, rfl⟩

theorem storeRetryRequest_requests :
    (store.storeRetryRequest request).requests =
      Function.update store.requests request.failedEnvelopeId (some request) := by
  unfold RetryStore.storeRetryRequest
  dsimp only
  split <;> rfl

theorem writeProcessedEnvelope_requests (now : ℤ) (write : ProcessedEnvelopeWrite) :
    (store.writeProcessedEnvelope now write).requests = store.requests := by
  have hindexed : ∀ (pruned : RetryStore) envelopeId timestamp,
      (pruned.indexRecord envelopeId timestamp).requests = pruned.requests := by
    intro pruned envelopeId timestamp
    unfold RetryStore.indexRecord
    split <;> rfl
  unfold RetryStore.writeProcessedEnvelope
  dsimp only
  split
  · exact hindexed _ _ _
  · split <;> exact hindexed _ _ _

end Requests

theorem kept_of_processed {window : ℤ → Prop} {holds : RetryStore → Prop}
    (hproc : ∀ store write now, window now → holds store →
      holds (store.writeProcessedEnvelope now write))
    (hsame : ∀ store other : RetryStore, other.processed = store.processed →
      other.incoming = store.incoming → holds store → holds other) :
    Kept window (fun _ => True) holds where
  processed := fun store write now hnow _ => hproc store write now hnow
  answered := by
    intro store failedEnvelopeId retryId attempt now _ hstore
    obtain hnone | ⟨record, hset⟩ :=
      markRetryRequestAnswered_eq store failedEnvelopeId retryId attempt now
    · rw [hnone]
      exact hstore
    · rw [hset]
      exact hsame store _ rfl rfl hstore
  updated := by
    intro store failedEnvelopeId retryId attempt changes now _ hstore
    obtain hnone | ⟨record, -, hset⟩ :=
      updateRetryRequest_eq store failedEnvelopeId retryId attempt changes now
    · rw [hnone]
      exact hstore
    · rw [hset]
      exact hsame store _ rfl rfl hstore
  request := by
    intro store request _ hstore
    obtain ⟨hproc, hincoming⟩ := storeRetryRequest_processed store request
    exact hsame store _ hproc hincoming hstore

theorem indexSound_congr (store other : RetryStore) (hproc : other.processed = store.processed)
    (hincoming : other.incoming = store.incoming) (hsound : store.IndexSound) :
    other.IndexSound := by
  unfold RetryStore.IndexSound
  rw [hproc, hincoming]
  exact hsound

theorem fulfilledSince_congr (store other : RetryStore)
    (hproc : other.processed = store.processed)
    (hfulfilled : store.FulfilledSince failedEnvelopeId low) :
    other.FulfilledSince failedEnvelopeId low := by
  unfold RetryStore.FulfilledSince
  rw [hproc]
  exact hfulfilled

theorem indexSound_kept : Kept (fun _ => True) (fun _ => True) RetryStore.IndexSound :=
  kept_of_processed (fun _ write now _ hsound => hsound.written now write) indexSound_congr

theorem indexSound_empty : RetryStore.empty.IndexSound := by
  rintro entry ⟨⟩

theorem indexSound_run (events : List FamilyEvent) : (RetryStore.empty.run events).IndexSound :=
  run_keeps indexSound_kept (fun store _ _ => indexSound_congr store _ rfl rfl)
    (fun _ _ _ _ => trivial) indexSound_empty

def Delivered (failedEnvelopeId : EnvelopeId) (low : ℤ) (store : RetryStore) : Prop :=
  store.IndexSound ∧ store.FulfilledSince failedEnvelopeId low

theorem delivered_congr (store other : RetryStore) (hproc : other.processed = store.processed)
    (hincoming : other.incoming = store.incoming)
    (hdeliv : Delivered failedEnvelopeId low store) : Delivered failedEnvelopeId low other :=
  ⟨indexSound_congr store other hproc hincoming hdeliv.1,
    fulfilledSince_congr store other hproc hdeliv.2⟩

theorem delivered_kept (failedEnvelopeId : EnvelopeId) (low : ℤ) :
    Kept (InLifetime low) (fun _ => True) (Delivered failedEnvelopeId low) :=
  kept_of_processed
    (fun _ write now hnow hdeliv =>
      ⟨hdeliv.1.written now write, hdeliv.2.written hdeliv.1 hnow write⟩)
    delivered_congr

theorem delivered_shows (failedEnvelopeId : EnvelopeId) (low : ℤ) :
    Shows (InLifetime low) (Delivered failedEnvelopeId low) (· ≠ failedEnvelopeId)
      (· ≠ failedEnvelopeId) where
  processed := by
    rintro now store envelopeId hnow hstore hnone rfl
    obtain ⟨record, hrec, -⟩ := hstore.2.counts hnow
    rw [hnone] at hrec
    cases hrec
  fulfilled := by
    rintro now store envelopeId hnow hstore hunfulfilled rfl
    obtain ⟨record, hrec, hflag⟩ := hstore.2.counts hnow
    rw [hrec, any_some, hflag] at hunfulfilled
    cases hunfulfilled

def OfFamily (delivery : Delivery) (family : RetryFamilyReceive)
    (failedEnvelopeId : EnvelopeId) : Prop :=
  delivery.envelope.id = some failedEnvelopeId ∨
    ∃ member, family.member = some member ∧ member.failedEnvelopeId = failedEnvelopeId

theorem not_admitted {delivery : Delivery} {clock : List ℤ} {admitted : Bool}
    {family : RetryFamilyReceive} {run : FamilyRun}
    (hstore : Delivered failedEnvelopeId low store) (hclock : ∀ now ∈ clock, InLifetime low now)
    (hcheck : delivery.admitInFamily { store, clock } = .ok (admitted, family) run)
    (hfamily : OfFamily delivery family failedEnvelopeId) : admitted = false := by
  have hvalid := admitInFamily_triple (delivered_kept failedEnvelopeId low) delivery
    (delivered_shows failedEnvelopeId low)
  obtain ⟨hok, -⟩ := hvalid { store, clock } ⟨hclock, hstore⟩
  obtain ⟨-, hfacts⟩ := hok (admitted, family) run hcheck
  refine Bool.eq_false_iff.mpr fun htrue => ?_
  obtain ⟨⟨hown, hfailed⟩, hformed, hdeliv⟩ := hfacts htrue
  rcases hfamily with hid | ⟨member, hmember, hsame⟩
  · exact hown failedEnvelopeId (by rw [hdeliv, hid]) rfl
  · refine hfailed member failedEnvelopeId hmember ?_ rfl
    rw [hformed.member member hmember, hsame]

/-! ## Senders that were not asked -/

section Unasked

variable {before : RetryStore} {sender : EnvelopeSender} {family : RetryFamilyReceive}

/-- The failed envelope is neither answered nor processed since `before`, and not asked of
`sender`. -/
structure Unmarked (before : RetryStore) (failedEnvelopeId : EnvelopeId) (sender : EnvelopeSender)
    (store : RetryStore) : Prop where
  answered : (store.requests failedEnvelopeId).map (·.answered) =
    (before.requests failedEnvelopeId).map (·.answered)
  processed : ∀ record, store.processed failedEnvelopeId = some record →
    before.processed failedEnvelopeId = some record
  asked : ∀ request, store.requests failedEnvelopeId = some request →
    request.target.any sender.is = false

theorem unmarked_of_requests {store other : RetryStore}
    (hreq : other.requests failedEnvelopeId = store.requests failedEnvelopeId)
    (hproc : ∀ record, other.processed failedEnvelopeId = some record →
      store.processed failedEnvelopeId = some record)
    (hunmarked : Unmarked before failedEnvelopeId sender store) :
    Unmarked before failedEnvelopeId sender other where
  answered := by
    rw [hreq]
    exact hunmarked.answered
  processed := fun record hrec => hunmarked.processed record (hproc record hrec)
  asked := by
    rw [hreq]
    exact hunmarked.asked

theorem setRetryRequest_unmarked {store : RetryStore} {other : EnvelopeId}
    (hother : other ≠ failedEnvelopeId) (record : StoredRetryRequest)
    (hunmarked : Unmarked before failedEnvelopeId sender store) :
    Unmarked before failedEnvelopeId sender (store.setRetryRequest other record) :=
  unmarked_of_requests (Function.update_of_ne hother.symm _ _) (fun _ hrec => hrec) hunmarked

theorem unmarked_kept (failedEnvelopeId : EnvelopeId) (before : RetryStore)
    (sender : EnvelopeSender) :
    Kept (fun _ => True) (· ≠ failedEnvelopeId) (Unmarked before failedEnvelopeId sender) where
  processed := by
    intro store write now _ hother hunmarked
    refine unmarked_of_requests ?_ ?_ hunmarked
    · rw [writeProcessedEnvelope_requests]
    · intro record hrec
      rw [writeProcessedEnvelope_processed, Function.update_of_ne hother.symm] at hrec
      exact pruned_processed_some hrec
  answered := by
    intro store other retryId attempt now hother hunmarked
    obtain hnone | ⟨record, hset⟩ :=
      markRetryRequestAnswered_eq store other retryId attempt now
    · rw [hnone]
      exact hunmarked
    · rw [hset]
      exact setRetryRequest_unmarked hother record hunmarked
  updated := by
    intro store other retryId attempt changes now hchanges hunmarked
    obtain hnone | ⟨record, hrec, hset⟩ :=
      updateRetryRequest_eq store other retryId attempt changes now
    · rw [hnone]
      exact hunmarked
    · rw [hset]
      by_cases hother : other = failedEnvelopeId
      · subst hother
        obtain ⟨hanswered, htarget⟩ := hchanges record
        refine ⟨?_, hunmarked.processed, ?_⟩
        · rw [← hunmarked.answered, hrec, setRetryRequest_self, map_some,
            map_some, hanswered]
        · intro request hreq
          rw [setRetryRequest_self] at hreq
          cases hreq
          rw [htarget]
          exact hunmarked.asked record hrec
      · exact setRetryRequest_unmarked hother _ hunmarked
  request := by
    intro store request hother hunmarked
    refine unmarked_of_requests ?_ ?_ hunmarked
    · rw [storeRetryRequest_requests, Function.update_of_ne hother.symm]
    · intro record hrec
      rw [(storeRetryRequest_processed store request).1] at hrec
      exact hrec

/-- A family whose requested sender is not `sender` when it is of the failed envelope. -/
structure UnaskedFamily (failedEnvelopeId : EnvelopeId) (sender : EnvelopeSender)
    (family : RetryFamilyReceive) : Prop where
  formed : family.Formed
  own : family.delivered.id ≠ some failedEnvelopeId
  member : ∀ member, family.member = some member → member.failedEnvelopeId = failedEnvelopeId →
    family.requested.any sender.is = false

theorem bindSender_member {member : ResolvedRetryFamilyMember} {named : EnvelopeSender}
    (hmember : (family.bindSender named).member = some member) : family.member = some member := by
  unfold RetryFamilyReceive.bindSender at hmember
  dsimp only at hmember
  split at hmember
  · exact hmember
  · split at hmember
    · exact hmember
    · cases hmember

theorem UnaskedFamily.same {next : RetryFamilyReceive} (hsame : family.SameFamily next)
    (hfamily : UnaskedFamily failedEnvelopeId sender family) :
    UnaskedFamily failedEnvelopeId sender next where
  formed := hsame.formed hfamily.formed
  own := by
    rw [hsame.delivered]
    exact hfamily.own
  member := by
    rw [hsame.member, hsame.requested]
    exact hfamily.member

theorem UnaskedFamily.named (hfamily : UnaskedFamily failedEnvelopeId sender family)
    (fingerprint : Option Fingerprint) :
    UnaskedFamily failedEnvelopeId sender (family.named fingerprint) where
  formed := hfamily.formed.named fingerprint
  own := by
    rw [named_delivered]
    exact hfamily.own
  member := by
    unfold RetryFamilyReceive.named
    dsimp only
    split
    · intro member hmember
      rw [bindSender_requested]
      have hheld := bindSender_member hmember
      exact hfamily.member member hheld
    · exact hfamily.member

theorem UnaskedFamily.bindSender_writes (hfamily : UnaskedFamily failedEnvelopeId sender family) :
    (family.bindSender sender).Writes (· ≠ failedEnvelopeId) := by
  have hown : ∀ envelopeId, family.delivered.id = some envelopeId →
      envelopeId ≠ failedEnvelopeId := by
    rintro envelopeId hid rfl
    exact hfamily.own hid
  have hformed := hfamily.formed.bindSender sender
  have hmember : ∀ member, (family.bindSender sender).member = some member →
      member.failedEnvelopeId ≠ failedEnvelopeId := by
    intro member hmember hsame
    have hunasked := hfamily.member member (bindSender_member hmember) hsame
    unfold RetryFamilyReceive.bindSender at hmember
    rw [bindSender_member hmember, hunasked] at hmember
    cases hmember
  refine ⟨?_, ?_, hmember⟩
  · rw [bindSender_delivered]
    exact hown
  · intro envelopeId hfailed
    cases hbound : (family.bindSender sender).member with
    | none =>
      rw [hformed.ordinary hbound, bindSender_delivered] at hfailed
      exact hown envelopeId hfailed
    | some member =>
      rw [hformed.member member hbound] at hfailed
      cases hfailed
      exact hmember member hbound

theorem Unmarked.requested (hunmarked : Unmarked before failedEnvelopeId sender store) (now : ℤ) :
    (requestedSenderOf (store.getRetryRequest failedEnvelopeId now)).any sender.is = false := by
  cases hreq : store.getRetryRequest failedEnvelopeId now with
  | none => rfl
  | some request => exact hunmarked.asked request (getRetryRequest_some hreq)

variable {delivery : Delivery}

theorem UnaskedFamily.named_failed (hfamily : UnaskedFamily failedEnvelopeId sender family)
    (hdeliv : family.delivered = delivery.envelope) (hunbound : family.senderBound = false)
    (hsender : delivery.sender = some sender) (fingerprint : Option Fingerprint)
    (hbound : (family.named fingerprint).senderBound = true) :
    ∀ envelopeId, (family.named fingerprint).failedEnvelopeId = some envelopeId →
      envelopeId ≠ failedEnvelopeId := by
  unfold RetryFamilyReceive.named at hbound ⊢
  dsimp only at hbound ⊢
  split at hbound
  case isTrue hidentified =>
    have hnamed : family.delivered.sender = sender := by
      rw [Bool.and_eq_true, hdeliv] at hidentified
      unfold Delivery.sender at hsender
      rw [if_neg (by simpa using hidentified.1)] at hsender
      rw [hdeliv]
      exact Option.some.inj hsender
    rw [if_pos hidentified, hnamed]
    have hnext : UnaskedFamily failedEnvelopeId sender
        { family with receivedFingerprint := fingerprint } :=
      ⟨⟨hfamily.formed.member, hfamily.formed.ordinary⟩, hfamily.own, hfamily.member⟩
    exact hnext.bindSender_writes.failed
  case isFalse =>
    rw [hunbound] at hbound
    cases hbound

theorem admitInFamily_unasked (hsender : delivery.sender = some sender)
    (hown : delivery.envelope.id ≠ some failedEnvelopeId) :
    Triple (Over (fun _ => True) (Unmarked before failedEnvelopeId sender))
      delivery.admitInFamily
      (fun admitted run => Over (fun _ => True) (Unmarked before failedEnvelopeId sender) run ∧
        UnaskedFamily failedEnvelopeId sender admitted.2)
      (Over (fun _ => True) (Unmarked before failedEnvelopeId sender)) := by
  unfold Delivery.admitInFamily
  have hasked : ∀ now store envelopeId, True → Unmarked before failedEnvelopeId sender store →
      envelopeId = failedEnvelopeId →
      (requestedSenderOf (store.getRetryRequest envelopeId now)).any sender.is = false := by
    rintro now store envelopeId - hstore rfl
    exact hstore.requested now
  have hopen := openRetryFamily_triple (unmarked_kept failedEnvelopeId before sender)
    (· = failedEnvelopeId) sender hasked delivery.envelope
  refine Triple.bind hopen fun family => Triple.assuming ?_
  rintro ⟨hformed, hdeliv, hunbound, hunasked⟩
  have hfamily : UnaskedFamily failedEnvelopeId sender family :=
    ⟨hformed, by rwa [hdeliv], hunasked⟩
  have hbound := hfamily.named_failed hdeliv hunbound hsender delivery.fingerprint
  have hadmitted := admit_triple (unmarked_kept failedEnvelopeId before sender) shows_nothing hformed
    delivery.fingerprint hbound
  refine hadmitted.weaken_post ?_
  rintro ⟨value, admitted⟩ run ⟨hrun, hsame, -⟩
  refine ⟨hrun, ?_⟩
  rcases hsame with ⟨-, rfl⟩ | hsame
  · exact hfamily
  · exact (hfamily.named _).same hsame

theorem receive_unmarked (hsender : delivery.sender = some sender)
    (hown : delivery.envelope.id ≠ some failedEnvelopeId) (clock : List ℤ)
    (hasked : ∀ request, before.requests failedEnvelopeId = some request →
      request.target.any sender.is = false) :
    Unmarked before failedEnvelopeId sender
      (finalState (delivery.receiveInRetryFamily { store := before, clock })).store := by
  have hvalid : Triple (Over (fun _ => True) (Unmarked before failedEnvelopeId sender))
      delivery.receiveInRetryFamily
      (fun _ => Over (fun _ => True) (Unmarked before failedEnvelopeId sender))
      (Over (fun _ => True) (Unmarked before failedEnvelopeId sender)) := by
    unfold Delivery.receiveInRetryFamily
    refine Triple.bind (admitInFamily_unasked hsender hown) fun admitted =>
      Triple.assuming fun hfamily => ?_
    refine Triple.ite (fun _ => ?_) fun _ => pure_keeps _
    have hwrites : (delivery.bind admitted.2).Writes (· ≠ failedEnvelopeId) := by
      unfold Delivery.bind
      rw [hsender]
      exact hfamily.bindSender_writes
    exact afterDecrypt_keeps (unmarked_kept failedEnvelopeId before sender) hwrites delivery
  refine (hvalid.finalState ?_).2
  exact ⟨fun _ _ => trivial, rfl, fun _ hrec => hrec, hasked⟩

end Unasked

/-- After the content of a failed envelope was fulfilled, no redelivery of it and no member of its
family goes to a decrypt in the lifetime of the fulfilled record. -/
theorem family_delivers_once_from_asked_sender (earlier later : List FamilyEvent)
    (failedEnvelopeId : EnvelopeId) :
    (∀ low, (RetryStore.empty.run earlier).FulfilledSince failedEnvelopeId low →
      (∀ event ∈ later, ∀ now ∈ event.readings, InLifetime low now) →
      ∀ (delivery : Delivery) (clock : List ℤ) (admitted : Bool) (family : RetryFamilyReceive),
        (∀ now ∈ clock, InLifetime low now) →
        valueOf? (delivery.admitInFamily
          { store := (RetryStore.empty.run earlier).run later, clock }) = some (admitted, family) →
        OfFamily delivery family failedEnvelopeId → admitted = false) ∧
      ∀ (delivery : Delivery) (clock : List ℤ) (sender : EnvelopeSender),
        delivery.sender = some sender → delivery.envelope.id ≠ some failedEnvelopeId →
        (∀ request, (RetryStore.empty.run earlier).requests failedEnvelopeId = some request →
          request.target.any sender.is = false) →
        Unmarked (RetryStore.empty.run earlier) failedEnvelopeId sender
          (finalState (delivery.receiveInRetryFamily
            { store := RetryStore.empty.run earlier, clock })).store := by
  refine ⟨?_, ?_⟩
  · intro low hfulfilled hlater delivery clock admitted family hclock hvalue hfamily
    obtain ⟨run, hchecked⟩ := valueOf?_eq_some_iff.mp hvalue
    have hdelivered : Delivered failedEnvelopeId low (RetryStore.empty.run earlier) :=
      ⟨indexSound_run earlier, hfulfilled⟩
    have hstill := run_keeps (delivered_kept failedEnvelopeId low)
      (fun store _ _ => delivered_congr store _ rfl rfl) hlater hdelivered
    exact not_admitted hstill hclock hchecked hfamily
  · intro delivery clock sender hsender hown hasked
    exact receive_unmarked hsender hown clock hasked

def exampleRequest : StoredRetryRequest where
  failedEnvelopeId := "failed"
  retryId := "0a1b2c3d-0a1b-0a1b-0a1b-0a1b2c3d4e5f"
  attempt := 1
  requestedAt := 0
  fingerprint := some "first"
  failedSender := some { userId := "bob", deviceId := 1 }
  target := some { userId := "bob", deviceId := 1 }

def exampleResend (userId : String) : Delivery where
  envelope := {
    id := some "0a1b2c3d-0a1b-0a1b-0a1b-0a1b2c3d4e5f:resend"
    sender := { userId := some userId, deviceId := some 1 } }
  fingerprint := some "second"
  opened := .content { senderKeyDistribution := false, content := true }

def exampleRedelivery : Delivery where
  envelope := {
    id := some "failed"
    sender := { userId := some "bob", deviceId := some 1 } }
  fingerprint := some "first"
  opened := .notCommitted

/-- The request, and the resend of the asked sender. -/
def exampleFulfilled : List FamilyEvent :=
  [.request exampleRequest, .deliver (exampleResend "bob") (List.replicate 12 1)]

/-- The request, and the fulfilled record of its failed envelope. -/
def exampleRecorded : List FamilyEvent :=
  [.request exampleRequest, .processed { envelopeId := "failed", fulfilled := true } 1]

/-- The first result of the checks of a delivery, at readings of one time. -/
def admittedAt (store : RetryStore) (delivery : Delivery) (now : ℤ) : Option Bool :=
  (valueOf? (delivery.admitInFamily { store, clock := List.replicate 12 now })).map Prod.fst

set_option maxRecDepth 4000 in
/-- A redelivery after the lifetime of the fulfilled record goes to the decrypt again, and so does,
in its lifetime, a resend that another sender posts under an ID of the family. -/
theorem redelivery_admitted_after_lifetime :
    ((RetryStore.empty.run exampleFulfilled).processed "failed").map (·.fulfilled) = some true ∧
      admittedAt (RetryStore.empty.run exampleFulfilled) exampleRedelivery (59 * DAY_MS) =
        some false ∧
      admittedAt (RetryStore.empty.run exampleFulfilled) exampleRedelivery (61 * DAY_MS) =
        some true ∧
      admittedAt (RetryStore.empty.run exampleRecorded) (exampleResend "eve") 2 = some true :=
  ⟨by decide, by decide, by decide, by decide⟩

def exampleEve : EnvelopeSender := { userId := some "eve", deviceId := some 1 }

set_option maxRecDepth 4000 in
theorem exampleRecorded_delivers_once :
    admittedAt (RetryStore.empty.run exampleRecorded) exampleRedelivery 2 = some false ∧
      Unmarked (RetryStore.empty.run exampleRecorded) "failed" exampleEve
        (finalState ((exampleResend "eve").receiveInRetryFamily
          { store := RetryStore.empty.run exampleRecorded, clock := [2, 3] })).store := by
  obtain ⟨hfulfilled, hother⟩ :=
    family_delivers_once_from_asked_sender exampleRecorded [] "failed"
  refine ⟨?_, ?_⟩
  · have hsince : (RetryStore.empty.run exampleRecorded).FulfilledSince "failed" 1 :=
      ⟨{ processedAt := 1, fulfilled := true }, by decide, rfl, by decide⟩
    have hchecked : (valueOf? (exampleRedelivery.admitInFamily
        { store := RetryStore.empty.run exampleRecorded
          clock := List.replicate 12 2 })).isSome = true := by
      decide
    obtain ⟨⟨admitted, family⟩, hvalue⟩ := isSome_iff_exists.mp hchecked
    have hlater : ∀ event ∈ ([] : List FamilyEvent), ∀ now ∈ event.readings, InLifetime 1 now := by
      rintro event ⟨⟩
    have hclock : ∀ now ∈ List.replicate 12 (2 : ℤ), InLifetime 1 now := by
      intro now hnow
      rw [eq_of_mem_replicate hnow]
      exact ⟨by decide, by decide⟩
    have hadmitted := hfulfilled 1 hsince hlater exampleRedelivery _ admitted family hclock hvalue
      (.inl rfl)
    unfold admittedAt
    rw [hvalue, map_some, hadmitted]
  · refine hother (exampleResend "eve") [2, 3] exampleEve rfl ?_ ?_
    · decide
    · intro request hrequest
      have hstored : (RetryStore.empty.run exampleRecorded).requests "failed" =
          some exampleRequest := by
        decide
      rw [hstored] at hrequest
      cases hrequest
      decide

end SignalProtocol.Retry

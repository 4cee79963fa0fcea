import SignalProtocol.Outbox.ManualResends

/-! # Manual resends over all calls

The list of resends only grows, and a resend that ended never changes. -/

namespace SignalProtocol.Outbox

open List OrderedMap

variable {resends before : List StoredManualResend} {plan : ManualResendPlan}
  {posting : PostingCall} {event : ResendEvent} {world : ResendWorld} {resend : StoredManualResend}
  {clientMessageId manualMessageId : String} {index : ℕ}

variable {first second third stored : List StoredManualResend} {later : StoredManualResend}
  {change : StoredManualResend → StoredManualResend} {at_ : ℤ}

variable (manualEnd : ManualResendEnd)

theorem manualResendMessageId_injective (clientMessageId : String) :
    Function.Injective (manualResendMessageId clientMessageId) := by
  intro first second heq
  have htext : Nat.repr first = Nat.repr second :=
    (String.append_right_inj (clientMessageId ++ ":manual:")).mp heq
  have hdigits : Nat.toDigits 10 first = Nat.toDigits 10 second := by
    rw [← Nat.toList_repr, ← Nat.toList_repr, htext]
  calc
    first = Nat.ofDigitChars 10 (Nat.toDigits 10 first) 0 :=
      Nat.ofDigitChars_ten_toDigits.symm
    _ = second := by rw [hdigits, Nat.ofDigitChars_ten_toDigits]

/-- The resends are numbered from one. -/
def Numbered (clientMessageId : String) (resends : List StoredManualResend) : Prop :=
  resends.map StoredManualResend.manualMessageId =
    (List.range resends.length).map fun n => manualResendMessageId clientMessageId (n + 1)

theorem Numbered.nodup (hnumbered : Numbered clientMessageId resends) :
    (resends.map StoredManualResend.manualMessageId).Nodup := by
  rw [hnumbered]
  refine List.Nodup.map ?_ nodup_range
  intro first second heq
  exact Nat.succ_injective (manualResendMessageId_injective clientMessageId heq)

theorem Numbered.concat (hnumbered : Numbered clientMessageId resends)
    (hid : resend.manualMessageId = manualResendMessageId clientMessageId (resends.length + 1)) :
    Numbered clientMessageId (resends ++ [resend]) := by
  rw [Numbered, length_append, length_singleton, range_succ, map_append,
    map_append, hnumbered, map_singleton, map_singleton, hid]

theorem findResend_mem (hfind : findResend manualMessageId resends = some resend) :
    resend ∈ resends ∧ resend.manualMessageId = manualMessageId :=
  ⟨mem_of_find?_eq_some hfind, by simpa using find?_some hfind⟩

theorem findResend_of_mem (hnodup : (resends.map StoredManualResend.manualMessageId).Nodup)
    (hmem : resend ∈ resends) : findResend resend.manualMessageId resends = some resend := by
  induction resends with
  | nil => cases hmem
  | cons first rest ih =>
    rw [map_cons, nodup_cons] at hnodup
    rw [findResend, find?_cons]
    rcases mem_cons.mp hmem with rfl | hmem
    · simp
    · have hother : first.manualMessageId ≠ resend.manualMessageId := by
        intro heq
        exact hnodup.1 (heq ▸ mem_map_of_mem hmem)
      simpa [hother, findResend] using ih hnodup.2 hmem

/-! ## Writes -/

namespace StoredManualResend

structure Kept (before after : StoredManualResend) : Prop where
  manualMessageId : after.manualMessageId = before.manualMessageId
  createdAt : after.createdAt = before.createdAt
  operationEpochMilliseconds :
    after.operationEpochMilliseconds = before.operationEpochMilliseconds
  deadlineAt : after.deadlineAt = before.deadlineAt
  messages : after.messages = before.messages
  ended : isOpenManualResend before = false → after = before

theorem Kept.refl (resend : StoredManualResend) : resend.Kept resend :=
  ⟨rfl, rfl, rfl, rfl, rfl, fun _ => rfl⟩

theorem Kept.trans {first second third : StoredManualResend} (hfst : first.Kept second)
    (hsnd : second.Kept third) : first.Kept third where
  manualMessageId := hsnd.manualMessageId.trans hfst.manualMessageId
  createdAt := hsnd.createdAt.trans hfst.createdAt
  operationEpochMilliseconds :=
    hsnd.operationEpochMilliseconds.trans hfst.operationEpochMilliseconds
  deadlineAt := hsnd.deadlineAt.trans hfst.deadlineAt
  messages := hsnd.messages.trans hfst.messages
  ended hended := by
    obtain rfl := hfst.ended hended
    exact hsnd.ended hended

theorem kept_of_open {before after : StoredManualResend} (hopen : isOpenManualResend before)
    (hid : after.manualMessageId = before.manualMessageId)
    (hcreated : after.createdAt = before.createdAt)
    (hepoch : after.operationEpochMilliseconds = before.operationEpochMilliseconds)
    (hdeadline : after.deadlineAt = before.deadlineAt)
    (hmsgs : after.messages = before.messages) : before.Kept after where
  manualMessageId := hid
  createdAt := hcreated
  operationEpochMilliseconds := hepoch
  deadlineAt := hdeadline
  messages := hmsgs
  ended hended := absurd hopen (by simp [hended])

end StoredManualResend

abbrev KeptResends : List StoredManualResend → List StoredManualResend → Prop :=
  List.Forall₂ StoredManualResend.Kept

theorem KeptResends.refl (resends : List StoredManualResend) : KeptResends resends resends :=
  forall₂_same.mpr fun resend _ => .refl resend

theorem KeptResends.trans (hfst : KeptResends first second) (hsnd : KeptResends second third) :
    KeptResends first third := by
  induction hfst generalizing third with
  | nil => exact hsnd
  | cons hhead _ ih =>
    cases hsnd with
    | cons hnext hrest => exact .cons (hhead.trans hnext) (ih hrest)

theorem changeResend_kept (hchange : ∀ resend, findResend manualMessageId resends = some resend →
      resend.Kept (change resend)) :
    KeptResends resends (changeResend manualMessageId change resends) := by
  induction resends with
  | nil => exact .nil
  | cons first rest ih =>
    rw [changeResend]
    by_cases hid : first.manualMessageId = manualMessageId
    · rw [if_pos hid]
      refine .cons (hchange first ?_) (KeptResends.refl rest)
      simp [findResend, hid]
    · rw [if_neg hid]
      refine .cons (.refl first) (ih fun resend hfind => hchange resend ?_)
      simpa [findResend, hid] using hfind

theorem findResend_changeResend
    (hid : ∀ resend, (change resend).manualMessageId = resend.manualMessageId) :
    findResend manualMessageId (changeResend manualMessageId change resends) =
      (findResend manualMessageId resends).map change := by
  induction resends with
  | nil => rfl
  | cons first rest ih =>
    rw [changeResend]
    by_cases hfst : first.manualMessageId = manualMessageId
    · simp [findResend, hfst, hid]
    · simpa [findResend, hfst] using ih

theorem updateProgress_kept (destination : SendDestination) (update : DestinationUpdate)
    (hopen : isOpenManualResend resend) : resend.Kept (updateProgress destination update resend) :=
  StoredManualResend.kept_of_open hopen rfl rfl rfl rfl rfl

theorem endResend_kept (at_ : ℤ)
    (hopen : isOpenManualResend resend) : resend.Kept (endResend manualEnd at_ resend) := by
  cases manualEnd with
  | result result => exact StoredManualResend.kept_of_open hopen rfl rfl rfl rfl rfl
  | outcome sendEnd => exact StoredManualResend.kept_of_open hopen rfl rfl rfl rfl rfl

theorem endResend_ended (at_ : ℤ) (resend : StoredManualResend) :
    isOpenManualResend (endResend manualEnd at_ resend) = false := by
  cases manualEnd with
  | result result => simp [endResend, isOpenManualResend]
  | outcome sendEnd => simp [endResend, isOpenManualResend]

theorem recordOutgoingManualResendProgress_kept (resends : List StoredManualResend)
    (manualMessageId : String) (destination : SendDestination) (update : DestinationUpdate) :
    KeptResends resends
      (recordOutgoingManualResendProgress resends manualMessageId destination update) := by
  refine changeResend_kept fun resend _ => ?_
  by_cases hopen : isOpenManualResend resend
  · rw [if_pos hopen]
    exact updateProgress_kept destination update hopen
  · rw [if_neg hopen]
    exact .refl resend

theorem endOutgoingManualResend_kept (resends : List StoredManualResend) (manualMessageId : String)
    (manualEnd : ManualResendEnd) (at_ : ℤ) :
    KeptResends resends (endOutgoingManualResend resends manualMessageId manualEnd at_).1 := by
  rw [endOutgoingManualResend]
  cases hfind : findResend manualMessageId resends with
  | none => exact KeptResends.refl resends
  | some resend =>
    by_cases hopen : isOpenManualResend resend
    · simp only [hopen, if_true]
      refine changeResend_kept fun found hfound => ?_
      obtain rfl : resend = found := Option.some.inj (hfind.symm.trans hfound)
      exact endResend_kept manualEnd at_ hopen
    · simp only [hopen, if_false, Bool.false_eq_true]
      exact KeptResends.refl resends

theorem endOutgoingManualResend_isSome {manualEnd : ManualResendEnd}
    (hended : (endOutgoingManualResend resends manualMessageId manualEnd at_).2.isSome) :
    (∃ resend, findResend manualMessageId resends = some resend ∧ isOpenManualResend resend) ∧
      ∃ resend, findResend manualMessageId
          (endOutgoingManualResend resends manualMessageId manualEnd at_).1 = some resend ∧
        isOpenManualResend resend = false := by
  rw [endOutgoingManualResend] at hended ⊢
  cases hfind : findResend manualMessageId resends with
  | none => simp [hfind] at hended
  | some resend =>
    by_cases hopen : isOpenManualResend resend
    · refine ⟨⟨resend, rfl, hopen⟩, endResend manualEnd at_ resend, ?_,
        endResend_ended manualEnd at_ resend⟩
      simp only [hopen, if_true]
      rw [findResend_changeResend, hfind, Option.map_some]
      intro other
      cases manualEnd <;> rfl
    · simp [hfind, hopen] at hended

theorem KeptResends.find {after : List StoredManualResend} (hkept : KeptResends before after)
    (hfind : findResend manualMessageId before = some resend) :
    ∃ later, findResend manualMessageId after = some later ∧ resend.Kept later := by
  induction hkept with
  | nil => cases hfind
  | @cons first next rest later hhead htail ih =>
    rw [findResend, find?_cons] at hfind ⊢
    rw [hhead.manualMessageId]
    by_cases hid : first.manualMessageId = manualMessageId
    · simp only [hid, decide_true, Option.some.injEq] at hfind ⊢
      subst hfind
      exact ⟨next, rfl, hhead⟩
    · simp only [hid, decide_false] at hfind ⊢
      exact ih hfind

theorem KeptResends.mem {after : List StoredManualResend} (hkept : KeptResends before after)
    (hmem : later ∈ after) : ∃ resend ∈ before, resend.Kept later := by
  induction hkept with
  | nil => cases hmem
  | @cons first next rest final hhead _ ih =>
    rcases mem_cons.mp hmem with rfl | hmem
    · exact ⟨first, mem_cons_self, hhead⟩
    · obtain ⟨resend, hresend, hsame⟩ := ih hmem
      exact ⟨resend, mem_cons_of_mem _ hresend, hsame⟩

theorem KeptResends.numbered {after : List StoredManualResend} (hkept : KeptResends before after)
    (hnumbered : Numbered clientMessageId before) : Numbered clientMessageId after := by
  have hids : after.map StoredManualResend.manualMessageId =
      before.map StoredManualResend.manualMessageId := by
    clear hnumbered
    induction hkept with
    | nil => rfl
    | cons hhead _ ih => rw [map_cons, map_cons, hhead.manualMessageId, ih]
  rw [Numbered, hids, ← hkept.length_eq]
  exact hnumbered

theorem KeptResends.eq_of_ended {after : List StoredManualResend} (hkept : KeptResends before after)
    (hended : ∀ resend ∈ before, isOpenManualResend resend = false) : after = before := by
  induction hkept with
  | nil => rfl
  | cons hhead _ ih =>
    rw [hhead.ended (hended _ mem_cons_self),
      ih fun resend hmem => hended resend (mem_cons_of_mem _ hmem)]

/-- The resends later in a run: those of before, each kept, and new ones. -/
def Extends (before after : List StoredManualResend) : Prop :=
  ∃ kept added, after = kept ++ added ∧ KeptResends before kept

theorem KeptResends.extends {after : List StoredManualResend}
    (hkept : KeptResends before after) : Extends before after :=
  ⟨after, [], (append_nil after).symm, hkept⟩

theorem Extends.trans
    (hfst : Extends first second) (hsnd : Extends second third) : Extends first third := by
  obtain ⟨kept, added, rfl, hkept⟩ := hfst
  obtain ⟨final, more, rfl, hfinal⟩ := hsnd
  refine ⟨final.take kept.length, final.drop kept.length ++ more, ?_, hkept.trans ?_⟩
  · rw [← append_assoc, List.take_append_drop]
  · simpa using forall₂_take kept.length hfinal

theorem Extends.concat (resends : List StoredManualResend) (resend : StoredManualResend) :
    Extends resends (resends ++ [resend]) :=
  ⟨resends, [resend], rfl, KeptResends.refl resends⟩

theorem Extends.mem {after : List StoredManualResend} (hext : Extends before after)
    (hmem : resend ∈ before) : ∃ later ∈ after, resend.Kept later := by
  obtain ⟨kept, added, rfl, hkept⟩ := hext
  induction hkept with
  | nil => cases hmem
  | @cons first next rest final hhead _ ih =>
    rcases mem_cons.mp hmem with rfl | hmem
    · exact ⟨next, mem_cons_self, hhead⟩
    · obtain ⟨later, hlater, hsame⟩ := ih hmem
      exact ⟨later, mem_cons_of_mem _ hlater, hsame⟩

theorem Extends.find {after : List StoredManualResend} (hext : Extends before after)
    (hfind : findResend manualMessageId before = some resend) :
    ∃ later, findResend manualMessageId after = some later ∧ resend.Kept later := by
  obtain ⟨kept, added, rfl, hkept⟩ := hext
  obtain ⟨later, hlater, hsame⟩ := hkept.find hfind
  refine ⟨later, ?_, hsame⟩
  rw [findResend, find?_append]
  rw [findResend] at hlater
  rw [hlater, Option.some_or]

/-! ## Stored resends -/

def StoredManualResend.AcceptedFor (resend : StoredManualResend) (device : OutgoingGroupDevice) :
    Prop :=
  ∃ entry ∈ resend.destinationProgress.values, entry.state = .accepted ∧
    entry.userId = device.userId ∧ entry.deviceId = device.deviceId

/-- A resend that is stored after `prior`. -/
structure InTurn (prior resend : StoredManualResend) : Prop where
  ended : isOpenManualResend prior = false
  unaccepted : ∀ message ∈ resend.messages, ¬ prior.AcceptedFor message.device

theorem inTurn_kept {prior laterPrior : StoredManualResend} (hturn : InTurn prior resend)
    (hprior : prior.Kept laterPrior) (hresend : resend.Kept later) : InTurn laterPrior later := by
  obtain rfl := hprior.ended hturn.ended
  exact ⟨hturn.ended, hresend.messages.symm ▸ hturn.unaccepted⟩

theorem KeptResends.inTurn {after : List StoredManualResend} (hkept : KeptResends before after)
    (hturn : before.Pairwise InTurn) : after.Pairwise InTurn := by
  induction hkept with
  | nil => exact .nil
  | @cons first next rest later hhead htail ih =>
    obtain ⟨hfst, hrest⟩ := pairwise_cons.mp hturn
    refine pairwise_cons.mpr ⟨fun resend hmem => ?_, ih hrest⟩
    obtain ⟨earlier, hprev, hsame⟩ := KeptResends.mem htail hmem
    exact inTurn_kept (hfst earlier hprev) hhead hsame

theorem open_le_one (hturn : resends.Pairwise InTurn) :
    (resends.filter isOpenManualResend).length ≤ 1 := by
  have hopen := hturn.filter isOpenManualResend
  cases hlist : resends.filter isOpenManualResend with
  | nil => exact Nat.zero_le 1
  | cons first rest =>
    cases rest with
    | nil => exact le_refl 1
    | cons second rest =>
      rw [hlist] at hopen
      have hended : isOpenManualResend first = false :=
        ((pairwise_cons.mp hopen).1 second mem_cons_self).ended
      have hfst : isOpenManualResend first :=
        (mem_filter.mp (hlist ▸ mem_cons_self)).2
      exact absurd hfst (by simp [hended])

section

variable (intent : StoredOutgoingMessageIntent) (own : OutgoingGroupDevice)

def Unserved (device : OutgoingGroupDevice) : Prop :=
  ∃ destination ∈ recipientDestinations intent own, destination.device = device ∧
    isAccepted intent.destinationProgress destination = false

theorem mem_manualResendTargets {device : OutgoingGroupDevice}
    (hdev : device ∈ manualResendTargets intent own resends) :
    Unserved intent own device ∧ ∀ resend ∈ resends, ¬ resend.AcceptedFor device := by
  obtain ⟨destination, hmem, rfl⟩ := mem_map.mp (mem_of_mem_distinctBy hdev)
  obtain ⟨hdest, hfree⟩ := mem_filter.mp hmem
  simp only [Bool.not_eq_true, Bool.decide_and, Bool.and_eq_true, decide_eq_true_eq] at hfree
  refine ⟨⟨destination, hdest, rfl, hfree.1⟩, ?_⟩
  rintro resend hresend ⟨entry, hentry, hacc, huser, hnum⟩
  refine hfree.2 (mem_flatMap.mpr ⟨resend, hresend, mem_map.mpr ⟨entry, ?_, ?_⟩⟩)
  · exact mem_filter.mpr ⟨hentry, by simpa using hacc⟩
  · rw [huser, hnum]

/-- The fields of a stored resend that its plan decides. -/
structure StoredManualResend.Planned (resend : StoredManualResend) : Prop where
  epoch : resend.operationEpochMilliseconds = resend.createdAt
  deadline : resend.deadlineAt = resend.createdAt + outgoingPostingWindowMs
  messages : ∀ message ∈ resend.messages,
    message.clientMessageId = some resend.manualMessageId ∧ Unserved intent own message.device

structure ResendsSafe (resends : List StoredManualResend) : Prop where
  numbered : Numbered intent.clientMessageId resends
  planned : ∀ resend ∈ resends, resend.Planned intent own
  inTurn : resends.Pairwise InTurn

structure ManualResendPlan.Made (plan : ManualResendPlan) (resends : List StoredManualResend) :
    Prop where
  targets : plan.targets = manualResendTargets intent own plan.planned
  manualMessageId : plan.manualMessageId =
    manualResendMessageId intent.clientMessageId (plan.planned.length + 1)
  ended : ∀ resend ∈ plan.planned, isOpenManualResend resend = false
  since : Extends plan.planned resends

end

section

variable {intent : StoredOutgoingMessageIntent} {own : OutgoingGroupDevice}

theorem ResendsSafe.kept {after : List StoredManualResend}
    (hsafe : ResendsSafe intent own before) (hkept : KeptResends before after) :
    ResendsSafe intent own after where
  numbered := hkept.numbered hsafe.numbered
  planned resend hmem := by
    obtain ⟨earlier, hprev, hsame⟩ := hkept.mem hmem
    have hplanned := hsafe.planned earlier hprev
    refine ⟨?_, ?_, ?_⟩
    · rw [hsame.operationEpochMilliseconds, hsame.createdAt, hplanned.epoch]
    · rw [hsame.deadlineAt, hsame.createdAt, hplanned.deadline]
    · rw [hsame.messages, hsame.manualMessageId]
      exact hplanned.messages
  inTurn := hkept.inTurn hsafe.inTurn

theorem ManualResendPlan.Made.planned_eq (hmade : plan.Made intent own resends)
    (hid : plan.manualMessageId =
      manualResendMessageId intent.clientMessageId (resends.length + 1)) :
    plan.planned = resends := by
  obtain ⟨kept, added, rfl, hkept⟩ := hmade.since
  obtain rfl := hkept.eq_of_ended hmade.ended
  have hlen : plan.planned.length + 1 = (plan.planned ++ added).length + 1 :=
    manualResendMessageId_injective _ (hmade.manualMessageId.symm.trans hid)
  rw [length_append] at hlen
  have hadded : added = [] := length_eq_zero_iff.mp (by omega)
  rw [hadded, append_nil]

theorem addOutgoingManualResend_ok
    (hadd : addOutgoingManualResend intent resends resend = .ok stored) :
    resends.any isOpenManualResend = false ∧ resend.manualMessageId =
        manualResendMessageId intent.clientMessageId (resends.length + 1) ∧
      stored = resends ++ [resend] := by
  rw [addOutgoingManualResend] at hadd
  split at hadd
  · cases hadd
  · split at hadd
    · cases hadd
    · rename_i hopen
      split at hadd
      · cases hadd
      · rename_i hid
        cases hadd
        exact ⟨by simpa using hopen, not_not.mp hid, rfl⟩

theorem encryptManualResend_open (plan : ManualResendPlan)
    (encrypt : OutgoingGroupDevice → String) :
    isOpenManualResend (encryptManualResend plan encrypt) := by
  simp [isOpenManualResend, encryptManualResend]

theorem ResendsSafe.add {encrypt : OutgoingGroupDevice → String}
    (hsafe : ResendsSafe intent own resends) (hmade : plan.Made intent own resends)
    (hadd : addOutgoingManualResend intent resends (encryptManualResend plan encrypt) =
      .ok stored) :
    stored = resends ++ [encryptManualResend plan encrypt] ∧ ResendsSafe intent own stored := by
  obtain ⟨hended, hid, rfl⟩ := addOutgoingManualResend_ok hadd
  have hdev : ∀ message ∈ (encryptManualResend plan encrypt).messages,
      message.clientMessageId = some plan.manualMessageId ∧
        Unserved intent own message.device ∧ ∀ prior ∈ resends,
          ¬ prior.AcceptedFor message.device := by
    intro message hmsg
    obtain ⟨device, htarget, rfl⟩ := mem_map.mp hmsg
    rw [hmade.targets, hmade.planned_eq hid] at htarget
    exact ⟨rfl, mem_manualResendTargets intent own htarget⟩
  refine ⟨rfl, hsafe.numbered.concat hid, ?_, ?_⟩
  · intro resend hmem
    rcases mem_append.mp hmem with hmem | hmem
    · exact hsafe.planned resend hmem
    · obtain rfl := mem_singleton.mp hmem
      exact ⟨rfl, rfl, fun message hmsg =>
        ⟨(hdev message hmsg).1, (hdev message hmsg).2.1⟩⟩
  · refine pairwise_append.mpr ⟨hsafe.inTurn, pairwise_singleton _ _, ?_⟩
    intro prior hprior resend hresend
    obtain rfl := mem_singleton.mp hresend
    refine ⟨?_, fun message hmsg => (hdev message hmsg).2.2 prior hprior⟩
    simpa using any_eq_false.mp hended prior hprior

end

theorem applyDestinationUpdate_requests (entry : StoredDestinationProgress)
    (update : DestinationUpdate) :
    entry.requests ≤ (applyDestinationUpdate entry update).requests := by
  cases update with
  | request =>
    rw [applyDestinationUpdate]
    split <;> exact Nat.le_succ _
  | answer update =>
    rw [applyDestinationUpdate]
    split
    · exact le_refl _
    · cases update.answer <;> exact le_refl _

theorem applyDestinationUpdate_request (entry : StoredDestinationProgress) :
    1 ≤ (applyDestinationUpdate entry .request).requests := by
  rw [applyDestinationUpdate]
  split <;> exact Nat.le_add_left _ _

def StoredManualResend.Requested (resend : StoredManualResend) (destination : SendDestination) :
    Prop :=
  ∃ entry, resend.destinationProgress.get? destination.key = some entry ∧ 1 ≤ entry.requests

theorem updateProgress_requested (resend : StoredManualResend) (destination : SendDestination) :
    (updateProgress destination .request resend).Requested destination :=
  ⟨_, get?_set_self _ _ _, applyDestinationUpdate_request _⟩

theorem StoredManualResend.Requested.update {destination : SendDestination}
    (hrequested : resend.Requested destination) (other : SendDestination)
    (update : DestinationUpdate) : (updateProgress other update resend).Requested destination := by
  obtain ⟨entry, hentry, hcount⟩ := hrequested
  by_cases hkey : destination.key = other.key
  · rw [Requested, hkey]
    refine ⟨_, get?_set_self _ _ _, le_trans ?_ (applyDestinationUpdate_requests _ _)⟩
    rw [← hkey, hentry]
    exact hcount
  · exact ⟨entry, (get?_set_of_ne _ _ hkey).trans hentry, hcount⟩

/-- The resend that a call posts is stored and open, and a post past its deadline check keeps the
time of the check. -/
def PostingCall.Holds (posting : PostingCall) (resends : List StoredManualResend) : Prop :=
  ∃ resend, findResend posting.resend.manualMessageId resends = some resend ∧
    isOpenManualResend resend ∧ posting.resend.Kept resend ∧
      ∀ index message, posting.resend.messages[index]? = some message →
        (∀ at_, posting.posts index = .checked at_ → at_ < resend.deadlineAt) ∧
          ∀ at_, posting.posts index = .stored at_ →
            at_ < resend.deadlineAt ∧ resend.Requested (posting.destination message)

/-- A request of stored bytes, checked before the deadline and stored before it started. -/
def ManualRequest.Stored (request : ManualRequest) (resends : List StoredManualResend) : Prop :=
  ∃ resend ∈ resends, resend.manualMessageId = request.manualMessageId ∧
    resend.operationEpochMilliseconds = request.operationEpochMilliseconds ∧
      request.message ∈ resend.messages ∧ request.checkedAt < resend.deadlineAt ∧
        ∃ entry, request.entry = some entry ∧ 1 ≤ entry.requests

theorem ManualRequest.Stored.extends {request : ManualRequest} {after : List StoredManualResend}
    (hstored : request.Stored before) (hext : Extends before after) : request.Stored after := by
  obtain ⟨resend, hmem, hid, hepoch, hmsg, hcheck, hentry⟩ := hstored
  obtain ⟨later, hlater, hsame⟩ := hext.mem hmem
  refine ⟨later, hlater, hsame.manualMessageId.trans hid,
    hsame.operationEpochMilliseconds.trans hepoch, ?_, ?_, hentry⟩
  · rwa [hsame.messages]
  · rwa [hsame.deadlineAt]

theorem holds_start (call : ℕ) (hfind : findResend resend.manualMessageId resends = some resend)
    (hopen : isOpenManualResend resend) :
    ({ call := call, resend := resend } : PostingCall).Holds resends :=
  ⟨resend, hfind, hopen, .refl resend, fun _ _ _ => ⟨by rintro _ ⟨⟩, by rintro _ ⟨⟩⟩⟩

/-! ## Runs -/

section

variable {intent : StoredOutgoingMessageIntent} {own : OutgoingGroupDevice}

namespace ResendWorld

variable (intent own) in
structure Invariant (world : ResendWorld) : Prop where
  resends : ResendsSafe intent own world.resends
  plans : ∀ plan ∈ world.plans, plan.Made intent own world.resends
  posting : ∀ posting, world.posting = some posting → posting.Holds world.resends
  requests : ∀ request ∈ world.requests, request.Stored world.resends
  reports : (world.reports.map Prod.snd).Nodup
  reported : ∀ report ∈ world.reports, ∃ resend,
    findResend report.2 world.resends = some resend ∧ isOpenManualResend resend = false

theorem reported_extends
    (hinv : world.Invariant intent own) (hext : Extends world.resends resends) :
    ∀ report ∈ world.reports, ∃ resend,
      findResend report.2 resends = some resend ∧ isOpenManualResend resend = false := by
  intro report hreport
  obtain ⟨resend, hfind, hended⟩ := hinv.reported report hreport
  obtain ⟨later, hlater, hsame⟩ := hext.find hfind
  obtain rfl := hsame.ended hended
  exact ⟨later, hlater, hended⟩

theorem Made.extends {after : List StoredManualResend} (hmade : plan.Made intent own before)
    (hext : Extends before after) : plan.Made intent own after :=
  ⟨hmade.targets, hmade.manualMessageId, hmade.ended, hmade.since.trans hext⟩

theorem Invariant.close (hinv : world.Invariant intent own) (call : ℕ)
    (manualMessageId : String) (manualEnd : ManualResendEnd) :
    (world.close call manualMessageId manualEnd).Invariant intent own := by
  have hkept := endOutgoingManualResend_kept world.resends manualMessageId manualEnd world.clock
  refine ⟨hinv.resends.kept hkept, fun plan hplan => Made.extends (hinv.plans plan hplan)
    hkept.extends, by rintro _ ⟨⟩, fun request hreq =>
      (hinv.requests request hreq).extends hkept.extends, ?_, ?_⟩
  · simp only [ResendWorld.close]
    split
    · rename_i hended
      obtain ⟨⟨resend, hfind, hopen⟩, -⟩ := endOutgoingManualResend_isSome hended
      rw [map_append, map_singleton, nodup_append]
      refine ⟨hinv.reports, nodup_singleton _, ?_⟩
      rintro reported hreported _ hmem rfl
      obtain ⟨report, hreport, rfl⟩ := mem_map.mp hreported
      obtain ⟨found, hfound, hclosed⟩ := hinv.reported report hreport
      rw [mem_singleton.mp hmem, hfind] at hfound
      obtain rfl := Option.some.inj hfound
      exact absurd hopen (by simp [hclosed])
    · exact hinv.reports
  · intro report hreport
    simp only [ResendWorld.close] at hreport ⊢
    split at hreport
    · rename_i hended
      rcases mem_append.mp hreport with hreport | hreport
      · exact reported_extends hinv hkept.extends report hreport
      · obtain rfl := mem_singleton.mp hreport
        exact (endOutgoingManualResend_isSome hended).2
    · exact reported_extends hinv hkept.extends report hreport

theorem Invariant.continueManualResend (hinv : world.Invariant intent own)
    (call : ℕ) (manualEnd : ManualResendEnd)
    (hmem : resend ∈ world.resends) (hopen : isOpenManualResend resend) :
    (world.continueManualResend call resend manualEnd).Invariant intent own := by
  rw [ResendWorld.continueManualResend]
  split
  · exact hinv.close call resend.manualMessageId manualEnd
  · refine ⟨hinv.resends, hinv.plans, ?_, hinv.requests, hinv.reports, hinv.reported⟩
    intro posting hposting
    obtain rfl := Option.some.inj hposting
    exact holds_start call (findResend_of_mem hinv.resends.numbered.nodup hmem) hopen

theorem planManualResend_ok {content : Option Bool} {now : ℤ}
    (hplan : planManualResend intent own resends content now = .ok plan) :
    plan = ⟨manualResendTargets intent own resends,
      manualResendMessageId intent.clientMessageId (resends.length + 1), now, resends⟩ := by
  rw [planManualResend] at hplan
  split at hplan
  · cases hplan
  · split at hplan
    · cases hplan
    · split at hplan
      · cases hplan
      · split at hplan
        · cases hplan
        · cases hplan
          rfl

section

variable (hinv : world.Invariant intent own)

include hinv

variable (call : ℕ)

theorem Invariant.nextResend (content : Option Bool) (manualEnd : ManualResendEnd) :
    (world.nextResend intent own call content manualEnd).Invariant intent own := by
  rw [ResendWorld.nextResend]
  cases hfind : world.resends.find? isOpenManualResend with
  | some resend =>
    exact hinv.continueManualResend call manualEnd (mem_of_find?_eq_some hfind)
      (find?_some hfind)
  | none =>
    cases hplan : planManualResend intent own world.resends content world.clock with
    | error message => exact hinv
    | ok plan =>
      refine ⟨hinv.resends, ?_, hinv.posting, hinv.requests, hinv.reports, hinv.reported⟩
      intro made hmade
      rcases mem_append.mp hmade with hmade | hmade
      · exact hinv.plans made hmade
      · obtain rfl := mem_singleton.mp hmade
        obtain rfl := planManualResend_ok hplan
        refine ⟨rfl, rfl, fun resend hmem => ?_, (KeptResends.refl world.resends).extends⟩
        simpa using find?_eq_none.mp hfind resend hmem

theorem Invariant.forgetPlans {plans : List ManualResendPlan} (hplans : plans ⊆ world.plans) :
    ({ world with plans := plans } : ResendWorld).Invariant intent own :=
  ⟨hinv.resends, fun plan hplan => hinv.plans plan (hplans hplan), hinv.posting, hinv.requests,
    hinv.reports, hinv.reported⟩

theorem Invariant.storePlan (encrypt : OutgoingGroupDevice → String) (manualEnd : ManualResendEnd)
    (hfree : world.posting = none) (hmade : plan.Made intent own world.resends) :
    (world.storePlan intent call plan encrypt manualEnd).Invariant intent own := by
  rw [ResendWorld.storePlan]
  cases hadd : addOutgoingManualResend intent world.resends (encryptManualResend plan encrypt) with
  | error message => exact hinv
  | ok stored =>
    obtain ⟨rfl, hsafe⟩ := hinv.resends.add hmade hadd
    have hext := Extends.concat world.resends (encryptManualResend plan encrypt)
    have hstored : ({ world with
        resends := world.resends ++ [encryptManualResend plan encrypt] } :
        ResendWorld).Invariant intent own := by
      refine ⟨hsafe, fun other hother => Made.extends (hinv.plans other hother) hext, ?_,
        fun request hreq => (hinv.requests request hreq).extends hext,
        hinv.reports, fun report hreport => reported_extends hinv hext report hreport⟩
      intro posting hposting
      exact absurd (hfree.symm.trans hposting) nofun
    exact hstored.continueManualResend call manualEnd (mem_append_right _
      mem_cons_self) (encryptManualResend_open plan encrypt)

end

/-! ### Posts -/

theorem record_kept (world : ResendWorld) (posting : PostingCall)
    (message : StoredOutgoingDeviceMessage) (update : DestinationUpdate) :
    KeptResends world.resends (world.record posting message update).resends :=
  recordOutgoingManualResendProgress_kept _ _ _ _

theorem findResend_record (message : StoredOutgoingDeviceMessage) (update : DestinationUpdate)
    (hfind : findResend posting.resend.manualMessageId world.resends = some resend)
    (hopen : isOpenManualResend resend) :
    findResend posting.resend.manualMessageId (world.record posting message update).resends =
      some (updateProgress (posting.destination message) update resend) := by
  rw [record, recordOutgoingManualResendProgress, findResend_changeResend, hfind,
    Option.map_some, if_pos hopen]
  intro other
  split <;> rfl

theorem holds_record (hholds : posting.Holds world.resends) (message : StoredOutgoingDeviceMessage)
    (update : DestinationUpdate) :
    posting.Holds (world.record posting message update).resends := by
  obtain ⟨resend, hfind, hopen, hsame, hposts⟩ := hholds
  refine ⟨_, findResend_record message update hfind hopen, hopen,
    hsame.trans (updateProgress_kept _ update hopen), fun index other hother => ?_⟩
  obtain ⟨hcheck, hstored⟩ := hposts index other hother
  refine ⟨hcheck, fun at_ hat => ⟨(hstored at_ hat).1, ?_⟩⟩
  exact (hstored at_ hat).2.update _ update

theorem holds_setPost {message : StoredOutgoingDeviceMessage}
    {post : ManualPost} (hholds : posting.Holds resends)
    (hfind : findResend posting.resend.manualMessageId resends = some resend)
    (hmsg : posting.resend.messages[index]? = some message)
    (hcheck : ∀ at_, post = .checked at_ → at_ < resend.deadlineAt)
    (hstored : ∀ at_, post = .stored at_ →
      at_ < resend.deadlineAt ∧ resend.Requested (posting.destination message)) :
    (posting.setPost index post).Holds resends := by
  obtain ⟨found, hfound, hopen, hsame, hposts⟩ := hholds
  obtain rfl : resend = found := Option.some.inj (hfind.symm.trans hfound)
  refine ⟨resend, hfind, hopen, hsame, fun other otherMessage hother => ?_⟩
  by_cases hidx : other = index
  · subst hidx
    obtain rfl : message = otherMessage := Option.some.inj (hmsg.symm.trans hother)
    have hpost : (posting.setPost other post).posts other = post := Function.update_self _ _ _
    rw [hpost]
    exact ⟨hcheck, hstored⟩
  · have hpost : (posting.setPost index post).posts other = posting.posts other :=
      Function.update_of_ne hidx _ _
    rw [hpost]
    exact hposts other otherMessage hother

theorem Invariant.ofKept {after : ResendWorld} (hinv : world.Invariant intent own)
    (hkept : KeptResends world.resends after.resends) (hplans : after.plans = world.plans)
    (hreports : after.reports = world.reports)
    (hposting : ∀ posting, after.posting = some posting → posting.Holds after.resends)
    (hrequests : ∀ request ∈ after.requests, request ∈ world.requests ∨
      request.Stored after.resends) : after.Invariant intent own := by
  refine ⟨hinv.resends.kept hkept, ?_, hposting, ?_, hreports ▸ hinv.reports, ?_⟩
  · rw [hplans]
    exact fun plan hplan => Made.extends (hinv.plans plan hplan) hkept.extends
  · intro request hreq
    rcases hrequests request hreq with hreq | hreq
    · exact (hinv.requests request hreq).extends hkept.extends
    · exact hreq
  · rw [hreports]
    exact reported_extends hinv hkept.extends

theorem start_stored {message : StoredOutgoingDeviceMessage} (hholds : posting.Holds world.resends)
    (hmsg : posting.resend.messages[index]? = some message)
    (hpost : posting.posts index = .stored at_) :
    ∀ request ∈ (world.start posting message at_).requests,
      request ∈ world.requests ∨ request.Stored world.resends := by
  intro request hreq
  rcases mem_append.mp hreq with hreq | hreq
  · exact .inl hreq
  obtain ⟨resend, hfind, -, hsame, hposts⟩ := hholds
  obtain ⟨hcheck, entry, hentry, hcount⟩ := (hposts index message hmsg).2 at_ hpost
  obtain rfl := mem_singleton.mp hreq
  refine .inr ⟨resend, (findResend_mem hfind).1, (findResend_mem hfind).2,
    hsame.operationEpochMilliseconds, ?_, hcheck, entry, ?_, hcount⟩
  · rw [hsame.messages]
    exact mem_of_getElem? hmsg
  · rw [storedEntry, hfind, Option.bind_some, hentry]

section

variable (hinv : world.Invariant intent own)

include hinv

variable {after : ResendWorld}

/-- The steps of a post: its deadline check, its write, its request and its answer. -/
theorem Invariant.nextPost {message : StoredOutgoingDeviceMessage}
    (hposting : world.posting = some posting)
    (hmsg : posting.resend.messages[index]? = some message)
    (hnext : world.nextPost posting index message event = some after) :
    after.Invariant intent own := by
  have hholds := hinv.posting posting hposting
  obtain ⟨resend, hfind, hopen, hsame, hposts⟩ := id hholds
  have hpost := hposts index message hmsg
  cases event with
  | check =>
    rw [ResendWorld.nextPost] at hnext
    obtain ⟨hdue, ⟨⟩⟩ := Option.ite_none_right_eq_some.mp hnext
    refine hinv.ofKept (KeptResends.refl _) rfl rfl ?_ fun _ => .inl
    rintro _ ⟨⟩
    refine holds_setPost hholds hfind hmsg ?_ (by rintro _ ⟨⟩)
    rintro _ ⟨⟩
    rw [hsame.deadlineAt]
    exact hdue.2
  | write =>
    rw [ResendWorld.nextPost] at hnext
    cases hstate : posting.posts index with
    | checked at_ =>
      simp only [hstate, Option.some.injEq] at hnext
      subst hnext
      refine hinv.ofKept (record_kept world posting message .request) rfl rfl ?_ fun _ => .inl
      rintro _ ⟨⟩
      refine holds_setPost (holds_record hholds message .request)
        (findResend_record message .request hfind hopen) hmsg (by rintro _ ⟨⟩) ?_
      rintro _ ⟨⟩
      exact ⟨hpost.1 at_ hstate, updateProgress_requested resend _⟩
    | idle => simp [hstate] at hnext
    | stored at_ => simp [hstate] at hnext
  | request =>
    rw [ResendWorld.nextPost] at hnext
    cases hstate : posting.posts index with
    | stored at_ =>
      simp only [hstate, Option.some.injEq] at hnext
      subst hnext
      refine hinv.ofKept (KeptResends.refl _) rfl rfl ?_
        (start_stored hholds hmsg hstate)
      rintro _ ⟨⟩
      exact holds_setPost hholds hfind hmsg (by rintro _ ⟨⟩) (by rintro _ ⟨⟩)
    | idle => simp [hstate] at hnext
    | checked at_ => simp [hstate] at hnext
  | answer other update =>
    obtain rfl := Option.some.inj hnext
    refine hinv.ofKept (record_kept world posting message (.answer update)) rfl rfl ?_
      fun _ => .inl
    intro current hcur
    obtain rfl : posting = current := Option.some.inj (hposting.symm.trans hcur)
    exact holds_record hholds message (.answer update)
  | _ => cases hnext

theorem Invariant.atMessage
    (hnext : world.atMessage index event = some after) : after.Invariant intent own := by
  obtain ⟨posting, hposting, hrest⟩ := Option.bind_eq_some_iff.mp hnext
  obtain ⟨message, hmsg, hpost⟩ := Option.bind_eq_some_iff.mp hrest
  exact hinv.nextPost hposting hmsg hpost

theorem Invariant.next
    (hnext : world.next intent own event = some after) : after.Invariant intent own := by
  cases event with
  | resend call content manualEnd =>
    obtain ⟨-, ⟨⟩⟩ := Option.ite_none_right_eq_some.mp hnext
    exact hinv.nextResend call content manualEnd
  | store call index encrypt manualEnd =>
    obtain ⟨plan, hplan, hrest⟩ := Option.bind_eq_some_iff.mp hnext
    obtain ⟨hfree, ⟨⟩⟩ := Option.ite_none_right_eq_some.mp hrest
    refine (hinv.forgetPlans (eraseIdx_subset)).storePlan call encrypt manualEnd ?_ ?_
    · simpa using hfree
    · exact hinv.plans plan (mem_of_getElem? hplan)
  | drop index =>
    obtain rfl := Option.some.inj hnext
    exact hinv.forgetPlans eraseIdx_subset
  | replay call manualEnd =>
    obtain ⟨resend, hfind, hrest⟩ := Option.bind_eq_some_iff.mp hnext
    obtain ⟨-, ⟨⟩⟩ := Option.ite_none_right_eq_some.mp hrest
    exact hinv.continueManualResend call manualEnd (mem_of_find?_eq_some hfind)
      (find?_some hfind)
  | endPast call manualMessageId manualEnd =>
    obtain ⟨resend, hfind, hrest⟩ := Option.bind_eq_some_iff.mp hnext
    obtain ⟨-, ⟨⟩⟩ := Option.ite_none_right_eq_some.mp hrest
    exact hinv.close call manualMessageId manualEnd
  | check index => exact hinv.atMessage hnext
  | write index => exact hinv.atMessage hnext
  | request index => exact hinv.atMessage hnext
  | answer index update => exact hinv.atMessage hnext
  | finish manualEnd =>
    obtain ⟨posting, hposting, rfl⟩ := Option.map_eq_some_iff.mp hnext
    exact hinv.close posting.call posting.resend.manualMessageId manualEnd
  | leave =>
    obtain rfl := Option.some.inj hnext
    exact hinv.ofKept (KeptResends.refl _) rfl rfl (by rintro _ ⟨⟩) fun _ => .inl
  | crash =>
    obtain rfl := Option.some.inj hnext
    have hleft := hinv.forgetPlans (nil_subset _)
    exact hleft.ofKept (KeptResends.refl _) rfl rfl (by rintro _ ⟨⟩) fun _ => .inl
  | tick now =>
    obtain ⟨-, ⟨⟩⟩ := Option.ite_none_right_eq_some.mp hnext
    exact hinv.ofKept (KeptResends.refl _) rfl rfl hinv.posting fun _ => .inl

end

theorem invariant_of_reachable
    (hreach : (resendSystem intent own).Reachable world) : world.Invariant intent own := by
  refine hreach.invariant ?_ ?_
  · rintro start ⟨hresends, hplans, hposting, hrequests, hreports⟩
    refine ⟨⟨?_, ?_, ?_⟩, ?_, ?_, ?_, ?_, ?_⟩
    all_goals simp [hresends, hplans, hposting, hrequests, hreports, Numbered]
  · rintro before after hinv ⟨event, hnext⟩
    exact hinv.next hnext

/-! ### Later states -/

theorem continueManualResend_kept (world : ResendWorld) (call : ℕ) (resend : StoredManualResend)
    (manualEnd : ManualResendEnd) :
    KeptResends world.resends (world.continueManualResend call resend manualEnd).resends := by
  rw [ResendWorld.continueManualResend]
  split
  · exact endOutgoingManualResend_kept _ _ _ _
  · exact KeptResends.refl _

theorem nextResend_kept (world : ResendWorld) (call : ℕ) (content : Option Bool)
    (manualEnd : ManualResendEnd) :
    KeptResends world.resends (world.nextResend intent own call content manualEnd).resends := by
  rw [ResendWorld.nextResend]
  split
  · exact continueManualResend_kept world call _ manualEnd
  · split <;> exact KeptResends.refl _

theorem storePlan_extends (world : ResendWorld) (call : ℕ) (plan : ManualResendPlan)
    (encrypt : OutgoingGroupDevice → String) (manualEnd : ManualResendEnd) :
    Extends world.resends (world.storePlan intent call plan encrypt manualEnd).resends := by
  rw [ResendWorld.storePlan]
  cases hadd : addOutgoingManualResend intent world.resends (encryptManualResend plan encrypt) with
  | error message => exact (KeptResends.refl _).extends
  | ok stored =>
    obtain ⟨-, -, rfl⟩ := addOutgoingManualResend_ok hadd
    exact (Extends.concat _ _).trans (continueManualResend_kept _ _ _ _).extends

variable {after : ResendWorld}

theorem nextPost_kept {message : StoredOutgoingDeviceMessage}
    (hnext : world.nextPost posting index message event = some after) :
    KeptResends world.resends after.resends := by
  cases event with
  | check =>
    obtain ⟨-, ⟨⟩⟩ := Option.ite_none_right_eq_some.mp hnext
    exact KeptResends.refl _
  | write =>
    rw [ResendWorld.nextPost] at hnext
    split at hnext
    · obtain rfl := Option.some.inj hnext
      exact record_kept world posting message .request
    · cases hnext
  | request =>
    rw [ResendWorld.nextPost] at hnext
    split at hnext
    · obtain rfl := Option.some.inj hnext
      exact KeptResends.refl _
    · cases hnext
  | answer other update =>
    obtain rfl := Option.some.inj hnext
    exact record_kept world posting message (.answer update)
  | _ => cases hnext

theorem atMessage_kept (hnext : world.atMessage index event = some after) :
    KeptResends world.resends after.resends := by
  obtain ⟨posting, -, hrest⟩ := Option.bind_eq_some_iff.mp hnext
  obtain ⟨message, -, hpost⟩ := Option.bind_eq_some_iff.mp hrest
  exact nextPost_kept hpost

theorem next_extends (hnext : world.next intent own event = some after) :
    Extends world.resends after.resends := by
  cases event with
  | resend call content manualEnd =>
    obtain ⟨-, ⟨⟩⟩ := Option.ite_none_right_eq_some.mp hnext
    exact (nextResend_kept world call content manualEnd).extends
  | store call index encrypt manualEnd =>
    obtain ⟨plan, -, hrest⟩ := Option.bind_eq_some_iff.mp hnext
    obtain ⟨-, ⟨⟩⟩ := Option.ite_none_right_eq_some.mp hrest
    exact storePlan_extends _ call plan encrypt manualEnd
  | drop index =>
    obtain rfl := Option.some.inj hnext
    exact (KeptResends.refl _).extends
  | replay call manualEnd =>
    obtain ⟨resend, -, hrest⟩ := Option.bind_eq_some_iff.mp hnext
    obtain ⟨-, ⟨⟩⟩ := Option.ite_none_right_eq_some.mp hrest
    exact (continueManualResend_kept world call resend manualEnd).extends
  | endPast call manualMessageId manualEnd =>
    obtain ⟨resend, -, hrest⟩ := Option.bind_eq_some_iff.mp hnext
    obtain ⟨-, ⟨⟩⟩ := Option.ite_none_right_eq_some.mp hrest
    exact (endOutgoingManualResend_kept _ _ _ _).extends
  | check index => exact (atMessage_kept hnext).extends
  | write index => exact (atMessage_kept hnext).extends
  | request index => exact (atMessage_kept hnext).extends
  | answer index update => exact (atMessage_kept hnext).extends
  | finish manualEnd =>
    obtain ⟨posting, -, rfl⟩ := Option.map_eq_some_iff.mp hnext
    exact (endOutgoingManualResend_kept _ _ _ _).extends
  | leave =>
    obtain rfl := Option.some.inj hnext
    exact (KeptResends.refl _).extends
  | crash =>
    obtain rfl := Option.some.inj hnext
    exact (KeptResends.refl _).extends
  | tick now =>
    obtain ⟨-, ⟨⟩⟩ := Option.ite_none_right_eq_some.mp hnext
    exact (KeptResends.refl _).extends

theorem extends_of_run {later : ResendWorld}
    (hrun : Relation.ReflTransGen (resendSystem intent own).step world later) :
    Extends world.resends later.resends := by
  induction hrun with
  | refl => exact (KeptResends.refl _).extends
  | tail _ hstep ih =>
    obtain ⟨event, hnext⟩ := hstep
    exact ih.trans (next_extends hnext)

end ResendWorld

/-- In every interleaving of the calls, at most one resend is open, the resends are numbered from
one, and a later state only adds resends and changes the open one, outside its fixed fields. -/
theorem manual_resends_safe {world later : ResendWorld}
    (hreachable : (resendSystem intent own).Reachable world)
    (hrun : Relation.ReflTransGen (resendSystem intent own).step world later) :
    (world.resends.filter isOpenManualResend).length ≤ 1 ∧
      Numbered intent.clientMessageId world.resends ∧
      Extends world.resends later.resends ∧
      (∀ resend ∈ world.resends, resend.Planned intent own) ∧
      world.resends.Pairwise InTurn ∧
      (∀ request ∈ world.requests, request.Stored world.resends) ∧
      (world.reports.map Prod.snd).Nodup ∧
      ∀ report ∈ world.reports, ∃ resend,
        findResend report.2 world.resends = some resend ∧ isOpenManualResend resend = false := by
  have hinv := ResendWorld.invariant_of_reachable hreachable
  have hextends := ResendWorld.extends_of_run hrun
  exact ⟨open_le_one hinv.resends.inTurn, hinv.resends.numbered, hextends,
    hinv.resends.planned, hinv.resends.inTurn, hinv.requests, hinv.reports, hinv.reported⟩

end

/-- A group send to one device: the Relay accepted the sender key and not the message. -/
def keyedIntent : StoredOutgoingMessageIntent where
  clientMessageId := "m1"
  clientTimestamp := 0
  createdAt := 0
  preMessages := some [{
    recipientUserId := "bob"
    recipientDeviceId := 1
    clientMessageId := some "m1:sender-key-distribution:0"
    ciphertext := "key" }]
  deviceMessages := [{
    recipientUserId := "bob"
    recipientDeviceId := 1
    clientMessageId := none
    ciphertext := "message" }]
  syncMessages := []
  outcome := some .failed
  destinationProgress := some ((∅ : DestinationProgress).set
    (outgoingDestinationProgressKey "m1:sender-key-distribution:0" ⟨"bob", 1⟩)
    { phase := .recipient, userId := "bob", deviceId := 1,
      postMessageId := "m1:sender-key-distribution:0", state := .accepted, requests := 1 })

def resentEvents : List ResendEvent :=
  let unknown : ManualResendEnd := .outcome ⟨.acceptanceUnknown, ∅⟩
  [.resend 1 (some true) unknown, .store 1 0 (fun _ => "again") unknown, .check 0, .write 0,
    .request 0, .answer 0 { answer := .unknown }, .finish unknown]

theorem resentEvents_run :
    (resentEvents.foldlM (ResendWorld.next keyedIntent ⟨"alice", 1⟩) { clock := 1 }).isSome := by
  decide

def resentWorld : ResendWorld := Option.get _ resentEvents_run

theorem resentWorld_reachable :
    (resendSystem keyedIntent ⟨"alice", 1⟩).Reachable resentWorld :=
  ⟨{ clock := 1 }, ⟨rfl, rfl, rfl, rfl, rfl⟩, TransitionSystem.reflTransGen_of_foldlM
    (fun _ event _ hnext => ⟨event, hnext⟩) (Option.some_get resentEvents_run).symm⟩

theorem manual_resends_safe_resentWorld :
    (resentWorld.resends.filter isOpenManualResend).length ≤ 1 ∧
      Numbered "m1" resentWorld.resends ∧ Extends resentWorld.resends resentWorld.resends ∧
      (∀ resend ∈ resentWorld.resends, resend.Planned keyedIntent ⟨"alice", 1⟩) ∧
      resentWorld.resends.Pairwise InTurn ∧
      (∀ request ∈ resentWorld.requests, request.Stored resentWorld.resends) ∧
      (resentWorld.reports.map Prod.snd).Nodup ∧
      ∀ report ∈ resentWorld.reports, ∃ resend,
        findResend report.2 resentWorld.resends = some resend ∧ isOpenManualResend resend = false :=
  manual_resends_safe resentWorld_reachable .refl

/-- A resend has a message for a device that a post of the send is recorded as accepted for. -/
theorem acceptedDevice_resent :
    ¬ ∀ (intent : StoredOutgoingMessageIntent) (own : OutgoingGroupDevice) (world : ResendWorld),
      (resendSystem intent own).Reachable world → ∀ resend ∈ world.resends,
        ∀ message ∈ resend.messages,
          ∀ entry ∈ (intent.destinationProgress.getD ∅).values, entry.state = .accepted →
            ¬ (entry.userId = message.recipientUserId ∧
              entry.deviceId = message.recipientDeviceId) := by
  intro hnever
  have hresent : (resentWorld.resends.any fun resend => resend.messages.any fun message =>
      (keyedIntent.destinationProgress.getD ∅).values.any fun entry =>
        entry.state = .accepted ∧ entry.userId = message.recipientUserId ∧
          entry.deviceId = message.recipientDeviceId) = true := by decide
  obtain ⟨resend, hresend, hmessages⟩ := any_eq_true.mp hresent
  obtain ⟨message, hmessage, hentries⟩ := any_eq_true.mp hmessages
  obtain ⟨entry, hentry, hsame⟩ := any_eq_true.mp hentries
  obtain ⟨haccepted, huser, hdevice⟩ := of_decide_eq_true hsame
  exact hnever keyedIntent ⟨"alice", 1⟩ resentWorld resentWorld_reachable resend hresend message
    hmessage entry hentry haccepted ⟨huser, hdevice⟩

end SignalProtocol.Outbox

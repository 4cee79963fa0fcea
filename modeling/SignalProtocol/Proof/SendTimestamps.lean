import SignalProtocol.Outbox.SendTimestamps

/-! # Send timestamps are unique

Every stored intent that no reading of the clock found expired holds the entry of its timestamp
alone. -/

namespace SignalProtocol.Outbox

open List

open Retry (RELIABILITY_RECORD_TTL_MS dayFor)

variable {store base next : SendStore} {clientMessageId : ClientMessageId}
variable {intent : TimestampedIntent} {now timestamp : ℤ} {event : SendEvent}

namespace SendStore

def Lives (store : SendStore) (clientMessageId : ClientMessageId) (intent : TimestampedIntent) :
    Prop :=
  store.intents clientMessageId = some intent ∧ store.lapsed clientMessageId = false

structure Held (store : SendStore) : Prop where
  alone : ∀ clientMessageId intent, store.Lives clientMessageId intent →
    store.entries intent.clientTimestamp = [clientMessageId]
  single : ∀ timestamp, (store.entries timestamp).length ≤ 1
  keyed : ∀ clientMessageId intent, store.intents clientMessageId = some intent →
    intent.clientMessageId = clientMessageId

/-- What the writes of `base` may leave: some of its intents, with the same expired ones. -/
structure Below (store base : SendStore) : Prop where
  intents : ∀ clientMessageId intent, store.intents clientMessageId = some intent →
    base.intents clientMessageId = some intent
  lapsed : store.lapsed = base.lapsed

theorem Below.refl (store : SendStore) : store.Below store := ⟨fun _ _ hintent => hintent, rfl⟩

theorem Below.lives (hbelow : store.Below base) (hlives : store.Lives clientMessageId intent) :
    base.Lives clientMessageId intent :=
  ⟨hbelow.intents _ _ hlives.1, hbelow.lapsed ▸ hlives.2⟩

theorem held_empty : SendStore.empty.Held where
  alone := by rintro clientMessageId intent ⟨⟨⟩, -⟩
  single := fun _ => Nat.zero_le 1
  keyed := by rintro clientMessageId intent ⟨⟩

theorem Held.eq_alone (hheld : store.Held) (hmem : clientMessageId ∈ store.entries timestamp) :
    store.entries timestamp = [clientMessageId] := by
  have hsingle := hheld.single timestamp
  cases hentry : store.entries timestamp with
  | nil =>
    rw [hentry] at hmem
    cases hmem
  | cons holder rest =>
    rw [hentry, length_cons] at hsingle
    obtain rfl : rest = [] := eq_nil_of_length_eq_zero (by omega)
    rw [hentry, mem_singleton] at hmem
    rw [hmem]

theorem read_lapsed (store : SendStore) (now : ℤ) (clientMessageId : ClientMessageId) :
    (store.read now).lapsed clientMessageId = (store.lapsed clientMessageId ||
      (store.intents clientMessageId).any fun intent => !intent.retainedAt now) := rfl

theorem lives_read (hlives : (store.read now).Lives clientMessageId intent) :
    store.Lives clientMessageId intent ∧ intent.retainedAt now = true := by
  obtain ⟨hintent, hlapsed⟩ := hlives
  change store.intents clientMessageId = some intent at hintent
  rw [read_lapsed, hintent, Option.any_some, Bool.or_eq_false_iff] at hlapsed
  exact ⟨⟨hintent, hlapsed.1⟩, by simpa using hlapsed.2⟩

theorem Held.read (hheld : store.Held) (now : ℤ) : (store.read now).Held :=
  { hheld with
    alone := fun clientMessageId intent hlives =>
      hheld.alone clientMessageId intent (lives_read hlives).1 }

/-- The clock shows no intent as retained that an earlier reading found expired. -/
def ClockSound (store : SendStore) (now : ℤ) : Prop :=
  ∀ clientMessageId intent, store.intents clientMessageId = some intent →
    intent.retainedAt now = true → store.lapsed clientMessageId = false

theorem ClockSound.lives (hclock : store.ClockSound now)
    (hintent : store.intents clientMessageId = some intent)
    (hretain : intent.retainedAt now = true) : (store.read now).Lives clientMessageId intent := by
  refine ⟨hintent, ?_⟩
  rw [read_lapsed, hintent, Option.any_some, hclock clientMessageId intent hintent hretain, hretain]
  rfl

theorem getOutgoingMessageIntent_eq_some :
    store.getOutgoingMessageIntent clientMessageId now = some intent ↔
      store.intents clientMessageId = some intent ∧ intent.retainedAt now = true :=
  Option.filter_eq_some_iff

theorem Below.owns (hbelow : next.Below (store.read now))
    (hlives : next.Lives clientMessageId intent) :
    next.ownsTimestamp clientMessageId intent.clientTimestamp now = true := by
  have hretain := (lives_read (hbelow.lives hlives)).2
  have hfound := getOutgoingMessageIntent_eq_some.mpr ⟨hlives.1, hretain⟩
  unfold ownsTimestamp
  rw [hfound, Option.any_some, decide_eq_true rfl]

def Harmless (base : SendStore) : MetadataWrite → Prop
  | .setIntent _ => False
  | .setEntry timestamp clientMessageIds =>
    clientMessageIds.length ≤ 1 ∧ ∀ clientMessageId intent, base.Lives clientMessageId intent →
      intent.clientTimestamp = timestamp → clientMessageIds = [clientMessageId]
  | _ => True

theorem setEntry_self (store : SendStore) (timestamp : ℤ)
    (clientMessageIds : List ClientMessageId) :
    (store.write (.setEntry timestamp clientMessageIds)).entries timestamp = clientMessageIds :=
  Function.update_self _ _ _

theorem setEntry_of_ne {other : ℤ} (hother : other ≠ timestamp)
    (clientMessageIds : List ClientMessageId) :
    (store.write (.setEntry timestamp clientMessageIds)).entries other = store.entries other :=
  Function.update_of_ne hother _ _

theorem Held.write {write : MetadataWrite} (hheld : store.Held) (hbelow : store.Below base)
    (hharmless : base.Harmless write) :
    (store.write write).Held ∧ (store.write write).Below base := by
  cases write with
  | setIntent intent => exact hharmless.elim
  | setEntry timestamp clientMessageIds =>
    obtain ⟨hlen, hlives⟩ := hharmless
    refine ⟨⟨?_, ?_, hheld.keyed⟩, hbelow.intents, hbelow.lapsed⟩
    · intro clientMessageId intent hintent
      by_cases hsame : intent.clientTimestamp = timestamp
      · rw [hsame, setEntry_self]
        exact hlives clientMessageId intent (hbelow.lives hintent) hsame
      · rw [setEntry_of_ne hsame]
        exact hheld.alone clientMessageId intent hintent
    · intro other
      by_cases hsame : other = timestamp
      · rw [hsame, setEntry_self]
        exact hlen
      · rw [setEntry_of_ne hsame]
        exact hheld.single other
  | deleteIntent deleted =>
    have hkept : ∀ clientMessageId intent,
        (store.write (.deleteIntent deleted)).intents clientMessageId = some intent →
        store.intents clientMessageId = some intent := by
      intro clientMessageId intent hintent
      by_cases hsame : clientMessageId = deleted
      · subst hsame
        rw [show (store.write (.deleteIntent clientMessageId)).intents clientMessageId = none from
          Function.update_self _ _ _] at hintent
        cases hintent
      · exact (Function.update_of_ne hsame _ _).symm.trans hintent
    refine ⟨⟨?_, hheld.single, fun _ _ hintent => hheld.keyed _ _ (hkept _ _ hintent)⟩,
      fun _ _ hintent => hbelow.intents _ _ (hkept _ _ hintent), hbelow.lapsed⟩
    intro clientMessageId intent hlives
    exact hheld.alone clientMessageId intent ⟨hkept _ _ hlives.1, hlives.2⟩
  | setPending clientMessageId pending =>
    exact ⟨⟨hheld.alone, hheld.single, hheld.keyed⟩, hbelow.intents, hbelow.lapsed⟩
  | deletePending clientMessageId =>
    exact ⟨⟨hheld.alone, hheld.single, hheld.keyed⟩, hbelow.intents, hbelow.lapsed⟩
  | indexOutbox day clientMessageId =>
    exact ⟨⟨hheld.alone, hheld.single, hheld.keyed⟩, hbelow.intents, hbelow.lapsed⟩
  | unindexOutbox day clientMessageId =>
    exact ⟨⟨hheld.alone, hheld.single, hheld.keyed⟩, hbelow.intents, hbelow.lapsed⟩
  | indexSent day timestamp =>
    exact ⟨⟨hheld.alone, hheld.single, hheld.keyed⟩, hbelow.intents, hbelow.lapsed⟩
  | unindexSent day timestamp =>
    exact ⟨⟨hheld.alone, hheld.single, hheld.keyed⟩, hbelow.intents, hbelow.lapsed⟩

variable {list : List MetadataWrite}

theorem Held.writes (hheld : store.Held) (hbelow : store.Below base)
    (hharmless : ∀ write ∈ list, base.Harmless write) :
    (store.writes list).Held ∧ (store.writes list).Below base := by
  unfold SendStore.writes
  induction list generalizing store with
  | nil => exact ⟨hheld, hbelow⟩
  | cons write list ih =>
    rw [foldl_cons]
    obtain ⟨hnext, hnextBelow⟩ := hheld.write hbelow (hharmless write mem_cons_self)
    exact ih hnext hnextBelow fun later hlater => hharmless later (mem_cons_of_mem _ hlater)

theorem writes_append (first second : List MetadataWrite) :
    store.writes (first ++ second) = (store.writes first).writes second :=
  foldl_append

theorem Held.writes_take (hheld : store.Held) (hharmless : ∀ write ∈ list, store.Harmless write)
    (completed : ℕ) : (store.writes (list.take completed)).Held :=
  (hheld.writes (.refl store) fun write hwrite => hharmless write (mem_of_mem_take hwrite)).1

theorem Held.writes_append_take {first second : List MetadataWrite} {completed : ℕ}
    (hheld : store.Held) (hfst : ∀ write ∈ first, store.Harmless write)
    (hsnd : first.length ≤ completed →
      ((store.writes first).writes (second.take (completed - first.length))).Held) :
    (store.writes ((first ++ second).take completed)).Held := by
  rw [List.take_append]
  by_cases hdone : first.length ≤ completed
  · rw [List.take_of_length_le hdone, writes_append]
    exact hsnd hdone
  · rw [Nat.sub_eq_zero_of_le (by omega), List.take_zero, append_nil]
    exact hheld.writes_take hfst completed

def PruneSound (store : SendStore) (now : ℤ) : Prop :=
  ∀ clientMessageId intent, store.intents clientMessageId = some intent →
    intent.retainedAt now = true → ∀ entry ∈ store.expiredSentDays now,
    entry.2 ≠ intent.clientTimestamp

theorem pruneSentWrites_harmless (hprune : store.PruneSound now)
    (hsame : next.sentDays = store.sentDays) :
    ∀ write ∈ next.pruneSentWrites now, (store.read now).Harmless write := by
  intro write hwrite
  unfold pruneSentWrites expiredSentDays at hwrite
  rw [hsame] at hwrite
  obtain hentry | hidx := mem_append.mp hwrite
  · obtain ⟨entry, hexp, rfl⟩ := mem_map.mp hentry
    refine ⟨Nat.zero_le 1, ?_⟩
    intro clientMessageId intent hlives hpruned
    obtain ⟨⟨hintent, -⟩, hretain⟩ := lives_read hlives
    exact absurd hpruned.symm (hprune clientMessageId intent hintent hretain entry hexp)
  · obtain ⟨entry, -, rfl⟩ := mem_map.mp hidx
    trivial

theorem pruneOutboxWrites_harmless :
    ∀ write ∈ store.pruneOutboxWrites now, base.Harmless write := by
  intro write hwrite
  obtain hentry | hidx := mem_append.mp hwrite
  · obtain ⟨entry, -, rfl⟩ := mem_map.mp hentry
    unfold pruneIntent
    split <;> trivial
  · obtain ⟨entry, -, rfl⟩ := mem_map.mp hidx
    trivial

theorem pruneOutbox_sentDays (list : List MetadataWrite)
    (hlist : ∀ write ∈ list, ∀ day timestamp,
      write ≠ .indexSent day timestamp ∧ write ≠ .unindexSent day timestamp) :
    (store.writes list).sentDays = store.sentDays := by
  unfold writes
  induction list generalizing store with
  | nil => rfl
  | cons write list ih =>
    rw [foldl_cons, ih fun later hlater => hlist later (mem_cons_of_mem _ hlater)]
    have hwrite := hlist write mem_cons_self
    cases write with
    | indexSent day timestamp => exact absurd rfl (hwrite day timestamp).1
    | unindexSent day timestamp => exact absurd rfl (hwrite day timestamp).2
    | _ => rfl

theorem pruneWrites_harmless (hprune : store.PruneSound now) :
    ∀ write ∈ (store.read now).pruneWrites now, (store.read now).Harmless write := by
  intro write hwrite
  obtain houtbox | hsent := mem_append.mp hwrite
  · exact pruneOutboxWrites_harmless write houtbox
  · refine pruneSentWrites_harmless hprune ?_ write hsent
    refine pruneOutbox_sentDays _ ?_
    intro earlier hprev day timestamp
    obtain hentry | hidx := mem_append.mp hprev
    · obtain ⟨entry, -, rfl⟩ := mem_map.mp hentry
      unfold pruneIntent
      split
      · exact ⟨by rintro ⟨⟩, by rintro ⟨⟩⟩
      · exact ⟨by rintro ⟨⟩, by rintro ⟨⟩⟩
    · obtain ⟨entry, -, rfl⟩ := mem_map.mp hidx
      exact ⟨by rintro ⟨⟩, by rintro ⟨⟩⟩

/-! ## Reservations -/

section Reservations

variable {request : SendTimestampRequest}

theorem chooseTimestamp_free {fuel : ℕ} {candidate : ℤ}
    (hchoice : store.chooseTimestamp request now fuel candidate = .free timestamp) :
    ∀ holder ∈ store.entries timestamp,
      store.sendTimestampHolderState holder timestamp request.grace now = .orphan := by
  induction fuel generalizing candidate with
  | zero => cases hchoice
  | succ fuel ih =>
    unfold chooseTimestamp at hchoice
    split at hchoice
    · cases hchoice
    · split at hchoice
      case isTrue horphans =>
        cases hchoice
        intro holder hholder
        simpa using all_eq_true.mp horphans holder hholder
      case isFalse =>
        split at hchoice
        · cases hchoice
        · split at hchoice
          · cases hchoice
          · exact ih hchoice

theorem orphan_not_owns {grace : ℤ}
    (horphan : store.sendTimestampHolderState clientMessageId timestamp grace now = .orphan) :
    store.ownsTimestamp clientMessageId timestamp now = false := by
  unfold sendTimestampHolderState at horphan
  split at horphan
  · cases horphan
  · split at horphan
    · cases horphan
    · split at horphan
      · cases horphan
      case isFalse hunowned => exact Bool.eq_false_iff.mpr hunowned

section

variable (hheld : store.Held)

include hheld

theorem removeSentTimestampId_harmless {removed : ClientMessageId}
    (hrem : ∀ intent, store.Lives removed intent → intent.clientTimestamp ≠ timestamp)
    (reservedAt : ℤ) :
    ∀ write ∈ store.removeSentTimestampId removed timestamp reservedAt, store.Harmless write := by
  intro write hwrite
  unfold removeSentTimestampId at hwrite
  dsimp only at hwrite
  split at hwrite
  · cases hwrite
  case isFalse hlen =>
    have hnone : ∀ clientMessageId intent, store.Lives clientMessageId intent →
        intent.clientTimestamp ≠ timestamp := by
      rintro clientMessageId intent hlives rfl
      apply hlen
      have hother : clientMessageId ≠ removed := by
        rintro rfl
        exact hrem intent hlives rfl
      rw [hheld.alone clientMessageId intent hlives, filter_cons_of_pos (by simpa using hother),
        filter_nil]
    split at hwrite
    · rw [mem_singleton] at hwrite
      subst hwrite
      refine ⟨Nat.le_trans (length_filter_le _ _) (hheld.single timestamp), ?_⟩
      intro clientMessageId intent hlives hsame
      exact absurd hsame (hnone clientMessageId intent hlives)
    · rw [mem_cons, mem_singleton] at hwrite
      rcases hwrite with rfl | rfl
      · refine ⟨Nat.zero_le 1, ?_⟩
        intro clientMessageId intent hlives hsame
        exact absurd hsame (hnone clientMessageId intent hlives)
      · trivial

theorem removeEarlierReservation_harmless
    (howns : ∀ clientMessageId intent, store.Lives clientMessageId intent →
      store.ownsTimestamp clientMessageId intent.clientTimestamp now = true) :
    ∀ write ∈ store.removeEarlierReservation clientMessageId timestamp now,
      store.Harmless write := by
  intro write hwrite
  unfold removeEarlierReservation at hwrite
  split at hwrite
  · cases hwrite
  · split at hwrite
    · cases hwrite
    · split at hwrite
      · cases hwrite
      case h_2.isFalse.isFalse hunowned =>
        refine removeSentTimestampId_harmless hheld ?_ _ write hwrite
        intro intent hlives hsame
        exact hunowned (hsame ▸ howns clientMessageId intent hlives)

theorem reserveWrites_harmless
    (howns : ∀ clientMessageId intent, store.Lives clientMessageId intent →
      store.ownsTimestamp clientMessageId intent.clientTimestamp now = true) :
    ∀ write ∈ store.reserveWrites request now, store.Harmless write := by
  intro write hwrite
  unfold reserveWrites at hwrite
  split at hwrite
  · split at hwrite
    · rw [mem_singleton] at hwrite
      subst hwrite
      trivial
    · cases hwrite
  case h_2 timestamp hchoice =>
    have hfree := chooseTimestamp_free hchoice
    rw [mem_append, mem_append, mem_append] at hwrite
    rcases hwrite with ((hprev | hreserved) | horphans) | hidx
    · exact removeEarlierReservation_harmless hheld howns write hprev
    · rw [mem_cons, mem_singleton] at hreserved
      rcases hreserved with rfl | rfl
      · trivial
      · refine ⟨Nat.le_refl 1, ?_⟩
        rintro clientMessageId intent hlives rfl
        -- A living holder is committed, so the candidate is not free.
        have hmem : clientMessageId ∈ store.entries intent.clientTimestamp := by
          rw [hheld.alone clientMessageId intent hlives]
          exact mem_singleton_self _
        have hunowned := orphan_not_owns (hfree clientMessageId hmem)
        rw [howns clientMessageId intent hlives] at hunowned
        cases hunowned
    · obtain ⟨holder, -, hrem⟩ := mem_flatMap.mp horphans
      unfold removeOrphan at hrem
      split at hrem
      · rw [mem_singleton] at hrem
        subst hrem
        trivial
      · rw [mem_cons, mem_singleton] at hrem
        rcases hrem with rfl | rfl <;> trivial
    · rw [mem_singleton] at hidx
      subst hidx
      trivial
  · cases hwrite
  · cases hwrite

theorem releaseSendTimestamp_harmless
    (howns : ∀ clientMessageId intent, store.Lives clientMessageId intent →
      store.ownsTimestamp clientMessageId intent.clientTimestamp now = true)
    (release : SendTimestampRelease) :
    ∀ write ∈ store.releaseSendTimestamp release now, store.Harmless write := by
  intro write hwrite
  unfold releaseSendTimestamp at hwrite
  split at hwrite
  · cases hwrite
  case isFalse hunowned =>
    obtain hrem | hpend := mem_append.mp hwrite
    · refine removeSentTimestampId_harmless hheld ?_ _ write hrem
      intro intent hlives hsame
      exact hunowned (hsame ▸ howns release.clientMessageId intent hlives)
    · split at hpend
      · rw [mem_singleton] at hpend
        subst hpend
        trivial
      · cases hpend

end

end Reservations

theorem indexWrites_harmless : ∀ write ∈ store.indexWrites intent, base.Harmless write := by
  intro write hwrite
  obtain hpend | hidx := mem_append.mp hwrite
  · split at hpend
    · rw [mem_singleton] at hpend
      subst hpend
      trivial
    · cases hpend
  · rw [mem_cons, mem_singleton] at hidx
    rcases hidx with rfl | rfl <;> trivial

theorem setIntent_self (store : SendStore) (intent : TimestampedIntent) :
    (store.write (.setIntent intent)).intents intent.clientMessageId = some intent :=
  Function.update_self _ _ _

theorem setIntent_of_ne (hother : clientMessageId ≠ intent.clientMessageId) :
    (store.write (.setIntent intent)).intents clientMessageId = store.intents clientMessageId :=
  Function.update_of_ne hother _ _

theorem Held.setIntent (hheld : store.Held)
    (hentry : store.entries intent.clientTimestamp = [intent.clientMessageId]) :
    (store.write (.setIntent intent)).Held where
  alone := by
    intro clientMessageId other hlives
    by_cases hsame : clientMessageId = intent.clientMessageId
    · subst hsame
      have hintent := (setIntent_self store intent).symm.trans hlives.1
      cases hintent
      exact hentry
    · refine hheld.alone clientMessageId other ⟨?_, ?_⟩
      · exact (setIntent_of_ne hsame).symm.trans hlives.1
      · exact (Function.update_of_ne hsame _ _).symm.trans hlives.2
  single := hheld.single
  keyed := by
    intro clientMessageId other hother
    by_cases hsame : clientMessageId = intent.clientMessageId
    · subst hsame
      have hintent := (setIntent_self store intent).symm.trans hother
      cases hintent
      rfl
    · exact hheld.keyed clientMessageId other ((setIntent_of_ne hsame).symm.trans hother)

theorem Held.setIntent_setEntry (hheld : store.Held)
    (hentry : store.entries intent.clientTimestamp = []) :
    ((store.write (.setIntent intent)).write
      (.setEntry intent.clientTimestamp [intent.clientMessageId])).Held := by
  have hharmless : store.Harmless (.setEntry intent.clientTimestamp [intent.clientMessageId]) := by
    refine ⟨Nat.le_refl 1, ?_⟩
    rintro clientMessageId other hlives hsame
    have halone := hheld.alone clientMessageId other hlives
    rw [hsame, hentry] at halone
    cases halone
  obtain ⟨hset, -⟩ := hheld.write (.refl store) hharmless
  exact hset.setIntent (setEntry_self store _ _)

/-- A new intent is stored where its ID is in the entry of its timestamp, or is the first one
there and the entry is written with it. -/
def StoreSound (store : SendStore) (intent : TimestampedIntent) (written : ℕ) : Prop :=
  written = 0 ∨ store.holds intent = true ∨ store.entries intent.clientTimestamp = [] ∧ written ≠ 1

theorem intentWrites_held (hheld : store.Held)
    (hlives : ∀ clientMessageId intent, store.intents clientMessageId = some intent →
      intent.retainedAt now = true → store.Lives clientMessageId intent) (written : ℕ)
    (hsound : store.getOutgoingMessageIntent intent.clientMessageId now = none →
      store.alreadyUsed intent = false → store.StoreSound intent written) :
    (store.writes ((store.intentWrites intent now).take written)).Held := by
  unfold intentWrites
  cases hexist : store.getOutgoingMessageIntent intent.clientMessageId now with
  | some existing =>
    dsimp only
    split
    · -- The retained intent holds its entry, so only the markers and indexes are written.
      obtain ⟨hintent, hretain⟩ := getOutgoingMessageIntent_eq_some.mp hexist
      have hholds : store.holds existing = true := by
        unfold holds
        rw [hheld.alone _ existing (hlives _ existing hintent hretain),
          hheld.keyed _ existing hintent]
        simp
      unfold holdWrites
      rw [if_pos hholds, nil_append]
      exact hheld.writes_take indexWrites_harmless written
    · rw [List.take_nil]
      exact hheld
  | none =>
    dsimp only
    split
    · rw [List.take_nil]
      exact hheld
    case isFalse hunused =>
      have hcases := hsound hexist (Bool.eq_false_iff.mpr hunused)
      cases written with
      | zero => exact hheld
      | succ written =>
        rw [List.take_succ_cons]
        change ((store.write (.setIntent intent)).writes _).Held
        rcases hcases with hnothing | hholds | ⟨hempty, hwrote⟩
        · cases hnothing
        · have hentry := hheld.eq_alone (of_decide_eq_true hholds)
          unfold holdWrites
          rw [if_pos hholds, nil_append]
          exact (hheld.setIntent hentry).writes_take indexWrites_harmless written
        · have hholds : ¬ store.holds intent = true := by
            unfold holds
            rw [hempty]
            simp
          unfold holdWrites
          rw [if_neg hholds, hempty, nil_append]
          cases written with
          | zero => exact absurd rfl hwrote
          | succ written =>
            rw [singleton_append, List.take_succ_cons]
            exact (hheld.setIntent_setEntry hempty).writes_take indexWrites_harmless written

end SendStore

def SendStore.pruned (store : SendStore) (now : ℤ) : SendStore :=
  (store.read now).writes ((store.read now).pruneWrites now)

/-- An operation at a clock that revives no expired intent, whose pruning keeps the entries of the
retained intents, and which stores a new intent into the entry of its timestamp. -/
structure SendEvent.Sound (store : SendStore) (event : SendEvent) : Prop where
  clock : store.ClockSound event.now
  prune : (∀ release, event.operation ≠ .release release) → store.PruneSound event.now
  store : ∀ intent, event.operation = .store intent →
    (store.pruned event.now).getOutgoingMessageIntent intent.clientMessageId event.now = none →
    (store.pruned event.now).alreadyUsed intent = false →
    (store.pruned event.now).StoreSound intent
      (event.completed - ((store.read event.now).pruneWrites event.now).length)

/-- A run whose operations are all sound in the states where they happen. -/
def SoundRun (store : SendStore) : List SendEvent → Prop
  | [] => True
  | event :: events => event.Sound store ∧ SoundRun (store.step event) events

namespace SendStore

theorem Held.step (hheld : store.Held) (hsound : event.Sound store) : (store.step event).Held := by
  have hread := hheld.read event.now
  unfold SendStore.step
  cases hop : event.operation with
  | reserve request =>
    have hprune := hsound.prune (by rw [hop]; rintro release ⟨⟩)
    have hharmless := pruneSentWrites_harmless hprune
      (show (store.read event.now).sentDays = store.sentDays from rfl)
    refine hread.writes_append_take hharmless fun _ => ?_
    obtain ⟨hpruned, hbelow⟩ := hread.writes (.refl _) hharmless
    refine hpruned.writes_take (reserveWrites_harmless hpruned ?_) _
    exact fun clientMessageId intent hlives => hbelow.owns hlives
  | store intent =>
    have hprune := hsound.prune (by rw [hop]; rintro release ⟨⟩)
    have hharmless := pruneWrites_harmless hprune
    refine hread.writes_append_take hharmless fun _ => ?_
    obtain ⟨hpruned, hbelow⟩ := hread.writes (.refl _) hharmless
    refine intentWrites_held hpruned ?_ _ (hsound.store intent hop)
    intro clientMessageId other hother hretain
    obtain ⟨-, hlapsed⟩ :=
      hsound.clock.lives (hbelow.intents clientMessageId other hother) hretain
    exact ⟨hother, hbelow.lapsed ▸ hlapsed⟩
  | release release =>
    refine hread.writes_take (releaseSendTimestamp_harmless hread ?_ release) _
    exact fun clientMessageId intent hlives => (Below.refl _).owns hlives
  | prune =>
    have hprune := hsound.prune (by rw [hop]; rintro release ⟨⟩)
    exact hread.writes_take (pruneWrites_harmless hprune) _

theorem Held.run {events : List SendEvent} (hheld : store.Held) (hsound : SoundRun store events) :
    (store.run events).Held := by
  unfold SendStore.run
  induction events generalizing store with
  | nil => exact hheld
  | cons event events ih =>
    rw [foldl_cons]
    exact ih (hheld.step hsound.1) hsound.2

end SendStore

/-- In a run of sound operations, two intents that are retained at the same time have different
client timestamps. -/
theorem send_timestamps_unique (events : List SendEvent) (now : ℤ)
    (hsound : SoundRun SendStore.empty events)
    (hclock : (SendStore.empty.run events).ClockSound now) (first second : ClientMessageId)
    (firstIntent secondIntent : TimestampedIntent)
    (hfirst : (SendStore.empty.run events).getOutgoingMessageIntent first now = some firstIntent)
    (hsecond : (SendStore.empty.run events).getOutgoingMessageIntent second now =
      some secondIntent) (hdifferent : first ≠ second) :
    firstIntent.clientTimestamp ≠ secondIntent.clientTimestamp := by
  intro hsame
  have hheld := (SendStore.held_empty.run hsound).read now
  obtain ⟨hfirst, hfirstRetained⟩ := SendStore.getOutgoingMessageIntent_eq_some.mp hfirst
  obtain ⟨hsecond, hsecondRetained⟩ := SendStore.getOutgoingMessageIntent_eq_some.mp hsecond
  have hfirstAlone := hheld.alone first firstIntent (hclock.lives hfirst hfirstRetained)
  have hsecondAlone := hheld.alone second secondIntent (hclock.lives hsecond hsecondRetained)
  rw [hsame, hsecondAlone] at hfirstAlone
  exact hdifferent (List.cons.inj hfirstAlone).1.symm

/-! ## Runs in one lifetime -/

/-- An intent not older than the lifetime of a record before `last`. -/
structure TimestampedIntent.Fresh (last : ℤ) (intent : TimestampedIntent) : Prop where
  created : last - RELIABILITY_RECORD_TTL_MS ≤ intent.createdAt
  retained : last - RELIABILITY_RECORD_TTL_MS ≤ outgoingIntentRetainedFrom intent

/-- A store that holds nothing older than that. -/
structure SendStore.Fresh (store : SendStore) (last : ℤ) : Prop where
  intents : ∀ clientMessageId intent, store.intents clientMessageId = some intent →
    intent.Fresh last
  lapsed : ∀ clientMessageId, store.lapsed clientMessageId = false
  sentDays : ∀ entry ∈ store.sentDays, dayFor (last - RELIABILITY_RECORD_TTL_MS) ≤ entry.1

/-- A write that brings nothing older than that. -/
def MetadataWrite.isFresh (last : ℤ) : MetadataWrite → Bool
  | .setIntent intent => last - RELIABILITY_RECORD_TTL_MS ≤ intent.createdAt ∧
      last - RELIABILITY_RECORD_TTL_MS ≤ outgoingIntentRetainedFrom intent
  | .indexSent day _ => dayFor (last - RELIABILITY_RECORD_TTL_MS) ≤ day
  | _ => true

namespace SendStore

variable {last : ℤ}

theorem fresh_empty : SendStore.empty.Fresh last where
  intents := by rintro clientMessageId intent ⟨⟩
  lapsed := fun _ => rfl
  sentDays := by rintro entry ⟨⟩

section

variable (hfresh : store.Fresh last)

include hfresh

theorem Fresh.retained (hnow : now ≤ last)
    (hintent : store.intents clientMessageId = some intent) : intent.retainedAt now = true := by
  have hfrom := (hfresh.intents clientMessageId intent hintent).retained
  unfold TimestampedIntent.retainedAt
  rw [decide_eq_true_eq]
  omega

theorem Fresh.clockSound : store.ClockSound now :=
  fun clientMessageId _ _ _ => hfresh.lapsed clientMessageId

theorem Fresh.expiredSentDays (hnow : now ≤ last) : store.expiredSentDays now = [] := by
  unfold SendStore.expiredSentDays
  rw [filter_eq_nil_iff]
  intro entry hentry
  have hkept := hfresh.sentDays entry hentry
  have hday : dayFor (now - RELIABILITY_RECORD_TTL_MS) ≤
      dayFor (last - RELIABILITY_RECORD_TTL_MS) :=
    Int.ediv_le_ediv (by decide) (by omega)
  simp only [decide_eq_true_eq]
  omega

theorem Fresh.pruneSound (hnow : now ≤ last) : store.PruneSound now := by
  intro clientMessageId intent _ _ entry hentry
  rw [hfresh.expiredSentDays hnow] at hentry
  cases hentry

theorem Fresh.read (hnow : now ≤ last) :
    (store.read now).Fresh last :=
  { hfresh with
    lapsed := by
      intro clientMessageId
      rw [read_lapsed, hfresh.lapsed, Bool.false_or]
      cases hintent : store.intents clientMessageId with
      | none => rfl
      | some intent => rw [Option.any_some, hfresh.retained hnow hintent, Bool.not_true] }

theorem Fresh.write {write : MetadataWrite} (hwrite : write.isFresh last = true) :
    (store.write write).Fresh last := by
  cases write with
  | setIntent intent =>
    refine ⟨?_, ?_, hfresh.sentDays⟩
    · intro clientMessageId other hother
      by_cases hsame : clientMessageId = intent.clientMessageId
      · subst hsame
        cases (setIntent_self store intent).symm.trans hother
        exact ⟨(of_decide_eq_true hwrite).1, (of_decide_eq_true hwrite).2⟩
      · exact hfresh.intents clientMessageId other ((setIntent_of_ne hsame).symm.trans hother)
    · intro clientMessageId
      by_cases hsame : clientMessageId = intent.clientMessageId
      · subst hsame
        exact Function.update_self _ _ _
      · exact (Function.update_of_ne hsame _ _).trans (hfresh.lapsed clientMessageId)
  | deleteIntent deleted =>
    refine ⟨?_, hfresh.lapsed, hfresh.sentDays⟩
    intro clientMessageId intent hintent
    by_cases hsame : clientMessageId = deleted
    · subst hsame
      cases (show (store.write (.deleteIntent clientMessageId)).intents clientMessageId = none from
        Function.update_self _ _ _).symm.trans hintent
    · exact hfresh.intents clientMessageId intent
        ((Function.update_of_ne hsame _ _).symm.trans hintent)
  | indexSent day timestamp =>
    refine ⟨hfresh.intents, hfresh.lapsed, ?_⟩
    intro entry hentry
    rcases mem_insert_iff.mp hentry with rfl | hold
    · exact of_decide_eq_true hwrite
    · exact hfresh.sentDays entry hold
  | unindexSent day timestamp =>
    refine ⟨hfresh.intents, hfresh.lapsed, ?_⟩
    exact fun entry hentry => hfresh.sentDays entry (mem_filter.mp hentry).1
  | setEntry timestamp clientMessageIds => exact ⟨hfresh.intents, hfresh.lapsed, hfresh.sentDays⟩
  | setPending clientMessageId pending => exact ⟨hfresh.intents, hfresh.lapsed, hfresh.sentDays⟩
  | deletePending clientMessageId => exact ⟨hfresh.intents, hfresh.lapsed, hfresh.sentDays⟩
  | indexOutbox day clientMessageId => exact ⟨hfresh.intents, hfresh.lapsed, hfresh.sentDays⟩
  | unindexOutbox day clientMessageId => exact ⟨hfresh.intents, hfresh.lapsed, hfresh.sentDays⟩

theorem Fresh.writes {list : List MetadataWrite}
    (hlist : ∀ write ∈ list, write.isFresh last = true) : (store.writes list).Fresh last := by
  unfold SendStore.writes
  induction list generalizing store with
  | nil => exact hfresh
  | cons write list ih =>
    rw [foldl_cons]
    exact ih (hfresh.write (hlist write mem_cons_self)) fun later hlater =>
      hlist later (mem_cons_of_mem _ hlater)

theorem Fresh.step (hbefore : event.now ≤ last)
    (hwrites : ∀ write ∈ (store.read event.now).operationWrites event.now event.operation,
      write.isFresh last = true) : (store.step event).Fresh last :=
  (hfresh.read hbefore).writes fun write hwrite => hwrites write (mem_of_mem_take hwrite)

theorem Fresh.sound (hbefore : event.now ≤ last)
    (hstore : ∀ intent, event.operation = .store intent → (store.pruned event.now).StoreSound intent
      (event.completed - ((store.read event.now).pruneWrites event.now).length)) :
    event.Sound store where
  clock := hfresh.clockSound
  prune := fun _ => hfresh.pruneSound hbefore
  store := fun intent hop _ _ => hstore intent hop

end

end SendStore

def exampleReserve (clientMessageId : ClientMessageId) : TimestampOperation :=
  .reserve { clientMessageId, timestamp := 10, origin := .sdkClock, latest := 20, grace := 1000 }

def exampleTimestamped (clientMessageId : ClientMessageId) (clientTimestamp : ℤ) :
    TimestampedIntent where
  clientMessageId
  clientTimestamp
  createdAt := 10
  send := ""

/-- The second send stops between its entry and the marker of the first one, whose store then
finds its own marker. -/
def exampleStaleMarker : List SendEvent :=
  [{ operation := exampleReserve "first", now := 10, completed := 10 },
    { operation := exampleReserve "second", now := 2000, completed := 2 },
    { operation := .store (exampleTimestamped "first" 10), now := 2001, completed := 10 },
    { operation := exampleReserve "second", now := 2002, completed := 10 },
    { operation := .store (exampleTimestamped "second" 10), now := 2003, completed := 10 }]

theorem stale_marker_repeats_timestamp :
    (SendStore.empty.run exampleStaleMarker).getOutgoingMessageIntent "first" 2004 =
        some (exampleTimestamped "first" 10) ∧
      (SendStore.empty.run exampleStaleMarker).getOutgoingMessageIntent "second" 2004 =
        some (exampleTimestamped "second" 10) ∧
      (exampleTimestamped "first" 10).clientTimestamp = (exampleTimestamped "second" 10).clientTimestamp := by
  decide

def exampleSends : List SendEvent :=
  [{ operation := exampleReserve "first", now := 10, completed := 10 },
    { operation := .store (exampleTimestamped "first" 10), now := 10, completed := 10 },
    { operation := exampleReserve "second", now := 10, completed := 10 },
    { operation := .store (exampleTimestamped "second" 11), now := 10, completed := 10 }]

/-- What the first sends of the run leave is fresh. -/
theorem exampleSends_fresh : ∀ count ≤ 4, (SendStore.empty.run (exampleSends.take count)).Fresh 20
  | 0, _ => SendStore.fresh_empty
  | 1, _ => (exampleSends_fresh 0 (by decide)).step (by decide) (by decide)
  | 2, _ => (exampleSends_fresh 1 (by decide)).step (by decide) (by decide)
  | 3, _ => (exampleSends_fresh 2 (by decide)).step (by decide) (by decide)
  | 4, _ => (exampleSends_fresh 3 (by decide)).step (by decide) (by decide)

theorem exampleSends_sound : SoundRun SendStore.empty exampleSends := by
  refine ⟨?_, ?_, ?_, ?_, trivial⟩
  · refine (exampleSends_fresh 0 (by decide)).sound (by decide) ?_
    rintro intent ⟨⟩
  · refine (exampleSends_fresh 1 (by decide)).sound (by decide) ?_
    rintro intent ⟨⟩
    exact .inr (.inl (by decide))
  · refine (exampleSends_fresh 2 (by decide)).sound (by decide) ?_
    rintro intent ⟨⟩
  · refine (exampleSends_fresh 3 (by decide)).sound (by decide) ?_
    rintro intent ⟨⟩
    exact .inr (.inl (by decide))

theorem exampleSends_differ :
    (exampleTimestamped "first" 10).clientTimestamp ≠ (exampleTimestamped "second" 11).clientTimestamp := by
  exact send_timestamps_unique exampleSends 12 exampleSends_sound
    (exampleSends_fresh 4 (by decide)).clockSound "first"
    "second" (exampleTimestamped "first" 10) (exampleTimestamped "second" 11) (by decide)
    (by decide) (by decide)

end SignalProtocol.Outbox

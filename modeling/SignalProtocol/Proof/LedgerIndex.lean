import SignalProtocol.Ledger.Store
import SignalProtocol.Proof.RetryLedger

/-! # Pruning and index entries

What a prune and each write of a record keep of the index of one kind. -/

namespace SignalProtocol.Ledger

open List

open Retry (dayFor dayFor_mono RELIABILITY_RECORD_TTL_MS)

theorem mem_sortedDays {day : ℤ} {days : List ℤ} : day ∈ sortedDays days ↔ day ∈ days :=
  mem_insertionSort _

namespace KindLedger

section

variable {Record : Type} {ledger : KindLedger Record} {id other : String} {day found : ℤ}

theorem mem_addToBucket : other ∈ (ledger.addToBucket day id).buckets found ↔
    other ∈ ledger.buckets found ∨ found = day ∧ other = id := by
  rw [addToBucket]
  by_cases hday : found = day
  · subst hday
    simp only [Function.update_self, true_and]
    split
    · rename_i hmem
      exact ⟨.inl, fun hother => hother.elim (fun h => h) fun h => h ▸ hmem⟩
    · simp
  · simp [hday]

theorem mem_deleteBucket : other ∈ (ledger.deleteBucket day).buckets found ↔
    found ≠ day ∧ other ∈ ledger.buckets found := by
  rw [deleteBucket]
  by_cases hday : found = day
  · subst hday
    simp
  · simp [hday]

variable {timestamp : ℤ}

theorem mem_unindexRecord :
    other ∈ (ledger.unindexRecord id timestamp).buckets found ↔
      other ∈ ledger.buckets found ∧ ¬ (found = dayFor timestamp ∧ other = id) := by
  rw [unindexRecord]
  by_cases hday : found = dayFor timestamp
  · subst hday
    simp
  · simp [hday]

theorem mem_unindexRecord_manifest (hday : day ∈ ledger.manifest)
    (hother : other ∈ (ledger.unindexRecord id timestamp).buckets day) :
    day ∈ (ledger.unindexRecord id timestamp).manifest := by
  rw [mem_unindexRecord] at hother
  rw [unindexRecord]
  dsimp only
  split
  · rename_i hempty
    rw [mem_filter]
    refine ⟨hday, decide_eq_true fun hsame => ?_⟩
    subst hsame
    have hkept : other ∈ (ledger.buckets (dayFor timestamp)).filter (· ≠ id) :=
      mem_filter.mpr ⟨hother.1, decide_eq_true fun hid => hother.2 ⟨rfl, hid⟩⟩
    rw [hempty] at hkept
    cases hkept
  · exact hday

variable {days : List ℤ}

theorem mem_indexRecord :
    other ∈ (ledger.indexRecord id timestamp days).buckets found ↔
      other ∈ ledger.buckets found ∨ found = dayFor timestamp ∧ other = id :=
  mem_addToBucket

theorem mem_indexRecord_manifest :
    day ∈ (ledger.indexRecord id timestamp days).manifest ↔
      day ∈ days ∨ day = dayFor timestamp := by
  change day ∈ (if dayFor timestamp ∈ days then days else sortedDays (days ++ [dayFor timestamp])) ↔
    _
  split
  · rename_i hmem
    exact ⟨.inl, fun hday => hday.elim (fun h => h) fun h => h ▸ hmem⟩
  · rw [mem_sortedDays, mem_append, mem_singleton]

end

def Listed {Record : Type} (expiry : Expiry Record) (ledger : KindLedger Record) (days : List ℤ)
    (id : String) : Prop :=
  ∀ record, ledger.records id = some record →
    id ∈ ledger.buckets (dayFor (expiry.time record)) ∧ dayFor (expiry.time record) ∈ days

def Exact {Record : Type} (expiry : Expiry Record) (ledger : KindLedger Record) (id : String) :
    Prop :=
  ∀ day, id ∈ ledger.buckets day →
    ∃ record, ledger.records id = some record ∧ dayFor (expiry.time record) = day

end KindLedger

/-! ## Pruning -/

namespace Pruning

section

variable {Record : Type} {expiry : Expiry Record} {now : ℤ} {pruning : Pruning Record}
variable {id other : String} {record : Record} {day : ℤ}

def Kept (expiry : Expiry Record) (now : ℤ) (record : Record) : Prop :=
  expiry.keeps = true ∧ now - RELIABILITY_RECORD_TTL_MS ≤ expiry.time record

/-- What a prune of the listed records leaves: their index entries stay, and of the listed records
those that later writes retain. -/
structure Pruned (expiry : Expiry Record) (now : ℤ) (ids : List String)
    (pruning next : Pruning Record) : Prop where
  buckets : ∀ day id, id ∈ pruning.ledger.buckets day → id ∈ next.ledger.buckets day
  manifest : ∀ day ∈ pruning.manifest, day ∈ next.manifest
  synced : (∀ day, day ∈ pruning.ledger.manifest ↔ day ∈ pruning.manifest) →
    ∀ day, day ∈ next.ledger.manifest ↔ day ∈ next.manifest
  same : expiry.keeps = false → next.ledger.buckets = pruning.ledger.buckets
  survivor : ∀ id record, next.ledger.records id = some record →
    pruning.ledger.records id = some record ∧ (id ∈ ids → Kept expiry now record ∧
      id ∈ next.ledger.buckets (dayFor (expiry.time record)) ∧
      dayFor (expiry.time record) ∈ next.manifest)
  remains : ∀ id record, pruning.ledger.records id = some record →
    (id ∈ ids → Kept expiry now record) → next.ledger.records id = some record

theorem Pruned.refl (pruning : Pruning Record) : Pruned expiry now [] pruning pruning where
  buckets _ _ hmem := hmem
  manifest _ hmem := hmem
  synced hsynced := hsynced
  same _ := rfl
  survivor _ _ hrec := ⟨hrec, fun hmem => absurd hmem not_mem_nil⟩
  remains _ _ hrec _ := hrec

theorem Pruned.append {first second : List String} {middle next : Pruning Record}
    (hfst : Pruned expiry now first pruning middle)
    (hsnd : Pruned expiry now second middle next) :
    Pruned expiry now (first ++ second) pruning next where
  buckets day id hmem := hsnd.buckets day id (hfst.buckets day id hmem)
  manifest day hmem := hsnd.manifest day (hfst.manifest day hmem)
  synced hsynced := hsnd.synced (hfst.synced hsynced)
  same hkeeps := (hsnd.same hkeeps).trans (hfst.same hkeeps)
  survivor id record hrec := by
    obtain ⟨hmiddle, hlater⟩ := hsnd.survivor id record hrec
    obtain ⟨hbefore, hprev⟩ := hfst.survivor id record hmiddle
    refine ⟨hbefore, fun hmem => ?_⟩
    rcases mem_append.mp hmem with hmem | hmem
    · obtain ⟨hkept, hlist, hday⟩ := hprev hmem
      exact ⟨hkept, hsnd.buckets _ _ hlist, hsnd.manifest _ hday⟩
    · exact hlater hmem
  remains id record hrec hkept := by
    refine hsnd.remains id record (hfst.remains id record hrec fun hmem => ?_)
      fun hmem => ?_
    · exact hkept (mem_append_left _ hmem)
    · exact hkept (mem_append_right _ hmem)

theorem deleteRecord_pruned
    (hrec : ∀ record, pruning.ledger.records id = some record → ¬ Kept expiry now record) :
    Pruned expiry now [id] pruning { pruning with ledger := pruning.ledger.deleteRecord id } where
  buckets _ _ hmem := hmem
  manifest _ hmem := hmem
  synced hsynced := hsynced
  same _ := rfl
  survivor other record hfound := by
    change Function.update pruning.ledger.records id none other = some record at hfound
    by_cases hother : other = id
    · rw [hother, Function.update_self] at hfound
      cases hfound
    · rw [Function.update_of_ne hother] at hfound
      exact ⟨hfound, fun hmem => absurd (mem_singleton.mp hmem) hother⟩
  remains other record hfound hkept := by
    change Function.update pruning.ledger.records id none other = some record
    by_cases hother : other = id
    · subst hother
      exact absurd (hkept (mem_singleton_self _)) (hrec record hfound)
    · rw [Function.update_of_ne hother, hfound]

theorem keepOutgoingIntent_pruned {next : Pruning Record} (hkeeps : expiry.keeps = true)
    (hkept : pruning.keepOutgoingIntent expiry now id = some next) :
    Pruned expiry now [id] pruning next := by
  rw [keepOutgoingIntent] at hkept
  cases hfound : pruning.ledger.records id with
  | none =>
    rw [hfound] at hkept
    cases hkept
  | some record =>
    rw [hfound] at hkept
    dsimp only at hkept
    split at hkept
    · cases hkept
    · rename_i hretain
      have hlist : ∀ found other, other ∈ pruning.ledger.buckets found →
          other ∈ (pruning.ledger.addToBucket (dayFor (expiry.time record)) id).buckets found :=
        fun found other hmem => KindLedger.mem_addToBucket.mpr (.inl hmem)
      have hself : id ∈ (pruning.ledger.addToBucket (dayFor (expiry.time record)) id).buckets
          (dayFor (expiry.time record)) := KindLedger.mem_addToBucket.mpr (.inr ⟨rfl, rfl⟩)
      have hsurvivor : ∀ manifest : List ℤ, dayFor (expiry.time record) ∈ manifest →
          ∀ other found, pruning.ledger.records other = some found →
            pruning.ledger.records other = some found ∧ (other ∈ [id] → Kept expiry now found ∧
              other ∈ (pruning.ledger.addToBucket (dayFor (expiry.time record)) id).buckets
                (dayFor (expiry.time found)) ∧ dayFor (expiry.time found) ∈ manifest) := by
        intro manifest hday other found hother
        refine ⟨hother, fun hmem => ?_⟩
        obtain rfl := mem_singleton.mp hmem
        obtain rfl : record = found := Option.some.inj (hfound.symm.trans hother)
        exact ⟨⟨hkeeps, not_lt.mp hretain⟩, hself, hday⟩
      have hsame : expiry.keeps = false → (pruning.ledger.addToBucket
          (dayFor (expiry.time record)) id).buckets = pruning.ledger.buckets := by
        intro hnone
        rw [hkeeps] at hnone
        cases hnone
      split at hkept
      · rename_i hday
        obtain rfl := Option.some.inj hkept
        exact ⟨hlist, fun _ hmem => hmem, fun hsynced => hsynced, hsame, hsurvivor _ hday,
          fun _ _ hother _ => hother⟩
      · obtain rfl := Option.some.inj hkept
        refine ⟨hlist, fun _ hmem => mem_append_left _ hmem, fun _ day => mem_sortedDays,
          hsame, hsurvivor _ ?_, fun _ _ hother _ => hother⟩
        exact mem_append_right _ (mem_singleton_self _)

theorem pruneRecord_pruned (pruning : Pruning Record) (id : String) :
    Pruned expiry now [id] pruning (pruning.pruneRecord expiry now id) := by
  by_cases hkeeps : expiry.keeps = true
  · rw [pruneRecord, if_pos hkeeps]
    cases hkept : pruning.keepOutgoingIntent expiry now id with
    | some next => exact keepOutgoingIntent_pruned hkeeps hkept
    | none =>
      refine deleteRecord_pruned fun record hfound hretain => ?_
      rw [keepOutgoingIntent, hfound] at hkept
      dsimp only at hkept
      rw [if_neg (not_lt.mpr hretain.2)] at hkept
      split at hkept <;> cases hkept
  · rw [pruneRecord, if_neg hkeeps]
    exact deleteRecord_pruned fun _ _ hkept => hkeeps hkept.1

theorem pruneRecords_pruned (expiry : Expiry Record) (now : ℤ) (ids : List String)
    (pruning : Pruning Record) :
    Pruned expiry now ids pruning (ids.foldl (pruneRecord expiry now) pruning) := by
  induction ids generalizing pruning with
  | nil => exact Pruned.refl pruning
  | cons id ids ih => exact (pruneRecord_pruned pruning id).append (ih _)

/-! ### Days -/

theorem Kept.retained (hkept : Kept expiry now record) :
    firstRetainedDay expiry now ≤ dayFor (expiry.time record) := by
  rw [firstRetainedDay, expiry.sound hkept.1]
  exact dayFor_mono hkept.2

theorem expired_of_day (hday : dayFor (expiry.time record) < firstRetainedDay expiry now) :
    expiry.time record < now - expiry.ttl :=
  lt_of_not_ge fun hle => absurd (dayFor_mono hle) (not_le.mpr hday)

theorem pruneDay_survivor (hlist : pruning.ledger.Listed expiry pruning.manifest id)
    (hrec : (pruning.pruneDay expiry now day).ledger.records id = some record) :
    pruning.ledger.records id = some record ∧
      (dayFor (expiry.time record) = day → firstRetainedDay expiry now ≤ day) := by
  rw [pruneDay] at hrec
  split at hrec
  · rename_i hretain
    exact ⟨hrec, fun _ => hretain⟩
  · obtain ⟨hbefore, hkept⟩ := (pruneRecords_pruned expiry now _ pruning).survivor id record hrec
    refine ⟨hbefore, ?_⟩
    rintro rfl
    exact (hkept (hlist record hbefore).1).1.retained

theorem pruneDay_listed (now day : ℤ) (hlist : pruning.ledger.Listed expiry pruning.manifest id) :
    (pruning.pruneDay expiry now day).ledger.Listed expiry
      (pruning.pruneDay expiry now day).manifest id := by
  intro record hrec
  obtain ⟨hbefore, hday⟩ := pruneDay_survivor hlist hrec
  obtain ⟨hbucket, hmanifest⟩ := hlist record hbefore
  rw [pruneDay]
  split
  · exact ⟨hbucket, hmanifest⟩
  · rename_i hexp
    have hpruned := pruneRecords_pruned expiry now (pruning.ledger.buckets day) pruning
    refine ⟨KindLedger.mem_deleteBucket.mpr ⟨fun hsame => ?_, hpruned.buckets _ _ hbucket⟩,
      hpruned.manifest _ hmanifest⟩
    exact hexp (hday hsame)

theorem pruneDay_synced (hsynced : ∀ day, day ∈ pruning.ledger.manifest ↔ day ∈ pruning.manifest)
    (found : ℤ) : found ∈ (pruning.pruneDay expiry now day).ledger.manifest ↔
      found ∈ (pruning.pruneDay expiry now day).manifest := by
  rw [pruneDay]
  split
  · exact hsynced found
  · exact (pruneRecords_pruned expiry now _ pruning).synced hsynced found

/-- A prune of one day deletes a record only past its time: the write that retains it keeps it, and
where there is none, the day of its bucket is its own. -/
theorem pruneDay_remains (now day : ℤ)
    (hexact : expiry.keeps = false → pruning.ledger.Exact expiry id)
    (hrec : pruning.ledger.records id = some record) :
    (pruning.pruneDay expiry now day).ledger.records id = some record ∨
      expiry.time record < now - expiry.ttl := by
  rw [pruneDay]
  split
  · exact .inl hrec
  · rename_i hexp
    by_cases hkept : id ∈ pruning.ledger.buckets day → Kept expiry now record
    · exact .inl ((pruneRecords_pruned expiry now _ pruning).remains id record hrec hkept)
    · refine .inr ?_
      obtain ⟨hmem, hnot⟩ := Classical.not_imp.mp hkept
      cases hkeeps : expiry.keeps with
      | true =>
        rw [expiry.sound hkeeps]
        exact lt_of_not_ge fun hle => hnot ⟨hkeeps, hle⟩
      | false =>
        obtain ⟨found, hfound, rfl⟩ := hexact hkeeps day hmem
        obtain rfl : found = record := Option.some.inj (hfound.symm.trans hrec)
        exact expired_of_day (not_le.mp hexp)

theorem pruneDay_exact (hkeeps : expiry.keeps = false) (hexact : pruning.ledger.Exact expiry id) :
    (pruning.pruneDay expiry now day).ledger.Exact expiry id := by
  rw [pruneDay]
  split
  · exact hexact
  · intro found hfound
    have hpruned := pruneRecords_pruned expiry now (pruning.ledger.buckets day) pruning
    obtain ⟨hother, hbucket⟩ := KindLedger.mem_deleteBucket.mp hfound
    rw [hpruned.same hkeeps] at hbucket
    obtain ⟨record, hrec, hday⟩ := hexact found hbucket
    refine ⟨record, hpruned.remains id record hrec fun hmem => ?_, hday⟩
    obtain ⟨same, hsame, rfl⟩ := hexact day hmem
    obtain rfl : same = record := Option.some.inj (hsame.symm.trans hrec)
    exact absurd hday.symm hother

/-! ### Whole prunes -/

variable (days : List ℤ)

theorem pruneDays_synced
    (hsynced : ∀ day, day ∈ pruning.ledger.manifest ↔ day ∈ pruning.manifest) (found : ℤ) :
    found ∈ (days.foldl (pruneDay expiry now) pruning).ledger.manifest ↔
      found ∈ (days.foldl (pruneDay expiry now) pruning).manifest := by
  induction days generalizing pruning with
  | nil => exact hsynced found
  | cons day days ih => exact ih (pruneDay_synced hsynced)

theorem pruneDays_listed (now : ℤ) (days : List ℤ)
    (hlist : pruning.ledger.Listed expiry pruning.manifest id) :
    (days.foldl (pruneDay expiry now) pruning).ledger.Listed expiry
        (days.foldl (pruneDay expiry now) pruning).manifest id ∧
      ∀ record, (days.foldl (pruneDay expiry now) pruning).ledger.records id = some record →
        pruning.ledger.records id = some record ∧
          (dayFor (expiry.time record) ∈ days →
            firstRetainedDay expiry now ≤ dayFor (expiry.time record)) := by
  induction days generalizing pruning with
  | nil => exact ⟨hlist, fun _ hrec => ⟨hrec, fun hmem => absurd hmem not_mem_nil⟩⟩
  | cons day days ih =>
    obtain ⟨hafter, hlater⟩ := ih (pruneDay_listed now day hlist)
    refine ⟨hafter, fun record hrec => ?_⟩
    obtain ⟨hmiddle, hrest⟩ := hlater record hrec
    obtain ⟨hbefore, hfst⟩ := pruneDay_survivor hlist hmiddle
    refine ⟨hbefore, fun hmem => ?_⟩
    rcases mem_cons.mp hmem with hday | hmem
    · rw [hday]
      exact hfst hday
    · exact hrest hmem

theorem pruneDays_remains (hexact : expiry.keeps = false → pruning.ledger.Exact expiry id)
    (hrec : pruning.ledger.records id = some record) :
    (days.foldl (pruneDay expiry now) pruning).ledger.records id = some record ∨
      expiry.time record < now - expiry.ttl := by
  induction days generalizing pruning with
  | nil => exact .inl hrec
  | cons day days ih =>
    rcases pruneDay_remains now day hexact hrec with hstays | hexp
    · exact ih (fun hkeeps => pruneDay_exact hkeeps (hexact hkeeps)) hstays
    · exact .inr hexp

theorem pruneDays_exact (hkeeps : expiry.keeps = false) (hexact : pruning.ledger.Exact expiry id) :
    (days.foldl (pruneDay expiry now) pruning).ledger.Exact expiry id := by
  induction days generalizing pruning with
  | nil => exact hexact
  | cons day days ih => exact ih (pruneDay_exact hkeeps hexact)

end

end Pruning

/-! ## Writes -/

namespace KindLedger

section

variable {Record : Type} {expiry : Expiry Record} {ledger : KindLedger Record}
variable {now timestamp : ℤ} {days : List ℤ} {id other : String} {record : Record}

section

variable (hlist : ledger.Listed expiry ledger.manifest id)

include hlist

theorem Listed.prune (now : ℤ) :
    (ledger.prune expiry now).ledger.Listed expiry (ledger.prune expiry now).manifest id ∧
      ∀ record, (ledger.prune expiry now).ledger.records id = some record →
        ledger.records id = some record ∧ (dayFor (expiry.time record) ∈ ledger.manifest →
          Pruning.firstRetainedDay expiry now ≤ dayFor (expiry.time record)) :=
  let start : Pruning Record := ⟨ledger, ledger.manifest⟩
  have hstart : start.ledger.Listed expiry start.manifest id := hlist
  Pruning.pruneDays_listed now ledger.manifest hstart

theorem Listed.pruned (now : ℤ) :
    (ledger.pruneExpiredBuckets expiry now).1.Listed expiry
      (ledger.pruneExpiredBuckets expiry now).2 id := by
  obtain ⟨hafter, hbefore⟩ := hlist.prune now
  intro record hrec
  obtain ⟨hbucket, hmanifest⟩ := hafter record hrec
  refine ⟨hbucket, mem_sortedDays.mpr (mem_filter.mpr ⟨hmanifest, decide_eq_true ?_⟩)⟩
  obtain ⟨hstored, hretain⟩ := hbefore record hrec
  exact hretain (hlist record hstored).2

theorem Listed.pruned_manifest (now : ℤ) :
    (ledger.pruneExpiredBuckets expiry now).1.Listed expiry
      (ledger.pruneExpiredBuckets expiry now).1.manifest id := by
  obtain ⟨hafter, -⟩ := hlist.prune now
  intro record hrec
  obtain ⟨hbucket, hmanifest⟩ := hafter record hrec
  exact ⟨hbucket, (Pruning.pruneDays_synced _ (fun _ => .rfl) _).mpr hmanifest⟩

theorem Listed.retained
    (hrec : (ledger.pruneExpiredBuckets expiry now).1.records id = some record) :
    ledger.records id = some record ∧ dayFor (now - expiry.ttl) ≤ dayFor (expiry.time record) := by
  obtain ⟨-, hbefore⟩ := hlist.prune now
  obtain ⟨hstored, hretain⟩ := hbefore record hrec
  exact ⟨hstored, hretain (hlist record hstored).2⟩

end

theorem Exact.pruned (hexact : ledger.Exact expiry id) (hkeeps : expiry.keeps = false) (now : ℤ) :
    (ledger.pruneExpiredBuckets expiry now).1.Exact expiry id :=
  Pruning.pruneDays_exact ledger.manifest hkeeps hexact

/-! ### Index entries -/

theorem Listed.mono {next : KindLedger Record} {later : List ℤ}
    (hlist : ledger.Listed expiry days id)
    (hrecs : ∀ record, next.records id = some record → ledger.records id = some record)
    (hbuckets : ∀ day, id ∈ ledger.buckets day → id ∈ next.buckets day)
    (hdays : ∀ day ∈ days, day ∈ later) : next.Listed expiry later id := by
  intro record hrec
  obtain ⟨hbucket, hday⟩ := hlist record (hrecs record hrec)
  exact ⟨hbuckets _ hbucket, hdays _ hday⟩

theorem setRecord_of_ne (hother : other ≠ id) :
    (ledger.setRecord id record).records other = ledger.records other :=
  Function.update_of_ne hother _ _

theorem Listed.setRecord (hlist : ledger.Listed expiry days other) (record : Record)
    (hother : other ≠ id) : (ledger.setRecord id record).Listed expiry days other := by
  refine hlist.mono (fun found hfound => ?_) (fun _ hmem => hmem) fun _ hmem => hmem
  rw [← hfound, setRecord_of_ne hother]

theorem Listed.indexRecord (hlist : ledger.Listed expiry days other) (id : String)
    (timestamp : ℤ) :
    (ledger.indexRecord id timestamp days).Listed expiry
      (ledger.indexRecord id timestamp days).manifest other :=
  hlist.mono (fun _ hrec => hrec) (fun _ hmem => mem_indexRecord.mpr (.inl hmem))
    fun _ hmem => mem_indexRecord_manifest.mpr (.inl hmem)

theorem indexRecord_self (days : List ℤ)
    (htime : ∀ record, ledger.records id = some record →
      dayFor (expiry.time record) = dayFor timestamp) :
    (ledger.indexRecord id timestamp days).Listed expiry
      (ledger.indexRecord id timestamp days).manifest id := by
  intro record hrec
  rw [htime record hrec]
  exact ⟨mem_indexRecord.mpr (.inr ⟨rfl, rfl⟩), mem_indexRecord_manifest.mpr (.inr rfl)⟩

theorem Listed.unindexRecord (hlist : ledger.Listed expiry ledger.manifest other)
    (hother : ∀ record, ledger.records other = some record →
      dayFor (expiry.time record) = dayFor timestamp → other ≠ id) :
    (ledger.unindexRecord id timestamp).Listed expiry
      (ledger.unindexRecord id timestamp).manifest other := by
  intro record hrec
  obtain ⟨hbucket, hday⟩ := hlist record hrec
  have hstays : other ∈ (ledger.unindexRecord id timestamp).buckets
      (dayFor (expiry.time record)) :=
    mem_unindexRecord.mpr ⟨hbucket, fun hsame => hother record hrec hsame.1 hsame.2⟩
  exact ⟨hstays, mem_unindexRecord_manifest hday hstays⟩

theorem Listed.setIndexed (hlist : ledger.Listed expiry days other) (id : String)
    (record : Record) :
    ((ledger.setRecord id record).indexRecord id (expiry.time record) days).Listed expiry
      ((ledger.setRecord id record).indexRecord id (expiry.time record) days).manifest other := by
  by_cases hother : other = id
  · subst hother
    refine indexRecord_self _ fun found hfound => ?_
    rw [show found = record from Option.some.inj (hfound.symm.trans (Function.update_self ..))]
  · exact (hlist.setRecord record hother).indexRecord id _

theorem writeRecord_self :
    (ledger.writeRecord expiry now id record).records id = some record :=
  Function.update_self ..

theorem replaceRecord_listed (hlist : ∀ id, ledger.Listed expiry ledger.manifest id)
    (id other : String) (record : Record) :
    (ledger.replaceRecord expiry now id record).Listed expiry
      (ledger.replaceRecord expiry now id record).manifest other := by
  have hwrote := ((hlist other).pruned now).setIndexed id record
  rw [replaceRecord]
  cases hreplaced : ledger.records id with
  | none => exact hwrote
  | some replaced =>
    dsimp only
    split
    · rename_i hday
      refine hwrote.unindexRecord fun found hfound hsame => ?_
      rintro rfl
      obtain rfl := Option.some.inj (hfound.symm.trans writeRecord_self)
      exact hday hsame.symm
    · exact hwrote

theorem replaceRecord_records :
    (ledger.replaceRecord expiry now id record).records =
      (ledger.writeRecord expiry now id record).records := by
  rw [replaceRecord]
  cases ledger.records id with
  | none => rfl
  | some replaced =>
    dsimp only
    split <;> rfl

theorem mem_replaceRecord {day : ℤ}
    (hmem : other ∈ (ledger.replaceRecord expiry now id record).buckets day) :
    other ∈ (ledger.writeRecord expiry now id record).buckets day ∧
      ∀ replaced, ledger.records id = some replaced → dayFor (expiry.time replaced) = day →
        other = id → dayFor (expiry.time record) = day := by
  rw [replaceRecord] at hmem
  cases hreplaced : ledger.records id with
  | none =>
    rw [hreplaced] at hmem
    exact ⟨hmem, by rintro _ ⟨⟩⟩
  | some replaced =>
    rw [hreplaced] at hmem
    dsimp only at hmem
    split at hmem
    · obtain ⟨hwrote, hleft⟩ := mem_unindexRecord.mp hmem
      refine ⟨hwrote, ?_⟩
      rintro _ ⟨⟩ rfl hother
      exact absurd ⟨rfl, hother⟩ hleft
    · rename_i hday
      refine ⟨hmem, ?_⟩
      rintro _ ⟨⟩ rfl -
      exact (not_not.mp hday).symm

theorem replaceRecord_exact (hexact : ∀ id, ledger.Exact expiry id)
    (hlist : ∀ id, ledger.Listed expiry ledger.manifest id)
    (hkeeps : expiry.keeps = false) (id other : String) (record : Record) :
    (ledger.replaceRecord expiry now id record).Exact expiry other := by
  intro day hmem
  rw [replaceRecord_records]
  obtain ⟨hwrote, hleft⟩ := mem_replaceRecord hmem
  have hpruned := (hexact other).pruned hkeeps now
  rcases mem_indexRecord.mp hwrote with hbefore | ⟨rfl, rfl⟩
  · obtain ⟨found, hfound, hday⟩ := hpruned day hbefore
    by_cases hother : other = id
    · -- The bucket is that of the replaced record, which the write has left.
      subst hother
      have hreplaced := ((hlist other).retained hfound).1
      exact ⟨record, writeRecord_self, hleft found hreplaced hday rfl⟩
    · exact ⟨found, (Function.update_of_ne hother _ _).trans hfound, hday⟩
  · exact ⟨record, writeRecord_self, rfl⟩

/-- What the writes of a kind keep. -/
structure Indexed (expiry : Expiry Record) (replaces : Bool) (ledger : KindLedger Record) :
    Prop where
  listed : ∀ id, ledger.Listed expiry ledger.manifest id
  exact : replaces = true → ∀ id, ledger.Exact expiry id

variable {replaces : Bool}

theorem Indexed.pruned (hindexed : ledger.Indexed expiry replaces)
    (hkeeps : replaces = true → expiry.keeps = false) :
    (ledger.pruneExpiredBuckets expiry now).1.Indexed expiry replaces where
  listed id := (hindexed.listed id).pruned_manifest now
  exact hexact id := (hindexed.exact hexact id).pruned (hkeeps hexact) now

theorem Indexed.writeRecord (hindexed : ledger.Indexed expiry false)
    (id : String) (record : Record) :
    (ledger.writeRecord expiry now id record).Indexed expiry false where
  listed other := ((hindexed.listed other).pruned now).setIndexed id record
  exact hexact := by cases hexact

theorem Indexed.replaceRecord (hindexed : ledger.Indexed expiry replaces)
    (hkeeps : replaces = true → expiry.keeps = false) (id : String) (record : Record) :
    (ledger.replaceRecord expiry now id record).Indexed expiry replaces where
  listed other := replaceRecord_listed hindexed.listed id other record
  exact hexact other := replaceRecord_exact (hindexed.exact hexact) hindexed.listed
    (hkeeps hexact) id other record

variable {changed : Record}

theorem Listed.rewrite (hlist : ledger.Listed expiry days other)
    (hrec : ledger.records id = some record) (htime : expiry.time changed = expiry.time record) :
    (ledger.setRecord id changed).Listed expiry days other := by
  by_cases hother : other = id
  · subst hother
    intro found hfound
    rw [show found = changed from Option.some.inj (hfound.symm.trans (Function.update_self ..)),
      htime]
    exact hlist record hrec
  · exact hlist.setRecord changed hother

theorem Indexed.rewrite (hindexed : ledger.Indexed expiry replaces)
    (hrec : ledger.records id = some record)
    (htime : expiry.time changed = expiry.time record) :
    (ledger.setRecord id changed).Indexed expiry replaces where
  listed other := (hindexed.listed other).rewrite hrec htime
  exact hexact other day hmem := by
    obtain ⟨found, hfound, hday⟩ := hindexed.exact hexact other day hmem
    by_cases hother : other = id
    · subst hother
      obtain rfl : found = record := Option.some.inj (hfound.symm.trans hrec)
      exact ⟨changed, Function.update_self .., htime ▸ hday⟩
    · exact ⟨found, (setRecord_of_ne hother).trans hfound, hday⟩

theorem Listed.unindexRecord_of_ne (hlist : ledger.Listed expiry days other)
    (hother : other ≠ id) : (ledger.unindexRecord id timestamp).Listed expiry days other :=
  hlist.mono (fun _ hrec => hrec)
    (fun _ hmem => mem_unindexRecord.mpr ⟨hmem, fun hsame => hother hsame.2⟩) fun _ hmem => hmem

def Placed (expiry : Expiry Record) (ledger : KindLedger Record) (days : List ℤ) (id : String) :
    Prop :=
  ledger.Listed expiry ledger.manifest id ∧ ledger.Listed expiry days id

theorem Placed.setRecord (hplaced : ledger.Placed expiry days other) (record : Record)
    (hother : other ≠ id) : (ledger.setRecord id record).Placed expiry days other :=
  ⟨hplaced.1.setRecord record hother, hplaced.2.setRecord record hother⟩

theorem Placed.unindexRecord (hplaced : ledger.Placed expiry days other) (hother : other ≠ id) :
    (ledger.unindexRecord id timestamp).Placed expiry days other :=
  ⟨hplaced.1.unindexRecord fun _ _ _ => hother, hplaced.2.unindexRecord_of_ne hother⟩

variable (timestamps : List ℤ)

theorem Placed.unindexRecords (hplaced : ledger.Placed expiry days other) (hother : other ≠ id) :
    (timestamps.foldl (fun ledger timestamp => ledger.unindexRecord id timestamp) ledger).Placed
      expiry days other := by
  induction timestamps generalizing ledger with
  | nil => exact hplaced
  | cons timestamp timestamps ih => exact ih (hplaced.unindexRecord hother)

theorem unindexRecords_records :
    (timestamps.foldl (fun ledger timestamp => ledger.unindexRecord id timestamp)
      ledger).records = ledger.records := by
  induction timestamps generalizing ledger with
  | nil => rfl
  | cons timestamp timestamps ih => exact ih

theorem Placed.deleteRecord (hplaced : ledger.Placed expiry days other) (id : String)
    (timestamp : ℤ) :
    ((ledger.deleteRecord id).unindexRecord id timestamp).Placed expiry days other := by
  by_cases hother : other = id
  · have hnone : ∀ record, Function.update ledger.records id none other ≠ some record := by
      rw [hother, Function.update_self]
      rintro record ⟨⟩
    exact ⟨fun record hrec => absurd hrec (hnone record),
      fun record hrec => absurd hrec (hnone record)⟩
  · have hrecs : ∀ record, (ledger.deleteRecord id).records other = some record →
        ledger.records other = some record := fun record hrec =>
      (Function.update_of_ne hother _ _).symm.trans hrec
    have hdeleted : (ledger.deleteRecord id).Placed expiry days other :=
      ⟨hplaced.1.mono hrecs (fun _ hmem => hmem) fun _ hmem => hmem,
        hplaced.2.mono hrecs (fun _ hmem => hmem) fun _ hmem => hmem⟩
    exact hdeleted.unindexRecord hother

theorem Placed.filter (hplaced : ledger.Placed expiry days other) :
    ledger.Listed expiry (days.filter (· ∈ ledger.manifest)) other := by
  intro record hrec
  refine ⟨(hplaced.1 record hrec).1, mem_filter.mpr ⟨(hplaced.2 record hrec).2, ?_⟩⟩
  exact decide_eq_true (hplaced.1 record hrec).2

theorem prune_records (hrec : (ledger.pruneExpiredBuckets expiry now).1.records id = some record) :
    ledger.records id = some record := by
  have hdays (days : List ℤ) (pruning : Pruning Record)
      (hlast : (days.foldl (Pruning.pruneDay expiry now) pruning).ledger.records id =
        some record) : pruning.ledger.records id = some record := by
    induction days generalizing pruning with
    | nil => exact hlast
    | cons day days ih =>
      have hnext := ih _ hlast
      rw [Pruning.pruneDay] at hnext
      split at hnext
      · exact hnext
      · exact ((Pruning.pruneRecords_pruned expiry now _ pruning).survivor id record hnext).1
  exact hdays ledger.manifest ⟨ledger, ledger.manifest⟩ hrec

theorem moveRecord_listed (hlist : ∀ id, ledger.Listed expiry ledger.manifest id)
    (id other : String) (record : Record) (earlier : ℤ) :
    (ledger.moveRecord expiry now id record earlier).Listed expiry
      (ledger.moveRecord expiry now id record earlier).manifest other := by
  rw [moveRecord]
  by_cases hother : other = id
  · subst hother
    -- The prune may meet the record in its earlier bucket, and changes only whether it is there.
    have hrec : ∀ found, ((ledger.setRecord other record).pruneExpiredBuckets expiry
        now).1.records other = some found → found = record := fun found hfound =>
      Option.some.inj ((prune_records hfound).symm.trans (Function.update_self ..))
    have hindexed := indexRecord_self ((ledger.setRecord other record).pruneExpiredBuckets expiry
      now).2 fun found hfound =>
        congrArg (fun record => dayFor (expiry.time record)) (hrec found hfound)
    split
    · rename_i hday
      refine hindexed.unindexRecord fun found hfound hsame => ?_
      rw [hrec found hfound] at hsame
      exact absurd hsame hday
    · exact hindexed
  · have hpruned : ((ledger.setRecord id record).pruneExpiredBuckets expiry now).1.Listed expiry
        ((ledger.setRecord id record).pruneExpiredBuckets expiry now).2 other :=
      ((hlist other).setRecord record hother).pruned now
    split
    · exact (hpruned.indexRecord id _).unindexRecord fun _ _ _ => hother
    · exact hpruned.indexRecord id _

end

end KindLedger

/-! ## The ledger index

In every run of ledger operations, the manifest lists a bucket of each stored record, and prunes go
by the days of the records. -/

open Retry Outbox

variable {ledger : KindLedger SentTimestampEntry} {days : List ℤ}

/-! ## The kinds -/

def LedgerKind.replaces : LedgerKind → Bool
  | .incoming | .retryRequested | .retryFamily | .retryResend => true
  | .outbox | .sentTimestamp | .deliveryStatus | .receivedTimestamp => false

theorem expiryOf_keeps (kind : LedgerKind) (hreplaces : kind.replaces = true) :
    (expiryOf kind).keeps = false := by
  cases kind with
  | incoming | retryRequested | retryFamily | retryResend => rfl
  | _ => cases hreplaces

namespace LedgerStore

def Indexed (store : LedgerStore) : Prop :=
  ∀ kind, (store kind).Indexed (expiryOf kind) kind.replaces

section

variable {store : LedgerStore} {now : ℤ}

theorem with_self (kind : LedgerKind) (ledger : KindLedger (LedgerRecord kind)) :
    store.with_ kind ledger kind = ledger :=
  Function.update_self ..

theorem with_of_ne {kind other : LedgerKind} (ledger : KindLedger (LedgerRecord kind))
    (hother : other ≠ kind) : store.with_ kind ledger other = store other :=
  Function.update_of_ne hother _ _

section

variable (hindexed : store.Indexed)
  (id : String)

include hindexed

variable {kind : LedgerKind}

theorem Indexed.with_ {ledger : KindLedger (LedgerRecord kind)}
    (hledger : ledger.Indexed (expiryOf kind) kind.replaces) :
    (store.with_ kind ledger).Indexed := by
  intro other
  by_cases hother : other = kind
  · subst hother
    rw [with_self]
    exact hledger
  · rw [with_of_ne ledger hother]
    exact hindexed other

theorem Indexed.pruneKind (kind : LedgerKind) (now : ℤ) : (store.pruneKind kind now).Indexed :=
  hindexed.with_ ((hindexed kind).pruned (expiryOf_keeps kind))

theorem Indexed.replace (kind : LedgerKind) (now : ℤ) (id : String) (record : LedgerRecord kind) :
    (store.with_ kind ((store kind).replaceRecord (expiryOf kind) now id record)).Indexed :=
  hindexed.with_
    ((hindexed kind).replaceRecord (expiryOf_keeps kind) id record)

theorem Indexed.write
    (hkind : kind.replaces = false) (now : ℤ) (id : String) (record : LedgerRecord kind) :
    (store.with_ kind ((store kind).writeRecord (expiryOf kind) now id record)).Indexed := by
  refine hindexed.with_ ?_
  have hledger := hindexed kind
  rw [hkind] at hledger ⊢
  exact hledger.writeRecord id record

theorem Indexed.storeRetryRequest (request : StoredRetryRequest) :
    (store.storeRetryRequest request).Indexed := by
  have hfamily : (if request.target.isSome then store.indexRetryFamily request
      else store).Indexed := by
    split
    · exact hindexed.replace .retryFamily _ _ _
    · exact hindexed
  exact hfamily.replace .retryRequested _ _ _

theorem Indexed.storeRetryResend
    (record : RetryResendRecord) : (store.storeRetryResend id record).Indexed := by
  rw [LedgerStore.storeRetryResend]
  split
  · exact hindexed
  · exact hindexed.replace .retryResend _ _ _

theorem Indexed.updateDeliveryStatus
    (clientMessageId : ClientMessageId) (update : JsonText → JsonText) (now : ℤ) :
    (store.updateDeliveryStatus clientMessageId update now).Indexed := by
  rw [LedgerStore.updateDeliveryStatus]
  cases store.getOutgoingMessageIntent clientMessageId now with
  | none => exact hindexed
  | some intent =>
    dsimp only
    split
    · exact hindexed
    · exact hindexed.write rfl _ _ _

theorem Indexed.rewriteRecord
    (rewrite : Rewrite kind) : (store.rewriteRecord id rewrite).Indexed := by
  rw [LedgerStore.rewriteRecord]
  cases hrec : (store kind).records id with
  | none => exact hindexed
  | some record => exact hindexed.with_ ((hindexed kind).rewrite hrec (rewrite.keepsTime record))

end

/-! ### Send timestamps -/

theorem removeSentTimestampId_placed {other : String} (reservation : SentReservation)
    (hplaced : ledger.Placed (expiryOf .sentTimestamp) days other) :
    (removeSentTimestampId ledger reservation).1.Placed (expiryOf .sentTimestamp) days other := by
  rw [removeSentTimestampId]
  cases hentry : ledger.records (toString reservation.timestamp) with
  | none => exact hplaced
  | some entry =>
    dsimp only
    split
    · exact hplaced
    · split
      · exact ⟨hplaced.1.rewrite hentry rfl, hplaced.2.rewrite hentry rfl⟩
      · exact hplaced.deleteRecord _ _

theorem removeEarlierReservation_placed {other : String} (earlier : Option SentReservation)
    (hplaced : ledger.Placed (expiryOf .sentTimestamp) days other) :
    (removeEarlierReservation ledger earlier).1.Placed (expiryOf .sentTimestamp) days other := by
  cases earlier with
  | none => exact hplaced
  | some reservation => exact removeSentTimestampId_placed reservation hplaced

theorem Indexed.releaseSendTimestamp (hindexed : store.Indexed) (reservation : SentReservation)
    (now : ℤ) : (store.releaseSendTimestamp reservation now).Indexed := by
  rw [LedgerStore.releaseSendTimestamp]
  split
  · exact hindexed
  · refine hindexed.with_ ⟨fun id => ?_, fun hexact => by cases hexact⟩
    have hlist := (hindexed .sentTimestamp).listed id
    exact (removeSentTimestampId_placed reservation ⟨hlist, hlist⟩).1

theorem Indexed.reserveSendTimestamp (hindexed : store.Indexed) (clientMessageId : ClientMessageId)
    (timestamp : ℤ) (earlier : Option SentReservation) (orphans : List ℤ) (now : ℤ) :
    (store.reserveSendTimestamp clientMessageId timestamp earlier orphans now).Indexed := by
  refine hindexed.with_ ⟨fun other => ?_, fun hexact => by cases hexact⟩
  by_cases hother : other = toString timestamp
  · subst hother
    refine KindLedger.indexRecord_self _ fun entry hentry => ?_
    rw [KindLedger.unindexRecords_records] at hentry
    rw [show entry = ⟨[clientMessageId], now⟩ from
      Option.some.inj (hentry.symm.trans (Function.update_self ..))]
    rfl
  · refine KindLedger.Listed.indexRecord ?_ _ _
    have hlist := (hindexed .sentTimestamp).listed other
    have hrem := removeEarlierReservation_placed earlier
      ⟨hlist.pruned_manifest now, hlist.pruned now⟩
    have hunindexed :=
      (hrem.setRecord ⟨[clientMessageId], now⟩ hother).unindexRecords orphans hother
    split
    · exact hunindexed.filter
    · exact hunindexed.2

/-! ### Intents -/

theorem Indexed.storeOutgoingMessageIntent (hindexed : store.Indexed) (intent : TimestampedIntent)
    (ownsPending : Bool) (now : ℤ) :
    (store.storeOutgoingMessageIntent intent ownsPending now).Indexed := by
  have hpruned : (store.pruneKind .outbox now).Indexed := hindexed.pruneKind .outbox now
  have hsent (sent : TimestampedIntent) :
      ((store.pruneKind .outbox now).indexSentTimestamp sent now).Indexed :=
    hpruned.write rfl _ _ _
  have hlist (other : String) := ((hindexed .outbox).listed other).pruned now
  have houtbox (sent : TimestampedIntent) :
      (store.pruneKind .outbox now).indexSentTimestamp sent now .outbox =
        ((store .outbox).pruneExpiredBuckets (expiryOf .outbox) now).1 := by
    rw [LedgerStore.indexSentTimestamp, with_of_ne _ (by rintro ⟨⟩), LedgerStore.pruneKind,
      with_self]
  rw [LedgerStore.storeOutgoingMessageIntent]
  cases (store.pruneKind .outbox now).getOutgoingMessageIntent intent.clientMessageId now with
  | some existing =>
    dsimp only
    split
    · exact hpruned
    · refine (hsent existing).with_ ⟨fun other => ?_, fun hexact => by cases hexact⟩
      rw [houtbox]
      exact (hlist other).indexRecord _ _
  | none =>
    dsimp only
    split
    · exact hpruned.pruneKind .sentTimestamp now
    · refine (hsent intent).with_ ⟨fun other => ?_, fun hexact => by cases hexact⟩
      rw [houtbox]
      exact (hlist other).setIndexed _ { intent }

theorem Indexed.addOutgoingManualResend (hindexed : store.Indexed)
    (clientMessageId : ClientMessageId) (createdAt now : ℤ) :
    (store.addOutgoingManualResend clientMessageId createdAt now).Indexed := by
  rw [LedgerStore.addOutgoingManualResend]
  cases hexist : (store .outbox).records clientMessageId with
  | none => exact hindexed
  | some existing =>
    refine hindexed.with_ ⟨fun other => ?_, fun hexact => by cases hexact⟩
    exact KindLedger.moveRecord_listed (hindexed .outbox).listed _ other
      _ _

theorem Indexed.after (hindexed : store.Indexed) (now : ℤ) (operation : LedgerOperation) :
    (store.after now operation).Indexed := by
  cases operation with
  | storeRetryRequest request => exact hindexed.storeRetryRequest request
  | storeRetryResend id record => exact hindexed.storeRetryResend id record
  | writeProcessedEnvelope write => exact hindexed.replace .incoming _ _ _
  | recordReceivedTimestamp id => exact hindexed.write rfl _ _ _
  | updateDeliveryStatus clientMessageId update =>
    exact hindexed.updateDeliveryStatus clientMessageId update now
  | storeOutgoingMessageIntent intent ownsPending =>
    exact hindexed.storeOutgoingMessageIntent intent ownsPending now
  | addOutgoingManualResend clientMessageId createdAt =>
    exact hindexed.addOutgoingManualResend clientMessageId createdAt now
  | reserveSendTimestamp clientMessageId timestamp earlier orphans =>
    exact hindexed.reserveSendTimestamp clientMessageId timestamp earlier orphans now
  | releaseSendTimestamp reservation => exact hindexed.releaseSendTimestamp reservation now
  | rewrite kind id rewrite => exact hindexed.rewriteRecord id rewrite
  | prune kind => exact hindexed.pruneKind kind now

theorem indexed_empty : emptyLedger.Indexed := by
  intro kind
  refine ⟨fun id => ?_, fun _ id => ?_⟩
  · rintro _ ⟨⟩
  · rintro _ ⟨⟩

theorem Indexed.run (hindexed : store.Indexed) (operations : List (ℤ × LedgerOperation)) :
    (store.run operations).Indexed := by
  induction operations generalizing store with
  | nil => exact hindexed
  | cons operation operations ih => exact ih (hindexed.after operation.1 operation.2)

end

end LedgerStore

/-- The kinds whose prunes go by the times of the records: those of exact buckets, and that whose
prunes keep the retained records. -/
def LedgerKind.prunesByTime (kind : LedgerKind) : Bool :=
  kind.replaces || (expiryOf kind).keeps

namespace LedgerStore

/-- After every run of ledger operations, the bucket of a listed day holds each stored record. -/
theorem ledger_index_complete (operations : List (ℤ × LedgerOperation)) (kind : LedgerKind)
    (id : String) :
    (∀ record, (emptyLedger.run operations kind).records id = some record →
      ∃ day ∈ (emptyLedger.run operations kind).manifest,
        id ∈ (emptyLedger.run operations kind).buckets day) ∧
    (kind.prunesByTime = true → ∀ ledger now record,
      (ledger = emptyLedger.run operations kind ∨ kind = .outbox) →
      ledger.records id = some record →
      (ledger.pruneExpiredBuckets (expiryOf kind) now).1.records id = none →
        (expiryOf kind).time record < now - (expiryOf kind).ttl) ∧
    ∀ now record,
      ((emptyLedger.run operations kind).pruneExpiredBuckets (expiryOf kind) now).1.records id =
        some record →
      dayFor (now - (expiryOf kind).ttl) ≤ dayFor ((expiryOf kind).time record) := by
  have hindexed := indexed_empty.run operations
  refine ⟨fun record hrecord => ?_, fun hkind ledger now record hledger hrecord hnone => ?_,
    fun now record hrecord => ?_⟩
  · obtain ⟨hbucket, hday⟩ := (hindexed kind).listed id record hrecord
    exact ⟨_, hday, hbucket⟩
  · have hexact : (expiryOf kind).keeps = false → ledger.Exact (expiryOf kind) id := by
      intro hkeeps
      rw [LedgerKind.prunesByTime, hkeeps, Bool.or_false] at hkind
      rcases hledger with rfl | rfl
      · exact (hindexed kind).exact hkind id
      · cases hkeeps
    let start : Pruning (LedgerRecord kind) := ⟨ledger, ledger.manifest⟩
    have hstart : start.ledger.records id = some record := hrecord
    rcases Pruning.pruneDays_remains ledger.manifest hexact hstart with hstays | hexpired
    · cases hnone.symm.trans hstays
    · exact hexpired
  · exact (((hindexed kind).listed id).retained hrecord).2

end LedgerStore

def processedOperations : List (ℤ × LedgerOperation) :=
  [(1, .writeProcessedEnvelope { envelopeId := "envelope" })]

def answeredOperations : List (ℤ × LedgerOperation) :=
  [(0, .storeRetryRequest
      { failedEnvelopeId := "envelope", retryId := "retry", attempt := 1, requestedAt := 0 }),
    (59 * DAY_MS, .rewrite .retryRequested "envelope" LedgerStore.answered)]

/-- The second run writes its record again 59 days after its request. -/
theorem ledger_index_complete_processed :
    (∃ day ∈ (emptyLedger.run processedOperations .incoming).manifest,
      "envelope" ∈ (emptyLedger.run processedOperations .incoming).buckets day) ∧
      (1 : ℤ) < 31 * DAY_MS - RELIABILITY_RECORD_TTL_MS :=
  ⟨(LedgerStore.ledger_index_complete processedOperations .incoming "envelope").1
      { processedAt := 1 } rfl,
    (LedgerStore.ledger_index_complete processedOperations .incoming "envelope").2.1 rfl _
      (31 * DAY_MS) { processedAt := 1 } (.inl rfl) rfl rfl⟩

/-- A prune goes by days, so a record outlives its time within a day. -/
theorem prune_goes_by_days :
    (1 : ℤ) < RELIABILITY_RECORD_TTL_MS + 2 - RELIABILITY_RECORD_TTL_MS ∧
      ((emptyLedger.run processedOperations).pruneKind .incoming (RELIABILITY_RECORD_TTL_MS + 2)
        .incoming).records "envelope" = some { processedAt := 1 } ∧
      ((emptyLedger.run answeredOperations) .retryRequested).records "envelope" ≠ none ∧
      ((emptyLedger.run answeredOperations).pruneKind .retryRequested (61 * DAY_MS)
        .retryRequested).records "envelope" = none := by
  refine ⟨by decide, by decide, by decide, by decide⟩

end SignalProtocol.Ledger

import SignalProtocol.Groups.SdkStore

/-! # The group index is complete

Each metadata call for a group leaves the records and the index entries of the others. -/

namespace SignalProtocol.Groups.SdkStore

open List Option

variable {metadata : Metadata} {store : Instance} {groupId other : String} {point : Point}
  {events : List Event} {seen : Option (List String)}

section Updates

variable (metadata : Metadata) (store : Instance) (groupId : String) (indexed : Bool)
  (record : Option StoredGroupRecord)

@[simp] theorem setRecord_records :
    (metadata.setRecord groupId record).records groupId = record :=
  Function.update_self ..

@[simp] theorem deleteV1_v1Records : (metadata.deleteV1 groupId).v1Records groupId = none :=
  Function.update_self ..

@[simp] theorem logMigration_migrations (record : StoredGroupRecord) :
    (metadata.logMigration groupId record).migrations groupId =
      metadata.migrations groupId ++ [record] :=
  Function.update_self ..

@[simp] theorem setIndex_ids (ids : List String) : (metadata.setIndex ids).ids = ids := rfl

variable (point : Option Point)

@[simp] theorem setPoint_points :
    (store.setPoint groupId point).points groupId = point :=
  Function.update_self ..

@[simp] theorem setIndexed_indexed : (store.setIndexed groupId indexed).indexed groupId = indexed :=
  Function.update_self ..

end Updates

structure SameMetadata (groupId : String) (before after : Metadata) : Prop where
  records : after.records groupId = before.records groupId
  v1Records : after.v1Records groupId = before.v1Records groupId
  migrations : after.migrations groupId = before.migrations groupId
  ids : groupId ∈ after.ids ↔ groupId ∈ before.ids

structure SameInstance (groupId : String) (before after : Instance) : Prop where
  indexed : after.indexed groupId = before.indexed groupId
  migrated : after.migrated groupId = before.migrated groupId
  points : after.points groupId = before.points groupId

section Other

variable (hother : other ≠ groupId)
include hother

theorem sameMetadata_setRecord (record : Option StoredGroupRecord) :
    SameMetadata other metadata (metadata.setRecord groupId record) :=
  ⟨Function.update_of_ne hother .., rfl, rfl, Iff.rfl⟩

theorem sameMetadata_deleteV1 : SameMetadata other metadata (metadata.deleteV1 groupId) :=
  ⟨rfl, Function.update_of_ne hother .., rfl, Iff.rfl⟩

theorem sameMetadata_logMigration (record : StoredGroupRecord) :
    SameMetadata other metadata
      ((metadata.setRecord groupId (some record)).logMigration groupId record) :=
  ⟨Function.update_of_ne hother .., rfl, Function.update_of_ne hother .., Iff.rfl⟩

theorem sameMetadata_append (hseen : metadata.index = seen) :
    SameMetadata other metadata (metadata.setIndex (seen.getD [] ++ [groupId])) := by
  refine ⟨rfl, rfl, rfl, ?_⟩
  rw [setIndex_ids, Metadata.ids, hseen, mem_append, mem_singleton]
  exact or_iff_left hother

theorem sameMetadata_filter (hseen : metadata.index = seen) :
    SameMetadata other metadata (metadata.setIndex ((seen.getD []).filter (· ≠ groupId))) := by
  refine ⟨rfl, rfl, rfl, ?_⟩
  rw [setIndex_ids, Metadata.ids, hseen, mem_filter, decide_eq_true_iff]
  exact and_iff_left hother

variable (point : Option Point)

theorem sameInstance_setPoint :
    SameInstance other store (store.setPoint groupId point) :=
  ⟨rfl, rfl, Function.update_of_ne hother ..⟩

theorem sameInstance_setIndexed (indexed : Bool) (point : Option Point) :
    SameInstance other store ((store.setIndexed groupId indexed).setPoint groupId point) :=
  ⟨Function.update_of_ne hother .., rfl, Function.update_of_ne hother ..⟩

theorem sameInstance_setMigrated :
    SameInstance other store ((store.setMigrated groupId).setPoint groupId point) :=
  ⟨rfl, Function.update_of_ne hother .., Function.update_of_ne hother ..⟩

theorem stepWrite_other (stage : WriteStage) (record : StoredGroupRecord)
    (migrating : Option Operation) :
    SameMetadata other metadata (stepWrite metadata store groupId stage record migrating).1 ∧
      SameInstance other store (stepWrite metadata store groupId stage record migrating).2 := by
  cases stage with
  | index =>
    rw [stepWrite]
    split
    · exact ⟨⟨rfl, rfl, rfl, Iff.rfl⟩, sameInstance_setPoint hother _⟩
    · split
      · exact ⟨⟨rfl, rfl, rfl, Iff.rfl⟩, sameInstance_setIndexed hother _ _⟩
      · exact ⟨⟨rfl, rfl, rfl, Iff.rfl⟩, sameInstance_setPoint hother _⟩
  | swap seen =>
    rw [stepWrite]
    split
    · next hseen =>
      exact ⟨sameMetadata_append hother hseen, sameInstance_setIndexed hother _ _⟩
    · exact ⟨⟨rfl, rfl, rfl, Iff.rfl⟩, sameInstance_setPoint hother _⟩
  | record =>
    cases migrating with
    | none => exact ⟨sameMetadata_setRecord hother _, sameInstance_setPoint hother _⟩
    | some operation =>
      exact ⟨sameMetadata_logMigration hother _, sameInstance_setPoint hother _⟩

theorem stepRemove_other (stage : RemoveStage) :
    SameMetadata other metadata (stepRemove metadata store groupId stage).1 ∧
      SameInstance other store (stepRemove metadata store groupId stage).2 := by
  cases stage with
  | v1Record => exact ⟨sameMetadata_deleteV1 hother, sameInstance_setPoint hother _⟩
  | record => exact ⟨sameMetadata_setRecord hother _, sameInstance_setPoint hother _⟩
  | index =>
    rw [stepRemove]
    split
    · exact ⟨⟨rfl, rfl, rfl, Iff.rfl⟩, sameInstance_setPoint hother _⟩
    · exact ⟨⟨rfl, rfl, rfl, Iff.rfl⟩, sameInstance_setIndexed hother _ _⟩
  | swap seen =>
    rw [stepRemove]
    split
    · next hseen =>
      exact ⟨sameMetadata_filter hother hseen, sameInstance_setIndexed hother _ _⟩
    · exact ⟨⟨rfl, rfl, rfl, Iff.rfl⟩, sameInstance_setPoint hother _⟩

theorem stepPoint_other (point : Point) :
    SameMetadata other metadata (stepPoint metadata store groupId point).1 ∧
      SameInstance other store (stepPoint metadata store groupId point).2 := by
  cases point with
  | load operation =>
    rw [stepPoint]
    split
    · exact ⟨⟨rfl, rfl, rfl, Iff.rfl⟩, sameInstance_setPoint hother _⟩
    · split
      · exact ⟨⟨rfl, rfl, rfl, Iff.rfl⟩, sameInstance_setPoint hother _⟩
      · exact ⟨⟨rfl, rfl, rfl, Iff.rfl⟩, sameInstance_setPoint hother _⟩
  | clearV1 found operation =>
    exact ⟨sameMetadata_deleteV1 hother, sameInstance_setMigrated hother _⟩
  | loadV1 operation =>
    rw [stepPoint]
    split
    · exact ⟨⟨rfl, rfl, rfl, Iff.rfl⟩, sameInstance_setPoint hother _⟩
    · exact ⟨⟨rfl, rfl, rfl, Iff.rfl⟩, sameInstance_setPoint hother _⟩
  | write stage record migrating => exact stepWrite_other hother stage record migrating
  | deleteV1 migrated operation =>
    exact ⟨sameMetadata_deleteV1 hother, sameInstance_setMigrated hother _⟩
  | remove stage => exact stepRemove_other hother stage

end Other

/-! ## One instance at a time -/

def PointInv (metadata : Metadata) (groupId : String) : Point → Prop
  | .load _ => True
  | .clearV1 found _ => metadata.records groupId = some found
  | .loadV1 _ => metadata.records groupId = none
  | .write stage record migrating =>
    (stage = .record → groupId ∈ metadata.ids) ∧
      match migrating with
      | none => metadata.v1Records groupId = none
      | some _ => metadata.records groupId = none ∧
          ∃ legacy, metadata.v1Records groupId = some legacy ∧ record = migrateV1Record legacy
  | .deleteV1 migrated _ => metadata.records groupId = some migrated
  | .remove stage => metadata.v1Records groupId = none ∧
      (stage ≠ .v1Record → stage ≠ .record → metadata.records groupId = none)

/-- A version 1 record waits for its migration, or was migrated once and is not read again. -/
def Migrates (legacy : StoredGroupRecordV1) (metadata : Metadata) (groupId : String) : Prop :=
  (metadata.v1Records groupId = some legacy ∧ metadata.records groupId = none ∧
    metadata.migrations groupId = []) ∨
  (metadata.migrations groupId = [migrateV1Record legacy] ∧
    (metadata.v1Records groupId ≠ none → metadata.records groupId ≠ none))

structure LocalInv (metadata : Metadata) (store : Instance) (groupId : String) : Prop where
  listed : metadata.records groupId ≠ none → groupId ∈ metadata.ids
  indexed : store.indexed groupId = true → groupId ∈ metadata.ids
  migrated : store.migrated groupId = true → metadata.v1Records groupId = none
  point : ∀ point, store.points groupId = some point → PointInv metadata groupId point

structure Keeps (metadata after : Metadata) (next : Instance) (groupId : String) : Prop where
  inv : LocalInv after next groupId
  v1Records : metadata.v1Records groupId = none → after.v1Records groupId = none
  migrates : ∀ legacy, Migrates legacy metadata groupId → Migrates legacy after groupId

theorem pointInv_afterLoad {operation : Operation} {current : Option StoredGroupRecord}
    (hgone : metadata.v1Records groupId = none)
    (hpoint : afterLoad operation current = some point) : PointInv metadata groupId point := by
  have hwrite (record : StoredGroupRecord) :
      PointInv metadata groupId (.write .index record none) := by
    refine ⟨?_, hgone⟩
    rintro ⟨⟩
  cases operation with
  | read => cases hpoint
  | update apply =>
    rw [← Option.some.inj hpoint]
    exact hwrite _
  | updateGroupReceiveRecord apply =>
    rw [afterLoad] at hpoint
    split at hpoint
    · split at hpoint
      · rw [← Option.some.inj hpoint]
        exact ⟨hgone, fun hfst => absurd rfl hfst⟩
      · cases hpoint
    · rw [← Option.some.inj hpoint]
      exact hwrite _

section

variable (hinv : LocalInv metadata store groupId)

include hinv

theorem LocalInv.keeps_setPoint {point : Option Point}
    (hpoint : ∀ next, point = some next → PointInv metadata groupId next) :
    Keeps metadata metadata (store.setPoint groupId point) groupId := by
  refine ⟨⟨hinv.listed, hinv.indexed, hinv.migrated, ?_⟩, id, fun _ => id⟩
  intro next hnext
  rw [setPoint_points] at hnext
  exact hpoint next hnext

theorem LocalInv.keeps_deleteV1
    (hstored : metadata.records groupId ≠ none ∨ metadata.v1Records groupId = none)
    {next : Instance} (hindexed : next.indexed groupId = store.indexed groupId)
    (hpoint : ∀ point, next.points groupId = some point →
      PointInv (metadata.deleteV1 groupId) groupId point) :
    Keeps metadata (metadata.deleteV1 groupId) next groupId := by
  refine ⟨⟨hinv.listed, ?_, fun _ => deleteV1_v1Records _ _, hpoint⟩,
    fun _ => deleteV1_v1Records _ _, ?_⟩
  · intro hcached
    rw [hindexed] at hcached
    exact hinv.indexed hcached
  · rintro legacy (⟨hwaits, hnone, -⟩ | ⟨hmigrated, -⟩)
    · obtain hfound | hgone := hstored
      · exact absurd hnone hfound
      · rw [hgone] at hwaits
        cases hwaits
    · exact Or.inr ⟨hmigrated, fun hthere => absurd (deleteV1_v1Records _ _) hthere⟩

theorem stepWrite_keeps {stage : WriteStage}
    {record : StoredGroupRecord} {migrating : Option Operation}
    (hpoint : PointInv metadata groupId (.write stage record migrating)) :
    Keeps metadata (stepWrite metadata store groupId stage record migrating).1
      (stepWrite metadata store groupId stage record migrating).2 groupId := by
  obtain ⟨hlist, hrec⟩ := hpoint
  have hnext {stage : WriteStage} (hstage : stage = .record → groupId ∈ metadata.ids) :
      ∀ next, some (Point.write stage record migrating) = some next →
        PointInv metadata groupId next := by
    rintro next ⟨⟩
    exact ⟨hstage, hrec⟩
  cases stage with
  | index =>
    rw [stepWrite]
    split
    · next hcached => exact hinv.keeps_setPoint (hnext fun _ => hinv.indexed hcached)
    · split
      · next hthere =>
        refine ⟨⟨hinv.listed, fun _ => hthere, hinv.migrated, ?_⟩, id, fun _ => id⟩
        intro next hpoint
        rw [setPoint_points] at hpoint
        exact hnext (fun _ => hthere) next hpoint
      · refine hinv.keeps_setPoint (hnext ?_)
        rintro ⟨⟩
  | swap seen =>
    rw [stepWrite]
    split
    · have hthere : groupId ∈ (metadata.setIndex (seen.getD [] ++ [groupId])).ids :=
        mem_append_right _ mem_cons_self
      refine ⟨⟨fun _ => hthere, fun _ => hthere, hinv.migrated, ?_⟩, id, fun _ => id⟩
      intro next hpoint
      rw [setPoint_points] at hpoint
      rw [← Option.some.inj hpoint]
      exact ⟨fun _ => hthere, hrec⟩
    · refine hinv.keeps_setPoint (hnext ?_)
      rintro ⟨⟩
  | record =>
    have hthere := hlist rfl
    cases migrating with
    | none =>
      refine ⟨⟨fun _ => hthere, hinv.indexed, hinv.migrated, ?_⟩, id, ?_⟩
      · intro next hpoint
        change (store.setPoint groupId none).points groupId = _ at hpoint
        rw [setPoint_points] at hpoint
        cases hpoint
      · rintro legacy (⟨hwaits, -, -⟩ | ⟨hmigrated, -⟩)
        · rw [hrec] at hwaits
          cases hwaits
        · refine Or.inr ⟨hmigrated, fun _ => ?_⟩
          change (metadata.setRecord groupId (some record)).records groupId ≠ none
          rw [setRecord_records]
          exact some_ne_none record
    | some operation =>
      obtain ⟨hnone, legacy, hwaits, rfl⟩ := hrec
      have hstored : ((metadata.setRecord groupId (some (migrateV1Record legacy))).logMigration
          groupId (migrateV1Record legacy)).records groupId = some (migrateV1Record legacy) :=
        setRecord_records metadata groupId _
      refine ⟨⟨fun _ => hthere, hinv.indexed, hinv.migrated, ?_⟩, id, ?_⟩
      · intro next hpoint
        change (store.setPoint groupId _).points groupId = _ at hpoint
        rw [setPoint_points] at hpoint
        rw [← Option.some.inj hpoint]
        exact hstored
      · rintro other (⟨hfst, -, hmigrations⟩ | ⟨-, hthen⟩)
        · obtain rfl := Option.some.inj (hwaits.symm.trans hfst)
          refine Or.inr ⟨?_, fun _ => ?_⟩
          · change (Metadata.logMigration _ groupId _).migrations groupId = _
            rw [logMigration_migrations]
            change metadata.migrations groupId ++ _ = _
            rw [hmigrations, nil_append]
          · change ((metadata.setRecord groupId (some _)).logMigration groupId _).records
              groupId ≠ none
            rw [hstored]
            exact some_ne_none _
        · refine absurd hnone (hthen ?_)
          rw [hwaits]
          exact some_ne_none legacy

theorem stepRemove_keeps {stage : RemoveStage}
    (hpoint : PointInv metadata groupId (.remove stage)) :
    Keeps metadata (stepRemove metadata store groupId stage).1
      (stepRemove metadata store groupId stage).2 groupId := by
  obtain ⟨hgone, hrec⟩ := hpoint
  cases stage with
  | v1Record =>
    refine hinv.keeps_deleteV1 (Or.inr hgone) rfl ?_
    intro point hpoint
    change (store.setPoint groupId _).points groupId = _ at hpoint
    rw [setPoint_points] at hpoint
    rw [← Option.some.inj hpoint]
    exact ⟨deleteV1_v1Records _ _, fun _ hstage => absurd rfl hstage⟩
  | record =>
    refine ⟨⟨?_, hinv.indexed, hinv.migrated, ?_⟩, id, ?_⟩
    · exact fun hstored => absurd (setRecord_records _ _ _) hstored
    · intro point hpoint
      change (store.setPoint groupId _).points groupId = _ at hpoint
      rw [setPoint_points] at hpoint
      rw [← Option.some.inj hpoint]
      exact ⟨hgone, fun _ _ => setRecord_records _ _ _⟩
    · rintro legacy (⟨hwaits, -, -⟩ | ⟨hmigrated, -⟩)
      · rw [hgone] at hwaits
        cases hwaits
      · exact Or.inr ⟨hmigrated, fun hthere => absurd hgone hthere⟩
  | index =>
    have hnone : metadata.records groupId = none :=
      hrec (by rintro ⟨⟩) (by rintro ⟨⟩)
    rw [stepRemove]
    split
    · refine hinv.keeps_setPoint ?_
      rintro next ⟨⟩
      exact ⟨hgone, fun _ _ => hnone⟩
    · refine ⟨⟨hinv.listed, ?_, hinv.migrated, ?_⟩, id, fun _ => id⟩
      · intro hcached
        change (store.setIndexed groupId false).indexed groupId = true at hcached
        rw [setIndexed_indexed] at hcached
        cases hcached
      · intro point hpoint
        rw [setPoint_points] at hpoint
        cases hpoint
  | swap seen =>
    have hnone : metadata.records groupId = none :=
      hrec (by rintro ⟨⟩) (by rintro ⟨⟩)
    rw [stepRemove]
    split
    · refine ⟨⟨fun hstored => absurd hnone hstored, ?_, hinv.migrated, ?_⟩, id, fun _ => id⟩
      · intro hcached
        change (store.setIndexed groupId false).indexed groupId = true at hcached
        rw [setIndexed_indexed] at hcached
        cases hcached
      · intro point hpoint
        rw [setPoint_points] at hpoint
        cases hpoint
    · refine hinv.keeps_setPoint ?_
      rintro next ⟨⟩
      exact ⟨hgone, fun _ _ => hnone⟩

theorem stepPoint_keeps (hpoint : PointInv metadata groupId point) :
    Keeps metadata (stepPoint metadata store groupId point).1
      (stepPoint metadata store groupId point).2 groupId := by
  cases point with
  | load operation =>
    rw [stepPoint]
    split
    · next hnone =>
      refine hinv.keeps_setPoint ?_
      rintro next ⟨⟩
      exact hnone
    · next found hfound =>
      split
      · next hcached =>
        exact hinv.keeps_setPoint fun _ => pointInv_afterLoad (hinv.migrated hcached)
      · refine hinv.keeps_setPoint ?_
        rintro next ⟨⟩
        exact hfound
  | clearV1 found operation =>
    have hstored : metadata.records groupId ≠ none := by
      rw [show metadata.records groupId = some found from hpoint]
      exact some_ne_none found
    refine hinv.keeps_deleteV1 (Or.inl hstored) rfl fun next hnext => ?_
    change ((store.setMigrated groupId).setPoint groupId _).points groupId = _ at hnext
    rw [setPoint_points] at hnext
    exact pointInv_afterLoad (deleteV1_v1Records _ _) hnext
  | loadV1 operation =>
    rw [stepPoint]
    split
    · next hgone => exact hinv.keeps_setPoint fun _ => pointInv_afterLoad hgone
    · next legacy hwaits =>
      refine hinv.keeps_setPoint ?_
      rintro next ⟨⟩
      refine ⟨?_, hpoint, legacy, hwaits, rfl⟩
      rintro ⟨⟩
  | write stage record migrating => exact stepWrite_keeps hinv hpoint
  | deleteV1 migrated operation =>
    have hstored : metadata.records groupId ≠ none := by
      rw [show metadata.records groupId = some migrated from hpoint]
      exact some_ne_none migrated
    refine hinv.keeps_deleteV1 (Or.inl hstored) rfl fun next hnext => ?_
    change ((store.setMigrated groupId).setPoint groupId _).points groupId = _ at hnext
    rw [setPoint_points] at hnext
    exact pointInv_afterLoad (deleteV1_v1Records _ _) hnext
  | remove stage => exact stepRemove_keeps hinv hpoint

end

/-! ## Runs -/

/-- Every instance has what `LocalInv` says of a group, and one of them at most holds the group. -/
structure GroupInv (world : World) (groupId : String) : Prop where
  locals : ∀ store, LocalInv world.metadata (world.instances store) groupId
  exclusive : ∀ first second, world.Holds first groupId → world.Holds second groupId →
    first = second

variable {after : Metadata}

theorem LocalInv.of_not_holds (hinv : LocalInv metadata store groupId)
    (hindexed : ¬ store.indexed groupId = true) (hpoint : store.points groupId = none)
    (hlist : after.records groupId ≠ none → groupId ∈ after.ids)
    (hgone : metadata.v1Records groupId = none → after.v1Records groupId = none) :
    LocalInv after store groupId := by
  refine ⟨hlist, fun hcached => absurd hcached hindexed, fun hcached =>
    hgone (hinv.migrated hcached), ?_⟩
  intro point hthere
  rw [hpoint] at hthere
  cases hthere

theorem pointInv_same (hsame : SameMetadata groupId metadata after)
    (hpoint : PointInv metadata groupId point) : PointInv after groupId point := by
  cases point with
  | load operation => trivial
  | clearV1 found operation => exact hsame.records.trans hpoint
  | loadV1 operation => exact hsame.records.trans hpoint
  | write stage record migrating =>
    refine ⟨fun hstage => hsame.ids.mpr (hpoint.1 hstage), ?_⟩
    cases migrating with
    | none => exact hsame.v1Records.trans hpoint.2
    | some operation =>
      obtain ⟨hnone, legacy, hwaits, hrec⟩ := hpoint.2
      exact ⟨hsame.records.trans hnone, legacy, hsame.v1Records.trans hwaits, hrec⟩
  | deleteV1 migrated operation => exact hsame.records.trans hpoint
  | remove stage =>
    exact ⟨hsame.v1Records.trans hpoint.1, fun hfst hsnd =>
      hsame.records.trans (hpoint.2 hfst hsnd)⟩

theorem LocalInv.same {next : Instance}
    (hinv : LocalInv metadata store groupId) (hmetadata : SameMetadata groupId metadata after)
    (hstore : SameInstance groupId store next) : LocalInv after next groupId := by
  refine ⟨?_, ?_, ?_, ?_⟩
  · rw [hmetadata.records, hmetadata.ids]
    exact hinv.listed
  · rw [hstore.indexed, hmetadata.ids]
    exact hinv.indexed
  · rw [hstore.migrated, hmetadata.v1Records]
    exact hinv.migrated
  · rw [hstore.points]
    exact fun point hpoint => pointInv_same hmetadata (hinv.point point hpoint)

variable {world : World} {event : Event} {legacy : StoredGroupRecordV1}

structure StepKeeps (world : World) (event : Event) (groupId : String) : Prop where
  inv : GroupInv (world.apply event) groupId
  migrates : ∀ legacy, Migrates legacy world.metadata groupId →
    Migrates legacy (world.apply event).metadata groupId

theorem not_holds_iff {store : ℕ} : ¬ world.Holds store groupId ↔
    ¬ (world.instances store).indexed groupId = true ∧
      (world.instances store).points groupId = none := by
  rw [World.Holds, not_or]
  cases (world.instances store).points groupId <;> simp

theorem setStore_self (store : ℕ) (next : Metadata × Instance) :
    (world.setStore store next).instances store = next.2 :=
  Function.update_self ..

theorem setStore_of_ne {first store : ℕ} (hne : first ≠ store) (next : Metadata × Instance) :
    (world.setStore store next).instances first = world.instances first :=
  Function.update_of_ne hne ..

section

variable (hinv : GroupInv world groupId)

include hinv

theorem StepKeeps.of_same
    (hmetadata : SameMetadata groupId world.metadata (world.apply event).metadata)
    (hstores : ∀ store, SameInstance groupId (world.instances store)
      ((world.apply event).instances store)) : StepKeeps world event groupId := by
  have hholds (store : ℕ) : (world.apply event).Holds store groupId ↔
      world.Holds store groupId := by
    rw [World.Holds, World.Holds, (hstores store).indexed, (hstores store).points]
  refine ⟨⟨fun store => (hinv.locals store).same hmetadata (hstores store), ?_⟩, ?_⟩
  · intro first second hfst hsnd
    exact hinv.exclusive first second ((hholds first).mp hfst) ((hholds second).mp hsnd)
  · intro legacy hmigrates
    rw [Migrates, hmetadata.records, hmetadata.v1Records, hmetadata.migrations]
    exact hmigrates

theorem StepKeeps.of_holder {store : ℕ}
    {next : Metadata × Instance} (happly : world.apply event = world.setStore store next)
    (hkeeps : Keeps world.metadata next.1 next.2 groupId)
    (halone : ∀ other, other ≠ store → ¬ world.Holds other groupId) :
    StepKeeps world event groupId := by
  have hholder (first : ℕ) (hfst : (world.apply event).Holds first groupId) : first = store := by
    by_contra hne
    refine halone first hne ?_
    rw [happly, World.Holds, setStore_of_ne hne] at hfst
    exact hfst
  refine ⟨⟨?_, ?_⟩, ?_⟩
  · intro first
    rw [happly]
    by_cases hsame : first = store
    · rw [hsame, setStore_self]
      exact hkeeps.inv
    · rw [setStore_of_ne hsame]
      obtain ⟨hindexed, hpoint⟩ := not_holds_iff.mp (halone first hsame)
      exact (hinv.locals first).of_not_holds hindexed hpoint hkeeps.inv.listed hkeeps.v1Records
  · intro first second hfst hsnd
    rw [hholder first hfst, hholder second hsnd]
  · rw [happly]
    exact hkeeps.migrates

theorem advance_keeps (store : ℕ) (other : String) :
    StepKeeps world (.advance store other) groupId := by
  cases hpoint : (world.instances store).points other with
  | none =>
    have hsame : world.apply (.advance store other) = world := by
      rw [World.apply, hpoint]
    refine .of_same hinv ?_ fun first => ?_
    · rw [hsame]
      exact ⟨rfl, rfl, rfl, Iff.rfl⟩
    · rw [hsame]
      exact ⟨rfl, rfl, rfl⟩
  | some point =>
    have happly : world.apply (.advance store other) = world.setStore store
        (stepPoint world.metadata (world.instances store) other point) := by
      rw [World.apply, hpoint]
    by_cases hgroup : groupId = other
    · subst hgroup
      have hholds : world.Holds store groupId := by
        refine Or.inr ?_
        rw [hpoint]
        rfl
      refine .of_holder hinv happly
        (stepPoint_keeps (hinv.locals store) ((hinv.locals store).point point hpoint)) ?_
      exact fun first hne hfst => hne (hinv.exclusive first store hfst hholds)
    · have hcall :
          SameMetadata groupId world.metadata
            (stepPoint world.metadata (world.instances store) other point).1 ∧
          SameInstance groupId (world.instances store)
            (stepPoint world.metadata (world.instances store) other point).2 :=
        stepPoint_other hgroup point
      refine .of_same hinv ?_ fun first => ?_
      · rw [happly]
        exact hcall.1
      · rw [happly]
        by_cases hsame : first = store
        · rw [hsame, setStore_self]
          exact hcall.2
        · rw [setStore_of_ne hsame]
          exact ⟨rfl, rfl, rfl⟩

theorem start_keeps {store : ℕ} {other : String}
    {operation : Operation} (hexclusive : world.Exclusive (.start store other operation)) :
    StepKeeps world (.start store other operation) groupId := by
  cases hpoint : (world.instances store).points other with
  | some point =>
    have hsame : world.apply (.start store other operation) = world := by
      rw [World.apply, hpoint]
    refine .of_same hinv ?_ fun first => ?_
    · rw [hsame]
      exact ⟨rfl, rfl, rfl, Iff.rfl⟩
    · rw [hsame]
      exact ⟨rfl, rfl, rfl⟩
  | none =>
    have happly : world.apply (.start store other operation) = world.setStore store
        (world.metadata, (world.instances store).setPoint other (some (.load operation))) := by
      rw [World.apply, hpoint]
    by_cases hgroup : groupId = other
    · subst hgroup
      refine .of_holder hinv happly ((hinv.locals store).keeps_setPoint ?_) hexclusive
      rintro next ⟨⟩
      trivial
    · refine .of_same hinv ?_ fun first => ?_
      · rw [happly]
        exact ⟨rfl, rfl, rfl, Iff.rfl⟩
      · rw [happly]
        by_cases hsame : first = store
        · rw [hsame, setStore_self]
          exact sameInstance_setPoint hgroup _
        · rw [setStore_of_ne hsame]
          exact ⟨rfl, rfl, rfl⟩

theorem crash_keeps (store : ℕ) : StepKeeps world (.crash store) groupId := by
  have hnew : ¬ (world.apply (.crash store)).Holds store groupId := by
    rw [World.apply, World.Holds, setStore_self]
    rintro (hcached | hpoint)
    · exact Bool.false_ne_true hcached
    · exact Bool.false_ne_true hpoint
  have hother {first : ℕ} (hne : first ≠ store) :
      (world.apply (.crash store)).instances first = world.instances first :=
    setStore_of_ne hne _
  have hholds (first : ℕ) (hfst : (world.apply (.crash store)).Holds first groupId) :
      world.Holds first groupId := by
    by_cases hsame : first = store
    · exact absurd (hsame ▸ hfst) hnew
    · rwa [World.Holds, hother hsame] at hfst
  refine ⟨⟨?_, ?_⟩, fun _ => id⟩
  · intro first
    by_cases hsame : first = store
    · rw [World.apply, hsame, setStore_self]
      refine ⟨(hinv.locals store).listed, ?_, ?_, ?_⟩
      · exact fun hcached => absurd hcached Bool.false_ne_true
      · exact fun hcached => absurd hcached Bool.false_ne_true
      · exact fun point hpoint => absurd hpoint.symm (some_ne_none point)
    · rw [hother hsame]
      exact hinv.locals first
  · exact fun first second hfst hsnd =>
      hinv.exclusive first second (hholds first hfst) (hholds second hsnd)

theorem step_keeps (hexclusive : world.Exclusive event) : StepKeeps world event groupId := by
  cases event with
  | start store other operation => exact start_keeps hinv hexclusive
  | advance store other => exact advance_keeps hinv store other
  | crash store => exact crash_keeps hinv store

theorem run_keeps (hadmits : world.Admits events) :
    GroupInv (world.run events) groupId ∧ ∀ legacy, Migrates legacy world.metadata groupId →
      Migrates legacy (world.run events).metadata groupId := by
  induction events generalizing world with
  | nil => exact ⟨hinv, fun _ => id⟩
  | cons event events ih =>
    have hstep := step_keeps hinv hadmits.1
    obtain ⟨hfinal, hmigrates⟩ := ih hstep.inv hadmits.2
    exact ⟨hfinal, fun legacy hwaits => hmigrates legacy (hstep.migrates legacy hwaits)⟩

end

theorem apply_instances {other : ℕ} (hother : other ≠ event.store) :
    (world.apply event).instances other = world.instances other := by
  cases event with
  | start store groupId operation =>
    rw [World.apply]
    split
    · exact setStore_of_ne hother _
    · rfl
  | advance store groupId =>
    rw [World.apply]
    split
    · rfl
    · exact setStore_of_ne hother _
  | crash store => exact setStore_of_ne hother _

theorem admits_alone (store : ℕ) (hevents : ∀ event ∈ events, event.store = store)
    (hothers : ∀ other, other ≠ store → world.instances other = {}) : world.Admits events := by
  induction events generalizing world with
  | nil => trivial
  | cons event events ih =>
    obtain ⟨hevent, hrest⟩ := forall_mem_cons.mp hevents
    refine ⟨?_, ih hrest fun other hne => ?_⟩
    · cases event with
      | start first groupId operation =>
        intro other hne
        have hnew := hothers other (hevent ▸ hne)
        rw [World.Holds, hnew]
        rintro (hcached | hpoint)
        · exact Bool.false_ne_true hcached
        · exact Bool.false_ne_true hpoint
      | advance first groupId => trivial
      | crash first => trivial
    · rw [apply_instances (hevent.symm ▸ hne)]
      exact hothers other hne

theorem groupInv_ofMetadata (hlist : metadata.records groupId ≠ none → groupId ∈ metadata.ids) :
    GroupInv (.ofMetadata metadata) groupId := by
  refine ⟨fun store => ⟨hlist, ?_, ?_, ?_⟩, ?_⟩
  · exact fun hcached => absurd hcached Bool.false_ne_true
  · exact fun hcached => absurd hcached Bool.false_ne_true
  · exact fun point hpoint => absurd hpoint.symm (some_ne_none point)
  · rintro first second (hcached | hpoint) -
    · exact absurd hcached Bool.false_ne_true
    · exact absurd hpoint Bool.false_ne_true

/-- While one instance at a time holds each group, every run keeps the records of the index and
migrates each version 1 record once. -/
theorem groupIndex_complete (metadata : Metadata)
    (hlisted : ∀ groupId, metadata.records groupId ≠ none → groupId ∈ metadata.ids)
    (hmigrations : ∀ groupId, metadata.migrations groupId = []) (events : List Event)
    (hadmits : (World.ofMetadata metadata).Admits events) :
    (∀ groupId, ((World.ofMetadata metadata).run events).metadata.records groupId ≠ none →
      groupId ∈ ((World.ofMetadata metadata).run events).metadata.ids) ∧
    (∀ groupId legacy, metadata.v1Records groupId = some legacy → metadata.records groupId = none →
        Migrates legacy ((World.ofMetadata metadata).run events).metadata groupId) ∧
    ∀ (world : World) store other groupId, groupId ≠ other →
      (groupId ∈ (world.apply (.advance store other)).metadata.ids ↔
        groupId ∈ world.metadata.ids) := by
  have hstart (groupId : String) : GroupInv (.ofMetadata metadata) groupId :=
    groupInv_ofMetadata (hlisted groupId)
  refine ⟨?_, ?_, ?_⟩
  · intro groupId
    exact ((run_keeps (hstart groupId) hadmits).1.locals 0).listed
  · intro groupId legacy hwaits hnone
    refine (run_keeps (hstart groupId) hadmits).2 legacy (Or.inl ⟨hwaits, hnone, ?_⟩)
    exact hmigrations groupId
  · intro world store other groupId hne
    rw [World.apply]
    cases (world.instances store).points other with
    | none => rfl
    | some point => exact (stepPoint_other hne point).1.ids

def legacyRecord : StoredGroupRecordV1 where
  masterKey := some [7]

/-- A store that an earlier version wrote: one group, and no index. -/
def legacyMetadata : Metadata where
  index := none
  records := fun _ => none
  v1Records := fun groupId => if groupId = "group" then some legacyRecord else none
  migrations := fun _ => []

/-- A read crashes after the write of the migrated record, and a new instance reads again. -/
def crashedMigration : List Event :=
  .start 0 "group" .read :: List.replicate 5 (.advance 0 "group") ++
    .crash 0 :: .start 0 "group" .read :: List.replicate 2 (.advance 0 "group")

theorem groupIndex_complete_crash :
    (((World.ofMetadata legacyMetadata).run crashedMigration).metadata.records "group" ≠ none →
      "group" ∈ ((World.ofMetadata legacyMetadata).run crashedMigration).metadata.ids) ∧
    Migrates legacyRecord ((World.ofMetadata legacyMetadata).run crashedMigration).metadata
      "group" := by
  have hadmits : (World.ofMetadata legacyMetadata).Admits crashedMigration := by
    refine admits_alone 0 ?_ fun _ _ => rfl
    decide
  obtain ⟨hlisted, hmigrates, -⟩ := groupIndex_complete legacyMetadata
    (fun _ hstored => absurd rfl hstored) (fun _ => rfl) crashedMigration hadmits
  exact ⟨hlisted "group", hmigrates "group" legacyRecord rfl rfl⟩

/-- An instance stores a key, another one removes the group, and the first one stores a key again:
it still has the group in its cache of the index. -/
def staleCache : List Event :=
  .start 0 "group" (storeMasterKey [1]) :: List.replicate 5 (.advance 0 "group") ++
    .start 1 "group" (.updateGroupReceiveRecord fun _ => none) ::
      List.replicate 6 (.advance 1 "group") ++
    .start 0 "group" (storeMasterKey [2]) :: List.replicate 4 (.advance 0 "group")

def emptyMetadata : Metadata where
  index := none
  records := fun _ => none
  v1Records := fun _ => none
  migrations := fun _ => []

theorem groupIndex_stale :
    ((World.ofMetadata emptyMetadata).run staleCache).metadata.records "group" ≠ none ∧
      "group" ∉ ((World.ofMetadata emptyMetadata).run staleCache).metadata.ids := by
  decide

end SignalProtocol.Groups.SdkStore

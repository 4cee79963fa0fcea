import SignalProtocol.Library.Transition
import SignalProtocol.SenderKeys.HandoffLedger

/-! # What a handoff row proves

The row at given coordinates after each operation, and from that, over whole runs, the record
call behind every row. -/

namespace SignalProtocol.SenderKeys

open List OrderedMap

variable {groupId : String} {row : SenderKeyHandoffRecord}

namespace SenderKeyHandoffTable

variable (table : SenderKeyHandoffTable) (predicate : String → SenderKeyHandoffRecord → Bool)

def find (groupId : String) (key : RowKey) : Option SenderKeyHandoffRecord :=
  ((table.get? groupId).getD ∅).get? key

theorem find_record (row : SenderKeyHandoffRecord) (groupId : String) (key : RowKey) :
    find (record table row) groupId key =
      if groupId = row.groupId ∧ key = rowKey row then some row else find table groupId key := by
  rw [find, record, get?_set]
  by_cases hgroup : groupId = row.groupId
  · rw [if_pos hgroup, Option.getD_some, get?_set, hgroup]
    by_cases hkey : key = rowKey row
    · rw [if_pos hkey, if_pos ⟨rfl, hkey⟩]
    · rw [if_neg hkey, if_neg (fun hboth => hkey hboth.2)]
      rfl
  · rw [if_neg hgroup, if_neg (fun hboth => hgroup hboth.1)]
    rfl

theorem find_deleteWhere (groupId : String) (predicate : SenderKeyHandoffRecord → Bool)
    (other : String) (key : RowKey) :
    find (deleteWhere table groupId predicate) other key =
      if other = groupId then (find table other key).filter fun row => ¬ predicate row
      else find table other key := by
  rw [deleteWhere]
  cases hrows : table.get? groupId with
  | none =>
    by_cases hother : other = groupId
    · have hempty : find table other key = none := by
        rw [find, hother, hrows]
        rfl
      rw [if_pos hother, hempty]
      rfl
    · rw [if_neg hother]
  | some rows =>
    have hkept := get?_filterEntries rows (fun _ row => ¬ predicate row) key
    dsimp only
    by_cases hother : other = groupId
    · have hfind : find table other key = rows.get? key := by
        rw [find, hother, hrows]
        rfl
      rw [if_pos hother, hfind, ← hkept]
      split
      · rename_i hsize
        rw [eq_empty_of_size hsize, find, get?_erase, if_pos hother]
        rfl
      · rw [find, get?_set, if_pos hother]
        rfl
    · rw [if_neg hother]
      split
      · rw [find, get?_erase, if_neg hother]
        rfl
      · rw [find, get?_set, if_neg hother]
        rfl

theorem find_deleteGroup (groupId other : String) (key : RowKey) :
    find (deleteGroup table groupId) other key =
      if other = groupId then none else find table other key := by
  rw [find, deleteGroup, get?_erase]
  split <;> rfl

theorem not_mem_groupIds (hmem : groupId ∉ groupIds table) (key : RowKey) :
    find table groupId key = none := by
  rw [find, (OrderedMap.get?_eq_none_iff _ _).mpr hmem]
  rfl

theorem find_foldl_deleteWhere (groups : List String) (other : String) (key : RowKey) :
    find (groups.foldl (fun table groupId => deleteWhere table groupId (predicate groupId)) table)
        other key =
      if other ∈ groups then (find table other key).filter fun row => ¬ predicate other row
      else find table other key := by
  induction groups generalizing table with
  | nil => rfl
  | cons groupId groups ih =>
    rw [foldl_cons, ih, find_deleteWhere]
    by_cases hgroup : other = groupId <;> by_cases hrest : other ∈ groups <;>
      simp [hgroup, hrest, Option.filter_filter]

theorem find_deleteEverywhere (other : String) (key : RowKey) :
    find ((groupIds table).foldl
        (fun table groupId => deleteWhere table groupId (predicate groupId)) table) other key =
      (find table other key).filter fun row => ¬ predicate other row := by
  rw [find_foldl_deleteWhere]
  split
  · rfl
  · rename_i hmem
    rw [not_mem_groupIds table hmem]
    rfl

theorem find_deleteDevice (device : SenderKeyHandoffDevice) (groupId : String) (key : RowKey) :
    find (deleteDevice table device) groupId key =
      (find table groupId key).filter fun row => ¬ isDevice row device :=
  find_deleteEverywhere table (fun _ row => isDevice row device) groupId key

theorem find_deleteAccount (userId groupId : String) (key : RowKey) :
    find (deleteAccount table userId) groupId key =
      (find table groupId key).filter fun row => ¬ decide (row.recipientUserId = userId) :=
  find_deleteEverywhere table (fun _ row => decide (row.recipientUserId = userId)) groupId key

theorem mem_list_iff (groupId : String) (generation : ℕ) (row : SenderKeyHandoffRecord) :
    row ∈ list table groupId generation ↔
      (∃ key, find table groupId key = some row) ∧ row.generation = generation := by
  rw [list, mem_filter, mem_values_iff, decide_eq_true_iff]
  rfl

end SenderKeyHandoffTable

open SenderKeyHandoffTable

namespace HandoffStore

variable (store : HandoffStore)

def currentSenderKeyId (groupId : String) : Option String :=
  (store.ownKeys.get? groupId).map SenderKeyHandoffKey.senderKeyId

theorem foldl_sweepTurn (groups : List String) :
    groups.foldl sweepTurn store = { store with
      rows := groups.foldl (fun table groupId => deleteWhere table groupId fun row =>
        some row.senderKeyId ≠ store.currentSenderKeyId groupId) store.rows } := by
  induction groups generalizing store with
  | nil => rfl
  | cons groupId groups ih => exact ih (store.sweepTurn groupId)

theorem find_sweep (groupId : String) (key : RowKey) :
    find store.sweep.rows groupId key = (find store.rows groupId key).filter fun row =>
      ¬ decide (some row.senderKeyId ≠ store.currentSenderKeyId groupId) := by
  rw [sweep, foldl_sweepTurn]
  exact find_deleteEverywhere store.rows
    (fun groupId row => some row.senderKeyId ≠ store.currentSenderKeyId groupId) groupId key

/-- The events that delete the rows of a device in a group. -/
def Revokes (groupId userId : String) (deviceId : ℕ) : HandoffEvent → Prop
  | .invalidate group device => group = groupId ∧ device = ⟨userId, deviceId⟩
  | .invalidateAccount user => user = userId
  | .archiveSession device => device = ⟨userId, deviceId⟩
  | .storeOwnKey group _ => group = groupId
  | .deleteOwnKey group => group = groupId
  | .record .. | .sweepTurn _ | .sweep => False

/-- The record calls for one row. -/
def Records (groupId : String) (key : RowKey) : HandoffEvent → Prop
  | .record group handoffKey device registrationId _ => group = groupId ∧
      (handoffKey.senderKeyId, handoffKey.generation, device.userId, device.deviceId,
        registrationId) = key
  | _ => False

structure Placed (groupId : String) (key : RowKey) (row : SenderKeyHandoffRecord) : Prop where
  groupId_eq : row.groupId = groupId
  rowKey_eq : rowKey row = key

theorem Placed.isDevice_iff {key : RowKey}
    (hplaced : Placed groupId key row) (device : SenderKeyHandoffDevice) :
    isDevice row device = true ↔ device = ⟨key.2.2.1, key.2.2.2.1⟩ := by
  rw [← hplaced.rowKey_eq]
  obtain ⟨userId, deviceId⟩ := device
  rw [isDevice, decide_eq_true_iff, SenderKeyHandoffDevice.mk.injEq]
  exact and_congr eq_comm eq_comm

theorem find_apply (event : HandoffEvent) {key : RowKey}
    (hplaced : ∀ row, find store.rows groupId key = some row → Placed groupId key row)
    (hrow : find (store.apply event).rows groupId key = some row) :
    Placed groupId key row ∧ (Records groupId key event ∨ find store.rows groupId key = some row ∧
      ¬ Revokes groupId key.2.2.1 key.2.2.2.1 event) := by
  have hkept : ∀ keep : SenderKeyHandoffRecord → Bool,
      (find store.rows groupId key).filter keep = some row →
      Placed groupId key row ∧ find store.rows groupId key = some row ∧ keep row = true := by
    intro keep hfilter
    obtain ⟨hfound, hkeep⟩ := Option.filter_eq_some_iff.mp hfilter
    exact ⟨hplaced row hfound, hfound, hkeep⟩
  cases event with
  | record group handoffKey device registrationId acceptedAt =>
    replace hrow := (find_record store.rows _ groupId key).symm.trans hrow
    split at hrow
    · rename_i hplace
      cases hrow
      exact ⟨⟨hplace.1.symm, hplace.2.symm⟩, .inl ⟨hplace.1.symm, hplace.2.symm⟩⟩
    · exact ⟨hplaced row hrow, .inr ⟨hrow, id⟩⟩
  | invalidate group device =>
    replace hrow := (find_deleteWhere store.rows group _ groupId key).symm.trans hrow
    split at hrow
    · obtain ⟨hplace, hfound, hkeep⟩ := hkept _ hrow
      refine ⟨hplace, .inr ⟨hfound, fun hrevokes => ?_⟩⟩
      rw [decide_eq_true_iff, hplace.isDevice_iff] at hkeep
      exact hkeep hrevokes.2
    · rename_i hother
      exact ⟨hplaced row hrow, .inr ⟨hrow, fun hrevokes => hother hrevokes.1.symm⟩⟩
  | invalidateAccount userId =>
    replace hrow := (find_deleteAccount store.rows userId groupId key).symm.trans hrow
    obtain ⟨hplace, hfound, hkeep⟩ := hkept _ hrow
    refine ⟨hplace, .inr ⟨hfound, fun hrevokes => ?_⟩⟩
    rw [decide_eq_true_iff, decide_eq_true_iff] at hkeep
    have huser : row.recipientUserId = key.2.2.1 := by rw [← hplace.rowKey_eq]; rfl
    exact hkeep (huser.trans hrevokes.symm)
  | sweepTurn group =>
    replace hrow := (find_deleteWhere store.rows group _ groupId key).symm.trans hrow
    split at hrow
    · obtain ⟨hplace, hfound, -⟩ := hkept _ hrow
      exact ⟨hplace, .inr ⟨hfound, id⟩⟩
    · exact ⟨hplaced row hrow, .inr ⟨hrow, id⟩⟩
  | sweep =>
    replace hrow := (find_sweep store groupId key).symm.trans hrow
    obtain ⟨hplace, hfound, -⟩ := hkept _ hrow
    exact ⟨hplace, .inr ⟨hfound, id⟩⟩
  | archiveSession device =>
    replace hrow := (find_deleteDevice store.rows device groupId key).symm.trans hrow
    obtain ⟨hplace, hfound, hkeep⟩ := hkept _ hrow
    refine ⟨hplace, .inr ⟨hfound, fun hrevokes => ?_⟩⟩
    rw [decide_eq_true_iff, hplace.isDevice_iff] at hkeep
    exact hkeep hrevokes
  | storeOwnKey group handoffKey | deleteOwnKey group =>
    replace hrow := (find_deleteGroup store.rows group groupId key).symm.trans hrow
    split at hrow
    · cases hrow
    · rename_i hother
      exact ⟨hplaced row hrow, .inr ⟨hrow, fun hrevokes => hother hrevokes.symm⟩⟩

theorem find_run (events : List HandoffEvent) (groupId : String) (key : RowKey)
    (row : SenderKeyHandoffRecord) (hrow : find (run events).rows groupId key = some row) :
    Placed groupId key row ∧
      Since (Records groupId key) (Revokes groupId key.2.2.1 key.2.2.2.1) events := by
  induction events using List.reverseRecOn generalizing row with
  | nil => cases hrow
  | append_singleton events event ih =>
    rw [run, foldl_append] at hrow
    obtain ⟨hplaced, hrecs | ⟨hfound, hrevokes⟩⟩ :=
      (run events).find_apply event (fun row hfound => (ih row hfound).1) hrow
    · exact ⟨hplaced, .last hrecs⟩
    · exact ⟨hplaced, (ih row hfound).2.append hrevokes⟩

theorem needsKey_iff (groupId : String) (key : SenderKeyHandoffKey)
    (target : SenderKeyHandoffTarget) :
    store.needsKey groupId key target = true ↔
      ∀ registrationId, target.registrationId = some registrationId →
        ∀ place row, find store.rows groupId place = some row → rowKey row ≠
          (key.senderKeyId, key.generation, target.userId, target.deviceId, registrationId) := by
  rw [needsKey]
  cases target.registrationId with
  | none => simp
  | some registrationId =>
    dsimp only
    rw [decide_eq_true_iff, handedOff]
    simp only [mem_map, mem_filter, decide_eq_true_iff, mem_list_iff, not_exists]
    constructor
    · rintro hneeds _ ⟨⟩ place row hfound hplace
      simp only [rowKey, Prod.mk.injEq] at hplace
      exact hneeds row ⟨⟨⟨⟨place, hfound⟩, hplace.2.1⟩, hplace.1, hplace.2.1⟩, by simp [hplace]⟩
    · rintro hneeds row ⟨⟨⟨⟨place, hfound⟩, -⟩, hkey, hgen⟩, hrow⟩
      refine hneeds registrationId rfl place row hfound ?_
      simp only [Prod.mk.injEq] at hrow
      simp [rowKey, hkey, hgen, hrow]

theorem needsKey_sweep {key : SenderKeyHandoffKey}
    (hkey : store.ownKeys.get? groupId = some key) (target : SenderKeyHandoffTarget) :
    store.sweep.needsKey groupId key target = store.needsKey groupId key target := by
  rw [Bool.eq_iff_iff, needsKey_iff, needsKey_iff]
  refine forall₂_congr fun registrationId _ => forall₂_congr fun place row => ?_
  rw [find_sweep, Option.filter_eq_some_iff]
  constructor
  · intro hneeds hfound hplace
    refine hneeds ⟨hfound, ?_⟩ hplace
    have hcur : row.senderKeyId = key.senderKeyId := congrArg Prod.fst hplace
    simp [currentSenderKeyId, hkey, hcur]
  · exact fun hneeds hfound => hneeds hfound.1

/-- The ledger never over-trusts: behind every omitted target is a record call for exactly this row
that nothing has revoked since. -/
theorem senderKeyHandoffs_sound (events : List HandoffEvent) :
    (∀ groupId key targets target, target ∈ targets →
      target ∉ (run events).devicesNeedingKey groupId key targets →
      ∃ registrationId, target.registrationId = some registrationId ∧
        Since (Records groupId (key.senderKeyId, key.generation, target.userId, target.deviceId,
          registrationId)) (Revokes groupId target.userId target.deviceId) events) ∧
    ∀ groupId key, (run events).ownKeys.get? groupId = some key → ∀ targets,
      (run events).sweep.devicesNeedingKey groupId key targets =
        (run events).devicesNeedingKey groupId key targets := by
  constructor
  · intro groupId key targets target htarget homitted
    have hneeds : ¬ (run events).needsKey groupId key target = true :=
      fun hneeds => homitted (mem_filter.mpr ⟨htarget, hneeds⟩)
    rw [needsKey_iff] at hneeds
    push Not at hneeds
    obtain ⟨registrationId, hregistration, place, row, hfound, hplace⟩ := hneeds
    obtain ⟨hplaced, hsince⟩ := find_run events groupId place row hfound
    rw [hplaced.rowKey_eq] at hplace
    subst hplace
    exact ⟨registrationId, hregistration, hsince⟩
  · intro groupId key hkey targets
    exact filter_congr fun target _ => needsKey_sweep _ hkey target

end HandoffStore

end SignalProtocol.SenderKeys

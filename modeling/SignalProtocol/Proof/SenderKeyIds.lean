import SignalProtocol.Proof.KeySpaces

/-! # Sender key ids

One pointer for each id and sender finds the group of a sender key id. -/

namespace SignalProtocol.KeyValue

open Results List OrderedMap

variable {T : StoredTypes} {id userId : String} {deviceId : ℕ}

def senderKeyIds (states : Option (List SenderKeyState)) : List String :=
  (states.getD []).map (·.senderKeyId)

theorem isSome_of_mem {states : Option (List SenderKeyState)}
    (hid : id ∈ senderKeyIds states) : states.isSome := by
  cases states with
  | none => cases hid
  | some states => rfl

structure SenderKeyIndex where
  records : SenderKeyPlace → Option (List SenderKeyState) := fun _ => none
  pointers : String → String → ℕ → Option String := fun _ _ _ => none

namespace SenderKeyIndex

variable (index : SenderKeyIndex) (written : SenderKeyPlace → Bool)
variable (states : Option (List SenderKeyState))

def ids (place : SenderKeyPlace) : List String := senderKeyIds (index.records place)

def WritesPointer (id userId : String) (deviceId : ℕ) (ids : SenderKeyPlace → List String) : Prop :=
  id ≠ "" ∧ ∃ place, written place ∧ place.userId = userId ∧ place.deviceId = deviceId ∧
    id ∈ ids place

open Classical in
/-- The written places get these states, or no record. -/
noncomputable def write (groupId : String) : SenderKeyIndex where
  records place := if written place then states else index.records place
  pointers id userId deviceId :=
    if WritesPointer written id userId deviceId fun _ => senderKeyIds states then some groupId
    else if WritesPointer written id userId deviceId index.ids then none
    else index.pointers id userId deviceId

structure Exact (index : SenderKeyIndex) : Prop where
  places : ∀ place, (index.records place).isSome → place.groupId ≠ "" ∧ place.userId ≠ ""
  named : ∀ place, "" ∉ index.ids place
  sound : ∀ id userId deviceId groupId, index.pointers id userId deviceId = some groupId →
    id ∈ index.ids ⟨groupId, userId, deviceId⟩
  complete : ∀ place, ∀ id ∈ index.ids place, (index.pointers id place.userId place.deviceId).isSome

theorem Exact.empty : Exact {} where
  places := by rintro _ ⟨⟩
  named := by rintro _ ⟨⟩
  sound := by rintro _ _ _ _ ⟨⟩
  complete := by rintro _ _ ⟨⟩

variable {index written states} {groupId : String}

theorem ids_write (place : SenderKeyPlace) : (index.write written states groupId).ids place =
    if written place then senderKeyIds states else index.ids place := by
  rw [ids, write]
  dsimp only
  split <;> rfl

/-- No id that leaves a record is that of a record which stays with the same sender. -/
theorem Exact.write (hexact : index.Exact)
    (hplaces : states.isSome → ∀ place, written place →
      place.groupId = groupId ∧ place.groupId ≠ "" ∧ place.userId ≠ "")
    (hnamed : "" ∉ senderKeyIds states)
    (hdropped : ∀ place, written place → ∀ id ∈ index.ids place, id ∉ senderKeyIds states →
      ∀ other, ¬ written other → other.userId = place.userId → other.deviceId = place.deviceId →
        id ∉ index.ids other) :
    (index.write written states groupId).Exact where
  places place hplace := by
    rw [SenderKeyIndex.write] at hplace
    dsimp only at hplace
    split at hplace
    · rename_i hwrote
      exact (hplaces hplace place hwrote).2
    · exact hexact.places place hplace
  named place := by
    rw [ids_write]
    split
    · exact hnamed
    · exact hexact.named place
  sound id userId deviceId found hptr := by
    rw [SenderKeyIndex.write] at hptr
    dsimp only at hptr
    rw [ids_write]
    split at hptr
    · rename_i hnew
      obtain ⟨-, place, hwrote, rfl, rfl, hid⟩ := hnew
      obtain rfl := Option.some.inj hptr
      obtain ⟨rfl, -⟩ := hplaces (isSome_of_mem hid) place hwrote
      rwa [if_pos hwrote]
    · split at hptr
      · cases hptr
      · rename_i hold
        have hid := hexact.sound id _ _ _ hptr
        rw [if_neg]
        · exact hid
        · intro hwrote
          exact hold ⟨fun hempty => hexact.named _ (hempty ▸ hid), _, hwrote, rfl, rfl, hid⟩
  complete place id hid := by
    rw [ids_write] at hid
    rw [SenderKeyIndex.write]
    dsimp only
    split
    · rfl
    · rename_i hnew
      split at hid
      · rename_i hwrote
        exact absurd ⟨fun hempty => hnamed (hempty ▸ hid), place, hwrote, rfl, rfl, hid⟩ hnew
      · rename_i hstays
        rw [if_neg]
        · exact hexact.complete place id hid
        · rintro ⟨hname, other, hwrote, huser, hdev, hmem⟩
          refine hdropped other hwrote id hmem (fun hstates => ?_) place hstays huser.symm
            hdev.symm hid
          exact hnew ⟨hname, other, hwrote, huser, hdev, hstates⟩

end SenderKeyIndex

/-! ## Rows and the index -/

section Writes

variable {K : Type} [DecidableEq K] (L : KeyLayout K) (rows : OrderedMap K (Row T K))

def writeRow (write : Write T K) : OrderedMap K (Row T K) :=
  finalState (applyWrite L write rows)

theorem atomicWrite_eq (writes : List (Write T K)) :
    atomicWrite L writes rows = .ok ⟨⟩ (writes.foldl (writeRow L) rows) := by
  induction writes generalizing rows with
  | nil => rfl
  | cons write writes ih =>
    have hwrite : applyWrite L write rows = .ok ⟨⟩ (writeRow L rows write) := by
      cases write <;> rfl
    change (applyWrite L write >>= fun _ => atomicWrite L writes) rows = _
    rw [bind_apply_ok hwrite]
    exact ih _

variable (keys : List K)

theorem get?_removes (key : K) :
    ((keys.map .remove).foldl (writeRow L) rows).get? key =
      if key ∈ keys then none else rows.get? key := by
  induction keys generalizing rows with
  | nil => simp
  | cons first keys ih =>
    rw [map_cons, foldl_cons, ih]
    change (if key ∈ keys then none else (rows.erase first).get? key) = _
    rw [get?_erase]
    by_cases hfst : key = first <;> simp [hfst]

theorem get?_sets (row : Row T K) (key : K) :
    ((keys.map (.set · row)).foldl (writeRow L) rows).get? key =
      if key ∈ keys then some row else rows.get? key := by
  induction keys generalizing rows with
  | nil => simp
  | cons first keys ih =>
    rw [map_cons, foldl_cons, ih]
    change (if key ∈ keys then some row else (rows.set first row).get? key) = _
    rw [get?_set]
    by_cases hfst : key = first <;> simp [hfst]

end Writes

structure Shows (index : SenderKeyIndex) (rows : OrderedMap StorageKey (Row T StorageKey)) :
    Prop where
  records : ∀ place, rows.get? (.senderKeyRecord place) = (index.records place).map .senderKeys
  pointers : ∀ id userId deviceId, rows.get? (.senderKeyIdPointer id userId deviceId) =
    (index.pointers id userId deviceId).map fun groupId =>
      .pointer (.senderKeyRecord ⟨groupId, userId, deviceId⟩)

namespace Shows

variable {index : SenderKeyIndex} {rows : OrderedMap StorageKey (Row T StorageKey)}

theorem empty : Shows {} (∅ : OrderedMap StorageKey (Row T StorageKey)) where
  records _ := get?_empty _
  pointers _ _ _ := get?_empty _

theorem getSenderKeyRecord (hshows : Shows index rows) (place : SenderKeyPlace) :
    KeyValue.getSenderKeyRecord structuredLayout place rows = .ok (index.records place) rows := by
  have hget := hshows.records place
  cases hrec : index.records place with
  | none =>
    rw [hrec] at hget
    exact readRow_none hget
  | some states =>
    rw [hrec] at hget
    exact readRow_some hget rfl

def pointerKeys (index : SenderKeyIndex) (place : SenderKeyPlace) : List StorageKey :=
  ((index.ids place).filter (· ≠ "")).map fun id =>
    .senderKeyIdPointer id place.userId place.deviceId

theorem mem_pointerKeys {place : SenderKeyPlace} :
    .senderKeyIdPointer id userId deviceId ∈ pointerKeys index place ↔
      id ≠ "" ∧ place.userId = userId ∧ place.deviceId = deviceId ∧ id ∈ index.ids place := by
  simp only [pointerKeys, mem_map, mem_filter, decide_eq_true_eq,
    StorageKey.senderKeyIdPointer.injEq]
  constructor
  · rintro ⟨_, ⟨hid, hname⟩, rfl, huser, hdev⟩
    exact ⟨hname, huser, hdev, hid⟩
  · rintro ⟨hname, huser, hdev, hid⟩
    exact ⟨id, ⟨hid, hname⟩, rfl, huser, hdev⟩

theorem senderKeyIdPointerRemovals (hshows : Shows index rows) (place : SenderKeyPlace) :
    KeyValue.senderKeyIdPointerRemovals structuredLayout place rows =
      .ok ((pointerKeys index place).map .remove) rows := by
  rw [KeyValue.senderKeyIdPointerRemovals, bind_apply_ok (hshows.getSenderKeyRecord place),
    pointerKeys, map_map, SenderKeyIndex.ids, senderKeyIds]
  cases index.records place <;> rfl

/-- A call that removes records with the pointers of their ids. -/
theorem removes (hshows : Shows index rows) {gone : SenderKeyPlace → Bool}
    {keys : List StorageKey} (groupId : String)
    (hrecs : ∀ place, (index.records place).isSome → (.senderKeyRecord place ∈ keys ↔ gone place))
    (hpointers : ∀ id userId deviceId, .senderKeyIdPointer id userId deviceId ∈ keys ↔
      SenderKeyIndex.WritesPointer gone id userId deviceId index.ids) :
    Shows (index.write gone none groupId)
      ((keys.map .remove).foldl (writeRow structuredLayout) rows) where
  records place := by
    rw [get?_removes, hshows.records, SenderKeyIndex.write]
    dsimp only
    cases hrec : index.records place with
    | none =>
      split <;> split <;> rfl
    | some states =>
      have hgone := hrecs place (by rw [hrec]; rfl)
      by_cases hplace : gone place = true
      · rw [if_pos (hgone.mpr hplace), if_pos hplace]
        rfl
      · rw [if_neg (mt hgone.mp hplace), if_neg hplace]
  pointers id userId deviceId := by
    have hnone : ¬ SenderKeyIndex.WritesPointer gone id userId deviceId fun _ =>
        senderKeyIds none := by
      rintro ⟨-, _, -, -, -, hid⟩
      cases hid
    rw [get?_removes, hshows.pointers, SenderKeyIndex.write]
    dsimp only
    rw [if_neg hnone]
    by_cases hptr : SenderKeyIndex.WritesPointer gone id userId deviceId index.ids
    · rw [if_pos ((hpointers ..).mpr hptr), if_pos hptr]
      rfl
    · rw [if_neg (mt (hpointers ..).mp hptr), if_neg hptr]

theorem deleteSenderKey (hshows : Shows index rows) (place : SenderKeyPlace) :
    ∃ after, KeyValue.deleteSenderKey structuredLayout place rows = .ok ⟨⟩ after ∧
      Shows (index.write (· = place) none place.groupId) after := by
  have hwrites : (pointerKeys index place).map Write.remove ++
      [Write.remove (structuredLayout.key (.senderKeyRecord place))] =
        (pointerKeys index place ++ [StorageKey.senderKeyRecord place]).map
          (fun key => (.remove key : Write T StorageKey)) := by
    rw [map_append]
    rfl
  rw [KeyValue.deleteSenderKey, bind_apply_ok (hshows.senderKeyIdPointerRemovals place), hwrites,
    atomicWrite_eq]
  refine ⟨_, rfl, hshows.removes _ (fun other _ => ?_) fun id userId deviceId => ?_⟩
  · simp [pointerKeys]
  · simp [mem_pointerKeys, SenderKeyIndex.WritesPointer]

def pointerKeysAt (index : SenderKeyIndex) : StorageKey → List StorageKey
  | .senderKeyRecord place => pointerKeys index place
  | _ => []

theorem pointerRemovals (hshows : Shows index rows) (keys : List StorageKey) :
    ∃ removals, keys.mapM (pointerRemovalsAt structuredLayout) rows = .ok removals rows ∧
      removals.flatten = (keys.flatMap (pointerKeysAt index)).map Write.remove := by
  induction keys with
  | nil => exact ⟨[], rfl, rfl⟩
  | cons key keys ih =>
    obtain ⟨removals, hremovals, hflatten⟩ := ih
    have hkey : pointerRemovalsAt structuredLayout key rows =
        .ok ((pointerKeysAt index key).map .remove) rows := by
      cases key
      case senderKeyRecord place => exact hshows.senderKeyIdPointerRemovals place
      all_goals rfl
    refine ⟨(pointerKeysAt index key).map .remove :: removals, ?_, ?_⟩
    · rw [mapM_cons, bind_apply_ok hkey, bind_apply_ok hremovals]
      rfl
    · rw [flatten_cons, hflatten, flatMap_cons, map_append]

theorem mem_pointerKeysAt {keys : List StorageKey} :
    .senderKeyIdPointer id userId deviceId ∈ keys.flatMap (pointerKeysAt index) ↔
      ∃ place, .senderKeyRecord place ∈ keys ∧
        .senderKeyIdPointer id userId deviceId ∈ pointerKeys index place := by
  rw [mem_flatMap]
  constructor
  · rintro ⟨key, hkey, hmem⟩
    cases key
    case senderKeyRecord place => exact ⟨place, hkey, hmem⟩
    all_goals cases hmem
  · rintro ⟨place, hkey, hmem⟩
    exact ⟨_, hkey, hmem⟩

theorem record_not_mem_pointerKeysAt {keys : List StorageKey} {place : SenderKeyPlace} :
    .senderKeyRecord place ∉ keys.flatMap (pointerKeysAt index) := by
  rw [mem_flatMap]
  rintro ⟨key, -, hmem⟩
  cases key
  case senderKeyRecord other => simp [pointerKeysAt, pointerKeys] at hmem
  all_goals cases hmem

section

variable (hshows : Shows index rows)

include hshows

theorem mem_keys {place : SenderKeyPlace} :
    .senderKeyRecord place ∈ rows.keys ↔ (index.records place).isSome := by
  rw [mem_keys_iff, hshows.records]
  cases index.records place <;> simp

theorem deleteAllSenderKeysForGroup (groupId : String) :
    ∃ count after,
      KeyValue.deleteAllSenderKeysForGroup structuredLayout groupId rows = .ok count after ∧
        Shows (index.write (·.groupId = groupId) none groupId) after := by
  obtain ⟨removals, hremovals, hflatten⟩ := hshows.pointerRemovals
    (rows.keys.filter (structuredLayout.inSenderKeyGroup groupId))
  have hkeys (found : StorageKey → Bool) :
      keysWhere found rows = .ok (rows.keys.filter found) rows := rfl
  rw [KeyValue.deleteAllSenderKeysForGroup, bind_apply_ok (hkeys _), bind_apply_ok hremovals,
    bind_apply_ok (hkeys _), hflatten, ← map_append, bind_apply_ok (atomicWrite_eq _ rows _)]
  have hgroup (place : SenderKeyPlace) :
      .senderKeyRecord place ∈ rows.keys.filter (structuredLayout.inSenderKeyGroup groupId) ↔
        (index.records place).isSome ∧ place.groupId = groupId := by
    rw [mem_filter, hshows.mem_keys]
    simp [structuredLayout]
  refine ⟨_, _, rfl, hshows.removes _ (fun place hplace => ?_) fun id userId deviceId => ?_⟩
  · rw [mem_append, or_iff_right record_not_mem_pointerKeysAt, mem_append, hgroup,
      mem_filter, hplace]
    simp [structuredLayout]
  · rw [mem_append, mem_pointerKeysAt, mem_append, mem_filter, mem_filter]
    constructor
    · rintro (⟨place, hplace, hptr⟩ | ⟨-, hfound⟩ | ⟨-, hfound⟩)
      · obtain ⟨hname, huser, hdev, hid⟩ := mem_pointerKeys.mp hptr
        exact ⟨hname, place, decide_eq_true ((hgroup place).mp hplace).2, huser, hdev, hid⟩
      · cases hfound
      · cases hfound
    · rintro ⟨hname, place, hplace, huser, hdev, hid⟩
      exact .inl ⟨place, (hgroup place).mpr ⟨isSome_of_mem hid, of_decide_eq_true hplace⟩,
        mem_pointerKeys.mpr ⟨hname, huser, hdev, hid⟩⟩

/-- A write under a key of another kind. -/
theorem other {after : OrderedMap StorageKey (Row T StorageKey)}
    (hsame : ∀ key, (∃ place, key = .senderKeyRecord place) ∨
      (∃ id userId deviceId, key = .senderKeyIdPointer id userId deviceId) →
        after.get? key = rows.get? key) : Shows index after where
  records place := (hsame _ (.inl ⟨place, rfl⟩)).trans (hshows.records place)
  pointers id userId deviceId :=
    (hsame _ (.inr ⟨id, userId, deviceId, rfl⟩)).trans (hshows.pointers id userId deviceId)

theorem removesOthers (keys : List StorageKey)
    (hkeys : ∀ key ∈ keys, ∃ groupId senderId device id chainIndex,
      key = .skippedSenderKey groupId senderId device id chainIndex) :
    Shows index ((keys.map .remove).foldl (writeRow structuredLayout) rows) := by
  refine hshows.other fun key hkey => ?_
  rw [get?_removes, if_neg]
  intro hmem
  obtain ⟨_, _, _, _, _, rfl⟩ := hkeys key hmem
  rcases hkey with ⟨_, ⟨⟩⟩ | ⟨_, _, _, ⟨⟩⟩

theorem writes {writes : List (Write T StorageKey)}
    (hwrites : ∀ write ∈ writes, ∀ rows, Shows index rows →
      Shows index (writeRow structuredLayout rows write)) :
    Shows index (writes.foldl (writeRow structuredLayout) rows) := by
  induction writes generalizing rows with
  | nil => exact hshows
  | cons write writes ih =>
    exact ih (hwrites write mem_cons_self rows hshows) fun other hother =>
      hwrites other (mem_cons_of_mem _ hother)

theorem prune (groupId senderId : String) (device maxCount : ℕ) :
    Shows index (writeRow structuredLayout rows
      (.pruneSkippedSenderKeys groupId senderId device maxCount)) := by
  let found := rows.keys.filter (structuredLayout.inSkippedSender groupId senderId device)
  have hrem := hshows.removesOthers
    ((byChainIndex structuredLayout found).take (found.length - maxCount)) fun key hkey => by
      have hfound := (mem_filter.mp ((mem_insertionSort _).mp (mem_of_mem_take hkey))).2
      cases key
      case skippedSenderKey => exact ⟨_, _, _, _, _, rfl⟩
      all_goals cases hfound
  rw [foldl_map] at hrem
  exact hrem

variable (place : SenderKeyPlace)

theorem receiveWrites (receive : SenderKeyReceiveCommit) :
    Shows index ((KeyValue.receiveWrites structuredLayout place receive).foldl
      (writeRow structuredLayout) rows) := by
  refine hshows.writes fun write hwrite rows hrows => ?_
  rw [KeyValue.receiveWrites, mem_append, mem_flatMap, mem_map] at hwrite
  rcases hwrite with ⟨skipped, -, hwrite⟩ | ⟨consumed, -, rfl⟩
  · rcases mem_cons.mp hwrite with rfl | hwrite
    · exact hrows.prune _ _ _ _
    · obtain rfl := mem_singleton.mp hwrite
      refine hrows.other fun key hkey => get?_set_of_ne _ _ ?_
      rintro rfl
      rcases hkey with ⟨_, ⟨⟩⟩ | ⟨_, _, _, ⟨⟩⟩
  · refine hrows.removesOthers [_] fun key hkey => ?_
    exact ⟨_, _, _, _, _, mem_singleton.mp hkey⟩

theorem received (receive : Option SenderKeyReceiveCommit) :
    Shows index ((receive.elim [] (KeyValue.receiveWrites structuredLayout place)).foldl
      (writeRow structuredLayout) rows) := by
  cases receive with
  | none => exact hshows
  | some receive => exact hshows.receiveWrites place receive

end

/-- The write of a record, the removals of dropped pointers before it and the new ones after it. -/
theorem get?_written (place : SenderKeyPlace) (dropped retained : List String)
    (row : Row T StorageKey) (key : StorageKey) :
    ((retained.map fun id => (.set (pointerKey structuredLayout place id)
        (.pointer (structuredLayout.key (.senderKeyRecord place))) : Write T StorageKey)).foldl
      (writeRow structuredLayout) (writeRow structuredLayout
        ((dropped.map fun id =>
          (.remove (pointerKey structuredLayout place id) : Write T StorageKey)).foldl
            (writeRow structuredLayout) rows)
        (.set (structuredLayout.key (.senderKeyRecord place)) row))).get? key =
      if key ∈ retained.map (pointerKey structuredLayout place) then
        some (.pointer (.senderKeyRecord place))
      else if key = .senderKeyRecord place then some row
      else if key ∈ dropped.map (pointerKey structuredLayout place) then none
      else rows.get? key := by
  have hsets (rows : OrderedMap StorageKey (Row T StorageKey)) := get?_sets structuredLayout rows
    (retained.map (pointerKey structuredLayout place)) (.pointer (.senderKeyRecord place)) key
  have hremoves := get?_removes structuredLayout rows
    (dropped.map (pointerKey structuredLayout place)) key
  rw [map_map] at hremoves
  simp only [map_map] at hsets
  refine (hsets _).trans ?_
  congr 1
  refine (get?_set ..).trans ?_
  congr 1

variable {place : SenderKeyPlace}

theorem mem_pointers {ids : List String} :
    .senderKeyIdPointer id userId deviceId ∈ ids.map (pointerKey structuredLayout place) ↔
      id ∈ ids ∧ userId = place.userId ∧ deviceId = place.deviceId := by
  rw [mem_map]
  constructor
  · rintro ⟨other, hother, hkey⟩
    cases hkey
    exact ⟨hother, rfl, rfl⟩
  · rintro ⟨hid, rfl, rfl⟩
    exact ⟨id, hid, rfl⟩

variable {states : List SenderKeyState}

theorem written (hshows : Shows index rows)
    {after : OrderedMap StorageKey (Row T StorageKey)} {dropped retained : List String}
    (hdropped : ∀ id, id ∈ dropped ↔
      id ∈ index.ids place ∧ id ≠ "" ∧ id ∉ senderKeyIds (some states))
    (hretain : ∀ id, id ∈ retained ↔ id ∈ senderKeyIds (some states) ∧ id ≠ "")
    (hafter : ∀ key, after.get? key =
      if key ∈ retained.map (pointerKey structuredLayout place) then
        some (.pointer (.senderKeyRecord place))
      else if key = .senderKeyRecord place then some (.senderKeys states)
      else if key ∈ dropped.map (pointerKey structuredLayout place) then none
      else rows.get? key) :
    Shows (index.write (· = place) (some states) place.groupId) after where
  records other := by
    have hrec (ids : List String) :
        StorageKey.senderKeyRecord other ∉ ids.map (pointerKey structuredLayout place) := by
      rw [mem_map]
      rintro ⟨_, -, ⟨⟩⟩
    rw [hafter, if_neg (hrec _), if_neg (hrec _), hshows.records, SenderKeyIndex.write]
    by_cases hother : other = place <;> simp [hother]
  pointers id userId deviceId := by
    rw [hafter, hshows.pointers, SenderKeyIndex.write]
    simp only [mem_pointers, hdropped, hretain, SenderKeyIndex.WritesPointer,
      decide_eq_true_eq, exists_eq_left, reduceCtorEq, if_false]
    by_cases hsender : userId = place.userId ∧ deviceId = place.deviceId
    · obtain ⟨rfl, rfl⟩ := hsender
      by_cases hname : id = "" <;> by_cases hnew : id ∈ senderKeyIds (some states) <;>
        by_cases hold : id ∈ index.ids place <;> simp [hname, hnew, hold]
    · have hother : ¬ (place.userId = userId ∧ place.deviceId = deviceId) :=
        fun hsame => hsender ⟨hsame.1.symm, hsame.2.symm⟩
      rw [if_neg fun hkey => hsender hkey.2, if_neg fun hkey => hsender hkey.2,
        if_neg fun hkey => hother ⟨hkey.2.1, hkey.2.2.1⟩,
        if_neg fun hkey => hother ⟨hkey.2.1, hkey.2.2.1⟩]

theorem storeSenderKeyRecord (hshows : Shows index rows) (place : SenderKeyPlace)
    (hstates : states ≠ []) (receive : Option SenderKeyReceiveCommit) :
    ∃ after, KeyValue.storeSenderKeyRecord structuredLayout place states receive rows =
      .ok ⟨⟩ after ∧ Shows (index.write (· = place) (some states) place.groupId) after := by
  have hsome : ¬ states.isEmpty = true := by simpa using hstates
  rw [KeyValue.storeSenderKeyRecord, if_neg hsome,
    bind_apply_ok (hshows.getSenderKeyRecord place), atomicWrite_eq]
  refine ⟨_, rfl, ?_⟩
  rw [foldl_append, foldl_append, foldl_append]
  refine (hshows.written (fun id => ?_) (fun id => ?_) (get?_written place _ _ _)).received place
    receive
  · simp [SenderKeyIndex.ids, senderKeyIds]
  · simp [senderKeyIds]

end Shows

/-- The calls on sender keys, at any group, sender, id and states. -/
inductive SenderKeyCall where
  | storeSenderKeyRecord (place : SenderKeyPlace) (states : List SenderKeyState)
      (receive : Option SenderKeyReceiveCommit)
  | deleteSenderKey (place : SenderKeyPlace)
  | deleteAllSenderKeysForGroup (groupId : String)
  | resolveGroupForSenderKeyId (senderKeyId userId : String) (deviceId : ℕ)

namespace SenderKeyCall

def operation : SenderKeyCall → Operation T
  | storeSenderKeyRecord place states receive => .storeSenderKeyRecord place states receive
  | deleteSenderKey place => .deleteSenderKey place
  | deleteAllSenderKeysForGroup groupId => .deleteAllSenderKeysForGroup groupId
  | resolveGroupForSenderKeyId senderKeyId userId deviceId =>
    .resolveGroupForSenderKeyId senderKeyId userId deviceId

end SenderKeyCall

section Layouts

variable {K : Type} [DecidableEq K] (L : KeyLayout K)

/-- The ids of the states of a stored record. -/
def heldIds (rows : OrderedMap K (Row T K)) (place : SenderKeyPlace) : List String :=
  senderKeyIds ((rows.get? (L.key (.senderKeyRecord place))).bind Row.senderKeys?)

def Unshared (rows : OrderedMap K (Row T K)) (place : SenderKeyPlace) (id : String) : Prop :=
  ∀ groupId ≠ place.groupId, id ∉ heldIds L rows ⟨groupId, place.userId, place.deviceId⟩

/-- The ids that the call takes from a record are in no other record of their sender, and the
identifiers of a stored record are not empty. -/
def SenderKeyCall.KeepsPointers (rows : OrderedMap K (Row T K)) : SenderKeyCall → Prop
  | storeSenderKeyRecord place states _ => states = [] ∨
      (place.groupId ≠ "" ∧ place.userId ≠ "" ∧ "" ∉ senderKeyIds (some states) ∧
        ∀ id ∈ heldIds L rows place, id ∉ senderKeyIds (some states) → Unshared L rows place id)
  | deleteSenderKey place => ∀ id ∈ heldIds L rows place, Unshared L rows place id
  | deleteAllSenderKeysForGroup groupId => ∀ userId deviceId,
      ∀ id ∈ heldIds L rows ⟨groupId, userId, deviceId⟩,
        Unshared L rows ⟨groupId, userId, deviceId⟩ id
  | resolveGroupForSenderKeyId _ _ _ => True

end Layouts

variable (rules : StoreRules T)

/-- Every call of the run meets the condition on the rows before it. -/
def RunKeepsPointers : List SenderKeyCall → OrderedMap KeyText (Row T KeyText) → Prop
  | [], _ => True
  | call :: calls, texts =>
    call.KeepsPointers textLayout texts ∧
      RunKeepsPointers calls (finalState (call.operation.run textLayout rules texts))

/-- The rows after a run of calls on an empty backend. -/
def senderKeyRows (calls : List SenderKeyCall) : OrderedMap KeyText (Row T KeyText) :=
  (runOperations textLayout rules (calls.map (·.operation)) ∅).2

/-! ## Runs -/

structure Indexed (index : SenderKeyIndex) (texts : OrderedMap KeyText (Row T KeyText)) : Prop where
  exact : index.Exact
  rows : ∃ rows : OrderedMap StorageKey (Row T StorageKey), Renders rows texts ∧ Shows index rows

namespace Indexed

variable {index : SenderKeyIndex} {texts : OrderedMap KeyText (Row T KeyText)} {rules}

theorem heldIds_eq (hindexed : Indexed index texts) (place : SenderKeyPlace) :
    heldIds textLayout texts place = index.ids place := by
  obtain ⟨-, rows, hrenders, hshows⟩ := hindexed
  have hget := hrenders.get? (rfl : (StorageKey.senderKeyRecord place).Stored)
  rw [heldIds, show textLayout.key (.senderKeyRecord place) =
    (StorageKey.senderKeyRecord place).text from rfl, hget, hshows.records, SenderKeyIndex.ids]
  cases index.records place <;> rfl

theorem unshared (hindexed : Indexed index texts) {place other : SenderKeyPlace} {id : String}
    (hunshared : Unshared textLayout texts place id) (hother : other ≠ place)
    (huser : other.userId = place.userId) (hdev : other.deviceId = place.deviceId) :
    id ∉ index.ids other := by
  rw [← hindexed.heldIds_eq]
  obtain ⟨groupId, userId, deviceId⟩ := other
  obtain rfl : userId = place.userId := huser
  obtain rfl : deviceId = place.deviceId := hdev
  refine hunshared groupId ?_
  rintro rfl
  exact hother rfl

theorem place?_text {place : SenderKeyPlace} (hgroup : place.groupId ≠ "")
    (huser : place.userId ≠ "") :
    (parseSenderKeyRecordStorageKey (StorageKey.senderKeyRecord place).text) = some place := by
  have hparse := senderKeyPlace?_text place
  rw [if_neg (not_or.mpr ⟨hgroup, huser⟩)] at hparse
  exact hparse

theorem keepsApart (hindexed : Indexed index texts) (call : SenderKeyCall) :
    (call.operation : Operation T).KeepsApart texts := by
  obtain ⟨hexact, rows, hrenders, hshows⟩ := hindexed
  cases call with
  | storeSenderKeyRecord | deleteSenderKey => trivial
  | deleteAllSenderKeysForGroup groupId =>
    intro recordKey hmem hstarts
    rw [hrenders.image.keys, mem_map] at hmem
    obtain ⟨key, hkey, rfl⟩ := hmem
    have hgroup := (inSenderKeyGroup_text groupId (hrenders.stored key hkey)).symm.trans hstarts
    cases key
    case senderKeyRecord place =>
      obtain ⟨hgroup, huser⟩ := hexact.places place (hshows.mem_keys.mp hkey)
      rw [place?_text hgroup huser]
      rfl
    all_goals cases hgroup
  | resolveGroupForSenderKeyId senderKeyId userId deviceId =>
    intro recordKey hget
    have hptr := hrenders.get?
      (rfl : (StorageKey.senderKeyIdPointer senderKeyId userId deviceId).Stored)
    rw [hshows.pointers] at hptr
    have hfound := hptr.symm.trans hget
    cases hgroup : index.pointers senderKeyId userId deviceId with
    | none =>
      rw [hgroup] at hfound
      cases hfound
    | some groupId =>
      rw [hgroup] at hfound
      cases hfound
      obtain ⟨hgroup, huser⟩ := hexact.places _ (isSome_of_mem (hexact.sound _ _ _ _ hgroup))
      change (parseSenderKeyRecordStorageKey (StorageKey.senderKeyRecord _).text).isSome
      rw [place?_text hgroup huser]
      rfl

theorem resolve_structured {rows : OrderedMap StorageKey (Row T StorageKey)}
    (hexact : index.Exact) (hshows : Shows index rows) (senderKeyId userId : String)
    (deviceId : ℕ) :
    resolveGroupForSenderKeyId structuredLayout senderKeyId userId deviceId rows =
      .ok (index.pointers senderKeyId userId deviceId) rows := by
  have hptr := hshows.pointers senderKeyId userId deviceId
  cases hgroup : index.pointers senderKeyId userId deviceId with
  | none =>
    rw [hgroup] at hptr
    rw [resolveGroupForSenderKeyId]
    split
    · rfl
    · exact bind_apply_ok (readRow_none hptr)
  | some groupId =>
    rw [hgroup] at hptr
    have hid := hexact.sound _ _ _ _ hgroup
    have hname : senderKeyId ≠ "" := fun hempty => hexact.named _ (hempty ▸ hid)
    have hread : readRow Row.pointer? (structuredLayout.key
        (.senderKeyIdPointer senderKeyId userId deviceId)) rows =
          .ok (some (.senderKeyRecord ⟨groupId, userId, deviceId⟩)) rows :=
      readRow_some hptr rfl
    rw [resolveGroupForSenderKeyId, if_neg hname, bind_apply_ok hread]
    change (if userId ≠ userId ∨ deviceId ≠ deviceId then _ else _ : StoreM T StorageKey _) rows = _
    rw [if_neg (by simp), bind_apply_ok (hshows.getSenderKeyRecord _), if_pos]
    · rfl
    · rw [SenderKeyIndex.ids, senderKeyIds, mem_map] at hid
      cases hrec : index.records ⟨groupId, userId, deviceId⟩ with
      | none =>
        rw [hrec] at hid
        obtain ⟨_, ⟨⟩, -⟩ := hid
      | some states =>
        rw [hrec] at hid
        obtain ⟨state, hstate, hsame⟩ := hid
        exact any_eq_true.mpr ⟨state, hstate, decide_eq_true hsame⟩

theorem resolve (hindexed : Indexed index texts) (senderKeyId userId : String) (deviceId : ℕ) :
    resolveGroupForSenderKeyId textLayout senderKeyId userId deviceId texts =
      .ok (index.pointers senderKeyId userId deviceId) texts := by
  have happart := hindexed.keepsApart (.resolveGroupForSenderKeyId senderKeyId userId deviceId)
  obtain ⟨hexact, rows, hrenders, hshows⟩ := hindexed
  have hagree := resolveGroupForSenderKeyId_agree hrenders happart
  rw [resolve_structured hexact hshows] at hagree
  cases hres : resolveGroupForSenderKeyId textLayout senderKeyId userId deviceId texts with
  | error error after =>
    rw [hres] at hagree
    cases hagree
  | ok group after =>
    rw [hres] at hagree
    cases hagree with
    | ok hgroup hafter =>
      rw [← hgroup, OrderedMap.ext (hafter.image.trans hrenders.image.symm)]

/-- A call whose structured run shows an exact index. -/
theorem of_agree {α : Type} {next : SenderKeyIndex}
    {left : EStateM.Result String (OrderedMap StorageKey (Row T StorageKey)) α}
    {right : EStateM.Result String (OrderedMap KeyText (Row T KeyText)) α}
    (hagree : Agree Renders (· = ·) left right) {output : α}
    (hleft : ∃ after, left = .ok output after ∧ Shows next after) (hexact : next.Exact) :
    ∃ next, Indexed next (finalState right) := by
  obtain ⟨after, rfl, hshows⟩ := hleft
  cases hagree with
  | ok _ hafter => exact ⟨next, hexact, after, hafter, hshows⟩

theorem step (hindexed : Indexed index texts) (call : SenderKeyCall)
    (hkeeps : call.KeepsPointers textLayout texts) :
    ∃ next, Indexed next (finalState (call.operation.run textLayout rules texts)) := by
  have happart := hindexed.keepsApart call
  have hunshared := @unshared _ _ _ hindexed
  have hheld := hindexed.heldIds_eq
  obtain ⟨hexact, rows, hrenders, hshows⟩ := hindexed
  cases call with
  | storeSenderKeyRecord place states receive =>
    rw [SenderKeyCall.operation, Operation.run, finalState_map]
    have hagree := storeSenderKeyRecord_same place states receive rows texts hrenders
    rcases hkeeps with rfl | ⟨hgroup, huser, hnamed, hdropped⟩
    · exact of_agree hagree ⟨rows, rfl, hshows⟩ hexact
    · by_cases hstates : states = []
      · subst hstates
        exact of_agree hagree ⟨rows, rfl, hshows⟩ hexact
      · refine of_agree hagree (hshows.storeSenderKeyRecord place hstates receive)
          (hexact.write (fun _ other hother => ?_) hnamed ?_)
        · obtain rfl := of_decide_eq_true hother
          exact ⟨rfl, hgroup, huser⟩
        · intro written hwrote id hid hnew other hother
          obtain rfl := of_decide_eq_true hwrote
          rw [← hheld] at hid
          exact hunshared (hdropped id hid hnew) fun hsame => hother (decide_eq_true hsame)
  | deleteSenderKey place =>
    rw [SenderKeyCall.operation, Operation.run, finalState_map]
    refine of_agree (deleteSenderKey_same place rows texts hrenders)
      (hshows.deleteSenderKey place) (hexact.write ?_ not_mem_nil ?_)
    · rintro ⟨⟩
    · intro written hwrote id hid _ other hother
      obtain rfl := of_decide_eq_true hwrote
      rw [← hheld] at hid
      exact hunshared (hkeeps id hid) fun hsame => hother (decide_eq_true hsame)
  | deleteAllSenderKeysForGroup groupId =>
    rw [SenderKeyCall.operation, Operation.run, finalState_map]
    obtain ⟨count, hdeleted⟩ := hshows.deleteAllSenderKeysForGroup groupId
    refine of_agree (deleteAllSenderKeysForGroup_agree hrenders happart) hdeleted
      (hexact.write ?_ not_mem_nil ?_)
    · rintro ⟨⟩
    · rintro ⟨_, userId, deviceId⟩ hwrote id hid - other hother
      obtain rfl := of_decide_eq_true hwrote
      rw [← hheld] at hid
      refine hunshared (hkeeps userId deviceId id hid) fun hsame => hother ?_
      exact decide_eq_true (congrArg _ hsame)
  | resolveGroupForSenderKeyId senderKeyId userId deviceId =>
    rw [SenderKeyCall.operation, Operation.run, finalState_map]
    have hresolve := resolve ⟨hexact, rows, hrenders, hshows⟩ senderKeyId userId deviceId
    rw [hresolve]
    exact ⟨index, hexact, rows, hrenders, hshows⟩

end Indexed

theorem indexed_run (calls : List SenderKeyCall) (texts : OrderedMap KeyText (Row T KeyText))
    (index : SenderKeyIndex) (hindexed : Indexed index texts)
    (hkeeps : RunKeepsPointers rules calls texts) :
    ∃ index, Indexed index
      (runOperations textLayout rules (calls.map (·.operation)) texts).2 := by
  induction calls generalizing texts index with
  | nil => exact ⟨index, hindexed⟩
  | cons call calls ih =>
    obtain ⟨hcall, hrest⟩ := hkeeps
    obtain ⟨next, hnext⟩ := hindexed.step call hcall
    have hfinal := ih _ next hnext hrest
    rw [map_cons, runOperations]
    cases hres : call.operation.run textLayout rules texts <;> rw [hres] at hfinal <;>
      exact hfinal

/-- In every run of sender key calls that meet the condition, an id of a sender finds a group
exactly when a record of the sender has a state with the id, and the record of that group has it. -/
theorem senderKeyId_resolves (calls : List SenderKeyCall)
    (hkeeps : RunKeepsPointers rules calls (∅ : OrderedMap KeyText (Row T KeyText)))
    (senderKeyId userId : String) (deviceId : ℕ) :
    ∃ group, resolveGroupForSenderKeyId textLayout senderKeyId userId deviceId
        (senderKeyRows rules calls) = .ok group (senderKeyRows rules calls) ∧
      (group.isSome ↔ ∃ groupId, senderKeyId ∈ heldIds textLayout (senderKeyRows rules calls)
        ⟨groupId, userId, deviceId⟩) ∧
      ∀ groupId, group = some groupId → senderKeyId ∈ heldIds textLayout (senderKeyRows rules calls)
        ⟨groupId, userId, deviceId⟩ := by
  obtain ⟨index, hindexed⟩ := indexed_run rules calls ∅ {}
    ⟨.empty, ∅, .empty, .empty⟩ hkeeps
  change Indexed index (senderKeyRows rules calls) at hindexed
  refine ⟨_, hindexed.resolve senderKeyId userId deviceId, ⟨fun hgroup => ?_, ?_⟩,
    fun groupId hgroup => ?_⟩
  · obtain ⟨groupId, hpointer⟩ := Option.isSome_iff_exists.mp hgroup
    exact ⟨groupId, hindexed.heldIds_eq _ ▸ hindexed.exact.sound _ _ _ _ hpointer⟩
  · rintro ⟨groupId, hid⟩
    rw [hindexed.heldIds_eq] at hid
    exact hindexed.exact.complete _ _ hid
  · rw [hindexed.heldIds_eq]
    exact hindexed.exact.sound _ _ _ _ hgroup

def storedCalls : List SenderKeyCall :=
  [.storeSenderKeyRecord ⟨"red", "bob", 1⟩ [⟨"key", "chain"⟩] none,
    .resolveGroupForSenderKeyId "key" "bob" 1]

theorem senderKeyId_resolves_stored :
    ∃ group, resolveGroupForSenderKeyId textLayout "key" "bob" 1
        (senderKeyRows exampleRules storedCalls) =
          .ok group (senderKeyRows exampleRules storedCalls) ∧
      (group.isSome ↔ ∃ groupId, "key" ∈ heldIds textLayout
        (senderKeyRows exampleRules storedCalls) ⟨groupId, "bob", 1⟩) ∧
      ∀ groupId, group = some groupId → "key" ∈ heldIds textLayout
        (senderKeyRows exampleRules storedCalls) ⟨groupId, "bob", 1⟩ := by
  refine senderKeyId_resolves exampleRules storedCalls
    ⟨.inr ⟨by decide, by decide, by decide, ?_⟩, trivial, trivial⟩ "key" "bob" 1
  rintro _ ⟨⟩

/-- Two groups with one id of one sender. -/
def sharedCalls : List SenderKeyCall :=
  [.storeSenderKeyRecord ⟨"red", "bob", 1⟩ [⟨"key", "chain"⟩] none,
    .storeSenderKeyRecord ⟨"blue", "bob", 1⟩ [⟨"key", "chain"⟩] none,
    .deleteSenderKey ⟨"blue", "bob", 1⟩]

/-- The deletion of one record removes the pointer that the other needs. -/
theorem deletion_hides_other_record :
    resolveGroupForSenderKeyId textLayout "key" "bob" 1 (senderKeyRows exampleRules sharedCalls) =
        .ok none (senderKeyRows exampleRules sharedCalls) ∧
      "key" ∈ heldIds textLayout (senderKeyRows exampleRules sharedCalls) ⟨"red", "bob", 1⟩ := by
  constructor
  · rfl
  · decide

end SignalProtocol.KeyValue

import SignalProtocol.Proof.DeviceListSync

/-! # A sync reaches its list

The syncs of one user run one after the other under the sync lock, so the stored devices and the
version are those of the last list. -/

namespace SignalProtocol.Sesame

open List OrderedMap

variable {store before after : UserStore} {deviceId : DeviceId} {now : ℤ}
variable {identityKey : IdentityKey} {maxInactiveSessions : ℕ} {task : SyncTask}

namespace DeviceListResponse

variable {response : DeviceListResponse} {devices : OrderedMap DeviceId IdentityKey}

theorem listDevice_eq_ok {next : OrderedMap DeviceId IdentityKey}
    (hnext : response.listDevice devices deviceId = .ok next) :
    next = devices.set deviceId (response.listedKey deviceId) ∧
      Canonical (response.listedKey deviceId) := by
  obtain ⟨key, hkey, hset⟩ := Results.bind_eq_ok_iff.mp hnext
  obtain ⟨rfl, hcanon⟩ := canonicalize_eq_ok hkey
  cases hset
  exact ⟨rfl, hcanon⟩

theorem get?_devices (hdevs : response.devices = .ok devices) (deviceId : DeviceId) :
    devices.get? deviceId =
      if deviceId ∈ response.deviceIds then some (response.listedKey deviceId) else none := by
  have hfold := Results.foldlM_view (fun devices => devices)
    (fun devices deviceId next hnext => (listDevice_eq_ok hnext).1) hdevs
  have hpairs : devices = (response.deviceIds.map fun deviceId =>
      (deviceId, response.listedKey deviceId)).foldl
        (fun devices entry => devices.set entry.1 entry.2) ∅ := by
    rw [foldl_map]
    exact hfold
  rw [hpairs, get?_foldl_set response.listedKey]
  · simp [map_map, Function.comp_def]
  · intro entry hentry
    obtain ⟨listed, -, rfl⟩ := mem_map.mp hentry
    rfl

theorem canonical_devices (hdevs : response.devices = .ok devices) {key : IdentityKey}
    (hkey : devices.get? deviceId = some key) : Canonical key := by
  refine Results.foldlM_keeps (fun devices => ∀ deviceId key,
    devices.get? deviceId = some key → Canonical key) ?_ ?_ hdevs deviceId key hkey
  · intro devices entry next _ hcanon hnext deviceId key hget
    obtain ⟨rfl, hentry⟩ := listDevice_eq_ok hnext
    rw [get?_set] at hget
    split at hget
    case isTrue =>
      cases hget
      exact hentry
    case isFalse => exact hcanon deviceId key hget
  · rintro deviceId key ⟨⟩

/-- The ids that devices can have. -/
def InRange (response : DeviceListResponse) : Prop :=
  ∀ deviceId ∈ response.deviceIds, MIN_DEVICE_ID ≤ deviceId ∧ deviceId ≤ MAX_DEVICE_ID

theorem InRange.valid (hrange : response.InRange) (hdevs : response.devices = .ok devices) :
    ∀ entry ∈ devices.entries, MIN_DEVICE_ID ≤ entry.1 ∧ entry.1 ≤ MAX_DEVICE_ID ∧
      Canonical entry.2 := by
  intro entry hentry
  have hget := (get?_eq_some_iff devices entry.1 entry.2).mpr hentry
  have hlist : entry.1 ∈ response.deviceIds := by
    rw [get?_devices hdevs] at hget
    split at hget
    case isTrue hlist => exact hlist
    case isFalse => cases hget
  obtain ⟨hlow, hhigh⟩ := hrange entry.1 hlist
  exact ⟨hlow, hhigh, canonical_devices hdevs hget⟩

end DeviceListResponse

/-- The stored devices are those of the list, and so is the version. -/
structure ReachesList (maxInactiveSessions : ℕ) (response : DeviceListResponse)
    (before after : UserStore) : Prop where
  listed : ∀ deviceId, (∃ device, after.storedDevice deviceId = some device ∧
    isRemovedDevice device = false) ↔ deviceId ∈ response.deviceIds
  version : ∀ version, response.version = some version → after.version = some version
  rekeyed : ∀ deviceId key device now, deviceId ∈ response.deviceIds →
    response.identityKeys.get? deviceId = some key → key ≠ [] →
    before.getDeviceRecord deviceId now = some device →
    compareDeviceIdentityKeys device.identityKey key = .changed →
    ∃ stored, after.storedDevice deviceId = some stored ∧ stored.identityKey = key ∧
      stored.pendingVerification = true ∧
      ∀ record, after.sessions deviceId = some record → record.currentSession = none
  archived : ∀ deviceId record key session, before.sessions deviceId = some record →
    record.archivedSessions.get? key = some session →
    (∀ current, record.currentSession = some current →
      current.baseKey ≠ key ∧ record.archivedSessions.size < maxInactiveSessions) →
    ∃ kept, after.sessions deviceId = some kept ∧ kept.archivedSessions.get? key = some session

theorem syncedView_listed (maxInactiveSessions : ℕ) (listed : Option IdentityKey)
    (device : Option DeviceView) :
    (syncedView maxInactiveSessions listed device).any (fun view => !view.removed) =
      listed.isSome := by
  unfold syncedView
  cases listed with
  | some key =>
    split
    case isTrue hneeds =>
      cases device with
      | none => cases hneeds
      | some device => rfl
    case isFalse =>
      cases device <;> rfl
  | none =>
    cases device with
    | none => rfl
    | some device =>
      cases hrem : device.removed with
      | false => simp [needsReplacement, replacedView, hrem]
      | true => simp [needsReplacement, hrem]

theorem syncedView_session (maxInactiveSessions : ℕ) (listed : Option IdentityKey)
    (device : DeviceView) :
    ∃ view, syncedView maxInactiveSessions listed (some device) = some view ∧
      (view.session = device.session ∨
        view.session = archiveCurrentIndexed device.session maxInactiveSessions) := by
  unfold syncedView
  split
  case isTrue => exact ⟨_, rfl, .inr rfl⟩
  case isFalse =>
    cases listed with
    | none => exact ⟨_, rfl, .inl rfl⟩
    | some key => exact ⟨_, rfl, .inl rfl⟩

theorem currentSession_archived {session : Option SessionRecord} {record : SessionRecord}
    (hrec : archiveCurrentIndexed session maxInactiveSessions = some record) :
    record.currentSession = none := by
  unfold archiveCurrentIndexed at hrec
  obtain ⟨before, -, rfl⟩ := Option.map_eq_some_iff.mp hrec
  split
  case isTrue hnone => exact Option.isNone_iff_eq_none.mp hnone
  case isFalse => rfl

theorem size_insertArchived_le (archived : OrderedMap BaseKey SessionState)
    (session : SessionState) : (insertArchived archived session).size ≤ archived.size + 1 := by
  unfold insertArchived
  have hfresh : session.baseKey ∉ (archived.erase session.baseKey).keys := by
    rw [mem_keys_erase]
    exact fun hboth => hboth.1 rfl
  rw [size_set_of_not_mem _ _ hfresh]
  exact Nat.succ_le_succ (length_filter_le _ _)

theorem archiveCurrent_get? {record : SessionRecord} {current session : SessionState}
    {key : BaseKey} (hcur : record.currentSession = some current)
    (hkey : current.baseKey ≠ key) (hroom : record.archivedSessions.size < maxInactiveSessions)
    (hget : record.archivedSessions.get? key = some session) :
    (record.archiveCurrent none maxInactiveSessions).archivedSessions.get? key = some session := by
  unfold SessionRecord.archiveCurrent
  rw [hcur]
  dsimp only
  have hsize := size_insertArchived_le record.archivedSessions (withoutPendingPreKey current)
  unfold dropOldest
  rw [Nat.sub_eq_zero_of_le (by omega), List.take_zero, get?_filterKeys]
  have hother : key ≠ (withoutPendingPreKey current).baseKey := Ne.symm hkey
  unfold insertArchived
  rw [get?_set_of_ne _ _ hother, get?_erase, if_neg hother]
  simpa using hget

theorem Synced.reaches {response : DeviceListResponse} {devices : OrderedMap DeviceId IdentityKey}
    (hready : before.Ready) (hdevs : response.devices = .ok devices)
    (hsynced : Synced maxInactiveSessions devices response.version before after) :
    ReachesList maxInactiveSessions response before after := by
  have hget := DeviceListResponse.get?_devices hdevs
  refine ⟨?_, ?_, ?_, ?_⟩
  · intro deviceId
    have hlist := syncedView_listed maxInactiveSessions (devices.get? deviceId)
      (before.view deviceId)
    rw [← hsynced.view, hget] at hlist
    unfold UserStore.view at hlist
    by_cases hmem : deviceId ∈ response.deviceIds
    · rw [if_pos hmem] at hlist
      cases hstored : after.storedDevice deviceId with
      | none =>
        rw [hstored] at hlist
        cases hlist
      | some device =>
        rw [hstored] at hlist
        simpa [DeviceRecord.joinedView, hmem] using hlist
    · rw [if_neg hmem] at hlist
      cases hstored : after.storedDevice deviceId with
      | none => simp [hmem]
      | some device =>
        rw [hstored] at hlist
        simpa [DeviceRecord.joinedView, hmem] using hlist
  · intro version hver
    rw [hsynced.version, hver, Option.some_or]
  · intro deviceId key device now hmem hkey hlist hdev hchange
    have hlistedKey : devices.get? deviceId = some key := by
      rw [hget, if_pos hmem]
      unfold DeviceListResponse.listedKey
      rw [hkey, Option.getD_some]
    have hneeds : needsReplacement (some key) (some device.view) = true :=
      decide_eq_true ⟨hlist, hchange⟩
    have hview := hsynced.view deviceId
    rw [hlistedKey, hready.view_of_get hdev] at hview
    unfold syncedView at hview
    rw [if_pos hneeds, Option.map_some] at hview
    obtain ⟨stored, hstored, hjoined⟩ := Option.map_eq_some_iff.mp hview
    have hsess : after.sessions deviceId =
        archiveCurrentIndexed device.session maxInactiveSessions :=
      congrArg DeviceView.session hjoined
    have hident : joinedIdentity stored.identityKey (after.sessions deviceId) = key :=
      congrArg DeviceView.identityKey hjoined
    have hpend : stored.pendingVerification = (device.pendingVerification || true) :=
      congrArg DeviceView.pendingVerification hjoined
    have hnone : ∀ record, after.sessions deviceId = some record → record.currentSession = none :=
      fun record hrec => currentSession_archived (hsess ▸ hrec)
    refine ⟨stored, hstored, ?_, hpend.trans (Bool.or_true _), hnone⟩
    by_cases hpinned : stored.identityKey = []
    · rw [hpinned] at hident
      unfold joinedIdentity at hident
      cases hrec : after.sessions deviceId with
      | none =>
        rw [hrec] at hident
        exact absurd hident.symm hlist
      | some record =>
        rw [hrec, Option.bind_some, hnone record hrec] at hident
        exact absurd hident.symm hlist
    · rw [joinedIdentity_of_ne hpinned] at hident
      exact hident
  · intro deviceId record key session hrec harchived hroom
    obtain ⟨device, hstored⟩ : ∃ device, before.storedDevice deviceId = some device := by
      rw [← Option.ne_none_iff_exists']
      intro hnone
      rw [hready.paired deviceId hnone] at hrec
      cases hrec
    have hbefore : before.view deviceId = some (device.joinedView (some record)) := by
      unfold UserStore.view
      rw [hstored, hrec, Option.map_some]
    obtain ⟨view, hview, hsess⟩ := syncedView_session maxInactiveSessions
      (devices.get? deviceId) (device.joinedView (some record))
    have hafter : after.sessions deviceId = view.session := by
      rw [← hbefore, ← hsynced.view] at hview
      obtain ⟨stored, -, rfl⟩ := Option.map_eq_some_iff.mp hview
      rfl
    rw [hafter]
    rcases hsess with hsame | harchive
    · exact ⟨record, hsame, harchived⟩
    · rw [harchive]
      cases hcur : record.currentSession with
      | none =>
        refine ⟨record, ?_, harchived⟩
        unfold archiveCurrentIndexed DeviceRecord.joinedView
        rw [Option.map_some, hcur]
        rfl
      | some current =>
        obtain ⟨hkey, hsize⟩ := hroom current hcur
        refine ⟨record.archiveCurrent none maxInactiveSessions, ?_,
          archiveCurrent_get? hcur hkey hsize harchived⟩
        unfold archiveCurrentIndexed DeviceRecord.joinedView
        rw [Option.map_some, hcur]
        rfl

theorem syncDeviceListLocked_reaches {response : DeviceListResponse}
    {devices : OrderedMap DeviceId IdentityKey} (hready : store.Ready)
    (hrange : response.InRange) (hdevs : response.devices = .ok devices) (now : ℤ) :
    ∃ after, syncDeviceListLocked response maxInactiveSessions now store = .ok () after ∧
      ReachesList maxInactiveSessions response store after := by
  obtain ⟨listed, replaced, hrun, hreplacing⟩ := hready.syncUserLocked response.userId now
    maxInactiveSessions (hrange.valid hdevs)
  have hreplaced : ∀ rest, ∀ between, Replacing maxInactiveSessions devices store between rest →
      Replacing maxInactiveSessions devices store
        (rest.foldl (fun store deviceId =>
          store.replaceListedDeviceLocked deviceId (devices.get? deviceId) maxInactiveSessions now)
          between) [] := by
    intro rest
    induction rest with
    | nil => exact fun _ hreplacing => hreplacing
    | cons deviceId rest ih => exact fun between hreplacing => ih _ (hreplacing.next now)
  have hsynced := (hreplaced replaced listed hreplacing).synced response.version now
  refine ⟨_, ?_, hsynced.reaches hready hdevs⟩
  unfold syncDeviceListLocked
  rw [hdevs]
  dsimp only
  rw [Results.bind_apply_ok hrun]
  rfl

namespace SyncWorld

variable {world : SyncWorld}

/-- A free lock has the list of the last sync, and a sync that holds it is on its way to its
list. -/
structure Sound (world : SyncWorld) (maxInactiveSessions : ℕ) : Prop where
  free : world.running = none → world.store.Ready ∧ ∀ task, world.completed = some task →
    ReachesList maxInactiveSessions task.response task.began world.store
  held : ∀ task, world.running = some task → task.began.Ready ∧ task.response.InRange ∧
    task.response.devices = .ok task.devices ∧
    (task.replacedDeviceIds = none → world.store = task.began) ∧
    ∀ rest, task.replacedDeviceIds = some rest →
      Replacing maxInactiveSessions task.devices task.began world.store rest

theorem Sound.of_synced (hbegan : task.began.Ready)
    (hdevs : task.response.devices = .ok task.devices)
    (hsynced : Synced maxInactiveSessions task.devices task.response.version task.began store) :
    Sound { store, running := none, completed := some task } maxInactiveSessions := by
  refine ⟨fun _ => ⟨hsynced.ready, ?_⟩, ?_⟩
  · rintro other ⟨⟩
    exact hsynced.reaches hbegan hdevs
  · rintro other ⟨⟩

section

variable (hsound : world.Sound maxInactiveSessions)

include hsound

theorem Sound.advance (hrunning : world.running = some task) (now : ℤ) :
    (world.advance task maxInactiveSessions now).Sound maxInactiveSessions := by
  obtain ⟨hbegan, hrange, hdevs, hfst, hreplacing⟩ := hsound.held task hrunning
  unfold SyncWorld.advance
  cases hphase : task.replacedDeviceIds with
  | none =>
    rw [hfst hphase]
    obtain ⟨listed, replaced, hrun, hreplacing⟩ := hbegan.syncUserLocked task.response.userId
      now maxInactiveSessions (hrange.valid hdevs)
    rw [hrun]
    refine ⟨?_, ?_⟩
    · rintro ⟨⟩
    · rintro other ⟨⟩
      refine ⟨hbegan, hrange, hdevs, ?_, ?_⟩
      · rintro ⟨⟩
      · rintro rest ⟨⟩
        exact hreplacing
  | some rest =>
    cases rest with
    | nil => exact .of_synced hbegan hdevs ((hreplacing [] hphase).synced _ now)
    | cons deviceId rest =>
      refine ⟨?_, ?_⟩
      · rintro ⟨⟩
      · rintro other ⟨⟩
        refine ⟨hbegan, hrange, hdevs, ?_, ?_⟩
        · rintro ⟨⟩
        · rintro rest ⟨⟩
          exact (hreplacing (deviceId :: rest) hphase).next now

theorem Sound.step {event : SyncEvent}
    (hevent : ∀ response, event = .call response → response.InRange) :
    (world.step maxInactiveSessions event).Sound maxInactiveSessions := by
  cases event with
  | call response =>
    unfold SyncWorld.step
    dsimp only
    cases hrunning : world.running with
    | some task => exact hsound
    | none =>
      cases hdevs : response.devices with
      | error error => exact hsound
      | ok devices =>
        refine ⟨?_, ?_⟩
        · rintro ⟨⟩
        · rintro task ⟨⟩
          refine ⟨(hsound.free hrunning).1, hevent response rfl, hdevs, fun _ => rfl, ?_⟩
          rintro rest ⟨⟩
  | advance now =>
    unfold SyncWorld.step
    cases hrunning : world.running with
    | none => exact hsound
    | some task => exact hsound.advance hrunning now

theorem Sound.run {events : List SyncEvent}
    (hevents : ∀ response, .call response ∈ events → response.InRange) :
    (world.run maxInactiveSessions events).Sound maxInactiveSessions := by
  induction events generalizing world with
  | nil => exact hsound
  | cons event events ih =>
    refine ih (hsound.step fun response hcall => ?_) fun response hmem =>
      hevents response (mem_cons_of_mem _ hmem)
    exact hevents response (hcall ▸ mem_cons_self)

end

/-- A user before any sync. -/
def start (store : UserStore) : SyncWorld := { store, running := none, completed := none }

end SyncWorld

/-- A user with device 1, and with sessions of the first devices. -/
def exampleUser (sessions : ℕ) : UserStore where
  user := some {
    devices := (∅ : OrderedMap DeviceId DeviceRecord).set 1
      { deviceId := 1, identityKey := [], session := none, createdAt := 0, updatedAt := 0 }
    createdAt := 0
    updatedAt := 0 }
  sessions := fun deviceId =>
    if 0 < deviceId ∧ deviceId ≤ sessions then
      some (exampleRecord (exampleSession "B" "0") [exampleSession "A" "0"])
    else none

def exampleList (deviceIds : List DeviceId) : DeviceListResponse where
  userId := "bob"
  deviceIds
  version := some 7
  identityKeys := ∅

/-- The store after a sync, and whether the sync ended with no error. -/
def syncedStore (response : DeviceListResponse) (maxInactiveSessions : ℕ) (store : UserStore) :
    Bool × UserStore :=
  match syncDeviceListLocked response maxInactiveSessions 1 store with
  | .ok _ after => (true, after)
  | .error _ after => (false, after)

theorem exampleUser_ready : (exampleUser 1).Ready := by
  have hstored : ∀ deviceId device, (exampleUser 1).storedDevice deviceId = some device →
      device.session = none ∧ device.deviceId = deviceId := by
    intro deviceId device hdev
    change OrderedMap.get? (OrderedMap.set ∅ 1 _) deviceId = _ at hdev
    rw [get?_set] at hdev
    split at hdev
    case isTrue hone =>
      cases hdev
      exact ⟨rfl, hone.symm⟩
    case isFalse => cases hdev
  refine ⟨fun deviceId device hdev => (hstored deviceId device hdev).1,
    fun deviceId device hdev => (hstored deviceId device hdev).2, ?_, Option.some_ne_none _⟩
  intro deviceId hnone
  change OrderedMap.get? (OrderedMap.set ∅ 1 _) deviceId = _ at hnone
  rw [get?_set] at hnone
  split at hnone
  case isTrue => cases hnone
  case isFalse hother =>
    refine if_neg ?_
    rintro ⟨hlow, hhigh⟩
    exact hother (Nat.le_antisymm hhigh hlow)

end SignalProtocol.Sesame

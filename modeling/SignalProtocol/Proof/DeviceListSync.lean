import SignalProtocol.Proof.SessionPersist

/-! # Views of devices

What a device list sync reads and writes of a device, and what the writes of the store do to it. -/

namespace SignalProtocol.Sesame

open OrderedMap Option

variable {store : UserStore} {deviceId : DeviceId} {now : ℤ} {maxInactiveSessions : ℕ}
  {user : UserRecord} (pinned : IdentityKey) (session : Option SessionRecord)

/-! ## Views of devices -/

@[ext]
structure DeviceView where
  identityKey : IdentityKey
  pendingVerification : Bool
  removed : Bool
  session : Option SessionRecord

def joinedIdentity (pinned : IdentityKey) (session : Option SessionRecord) : IdentityKey :=
  if pinned ≠ [] then pinned
  else (session.bind (·.currentSession)).elim UNPINNED_DEVICE_IDENTITY_KEY (·.remoteIdentity)

@[simp] theorem joinedIdentity_none :
    joinedIdentity pinned none = pinned := by
  unfold joinedIdentity
  split
  case isTrue => rfl
  case isFalse hpinned => exact (not_not.mp hpinned).symm

theorem joinedIdentity_of_ne {pinned : IdentityKey} (hpinned : pinned ≠ [])
    (session : Option SessionRecord) : joinedIdentity pinned session = pinned :=
  if_pos hpinned

@[simp] theorem joinedIdentity_joinedIdentity :
    joinedIdentity (joinedIdentity pinned session) session = joinedIdentity pinned session := by
  by_cases hident : joinedIdentity pinned session = []
  · have hpinned : pinned = [] := by
      by_contra hne
      exact hne ((joinedIdentity_of_ne hne session).symm.trans hident)
    subst hpinned
    rw [hident]
    exact hident
  · exact joinedIdentity_of_ne hident session

@[simp] theorem joinedIdentity_archived (maxInactiveSessions : ℕ) :
    joinedIdentity (joinedIdentity pinned session)
      (archiveCurrentIndexed session maxInactiveSessions) = joinedIdentity pinned session := by
  by_cases hident : joinedIdentity pinned session = []
  · rw [hident]
    cases session with
    | none => exact joinedIdentity_none []
    | some session =>
      unfold archiveCurrentIndexed
      rw [map_some]
      by_cases hcur : session.currentSession.isNone
      · have hnone := isNone_iff_eq_none.mp hcur
        simp [joinedIdentity, hnone, UNPINNED_DEVICE_IDENTITY_KEY]
      · simp [joinedIdentity, SessionRecord.archiveCurrent, hcur, UNPINNED_DEVICE_IDENTITY_KEY]
  · exact joinedIdentity_of_ne hident _

def DeviceRecord.view (record : DeviceRecord) : DeviceView where
  identityKey := record.identityKey
  pendingVerification := record.pendingVerification
  removed := isRemovedDevice record
  session := record.session

def DeviceRecord.joinedView (record : DeviceRecord) (session : Option SessionRecord) :
    DeviceView where
  identityKey := joinedIdentity record.identityKey session
  pendingVerification := record.pendingVerification
  removed := isRemovedDevice record
  session

namespace UserStore

def view (store : UserStore) (deviceId : DeviceId) : Option DeviceView :=
  (store.storedDevice deviceId).map fun device => device.joinedView (store.sessions deviceId)

def version (store : UserStore) : Option ℤ := store.user.bind (·.deviceListVersion)

/-- A user whose devices stand under their ids, and whose sessions are of stored devices. -/
structure Ready (store : UserStore) : Prop where
  stripped : store.Stripped
  keyed : ∀ deviceId device, store.storedDevice deviceId = some device → device.deviceId = deviceId
  paired : ∀ deviceId, store.storedDevice deviceId = none → store.sessions deviceId = none
  known : store.user ≠ none

theorem Ready.view_eq (hready : store.Ready) (deviceId : DeviceId) (now : ℤ) :
    (store.getDeviceRecord deviceId now).map DeviceRecord.view = store.view deviceId := by
  unfold getDeviceRecord withSession view
  cases hstored : store.storedDevice deviceId with
  | none =>
    rw [hready.paired deviceId hstored]
    rfl
  | some device =>
    cases hsess : store.sessions deviceId with
    | none =>
      have hnone := hready.stripped deviceId device hstored
      simp [DeviceRecord.view, DeviceRecord.joinedView, hnone]
    | some session => rfl

theorem Ready.view_of_get (hready : store.Ready) {device : DeviceRecord}
    (hdev : store.getDeviceRecord deviceId now = some device) :
    store.view deviceId = some device.view := by
  rw [← hready.view_eq deviceId now, hdev, map_some]

theorem Ready.deviceId_of_get (hready : store.Ready) {device : DeviceRecord}
    (hdev : store.getDeviceRecord deviceId now = some device) : device.deviceId = deviceId := by
  unfold getDeviceRecord withSession at hdev
  split at hdev
  · exact hready.keyed deviceId device hdev
  · cases hdev
    rfl

theorem view_joined {view : DeviceView} (hview : store.view deviceId = some view) :
    ∃ pinned, view.identityKey = joinedIdentity pinned view.session := by
  unfold UserStore.view at hview
  obtain ⟨device, -, rfl⟩ := map_eq_some_iff.mp hview
  exact ⟨device.identityKey, rfl⟩

structure Writes (before after : UserStore) (deviceId : DeviceId) (view : DeviceView) : Prop where
  ready : after.Ready
  version : after.version = before.version
  view : ∀ other, after.view other = if other = deviceId then some view else before.view other

theorem storedDevice_setDeviceRecord (store : UserStore) (deviceId other : DeviceId)
    (record : DeviceRecord) (now : ℤ) :
    (store.setDeviceRecord deviceId record now).storedDevice other =
      if other = deviceId then some { record with session := none }
      else store.storedDevice other := by
  unfold storedDevice setDeviceRecord
  rw [bind_some]
  dsimp only
  rw [get?_set]
  cases store.user <;> rfl

theorem sessions_setDeviceRecord_of_ne (store : UserStore) {other : DeviceId}
    (hother : other ≠ deviceId) (record : DeviceRecord) (now : ℤ) :
    (store.setDeviceRecord deviceId record now).sessions other = store.sessions other := by
  unfold setDeviceRecord
  cases record.session with
  | none => rfl
  | some session => exact Function.update_of_ne hother ..

section

variable (hready : store.Ready)

include hready

variable (record : DeviceRecord)

theorem Ready.setDeviceRecord (now : ℤ) (hdev : record.deviceId = deviceId) :
    Writes store (store.setDeviceRecord deviceId record now) deviceId
      { identityKey :=
          joinedIdentity record.identityKey (record.session.or (store.sessions deviceId))
        pendingVerification := record.pendingVerification
        removed := isRemovedDevice record
        session := record.session.or (store.sessions deviceId) } := by
  refine ⟨⟨hready.stripped.setDeviceRecord deviceId record now, ?_, ?_, ?_⟩, ?_, ?_⟩
  · intro other device hstored
    rw [storedDevice_setDeviceRecord] at hstored
    split at hstored
    case isTrue hother =>
      cases hstored
      exact hdev.trans hother.symm
    case isFalse => exact hready.keyed other device hstored
  · intro other hnone
    rw [storedDevice_setDeviceRecord] at hnone
    split at hnone
    case isTrue => cases hnone
    case isFalse hother =>
      rw [sessions_setDeviceRecord_of_ne store hother]
      exact hready.paired other hnone
  · exact some_ne_none _
  · obtain ⟨user, huser⟩ := ne_none_iff_exists'.mp hready.known
    unfold UserStore.version UserStore.setDeviceRecord
    rw [huser]
    rfl
  · intro other
    unfold UserStore.view
    rw [storedDevice_setDeviceRecord]
    split
    case isTrue hother =>
      subst hother
      rw [map_some, sessions_setDeviceRecord]
      rfl
    case isFalse hother => rw [sessions_setDeviceRecord_of_ne store hother]

theorem Ready.joinedIdentity_eq (maxInactiveSessions : ℕ)
    {device : DeviceRecord} (hdev : store.getDeviceRecord deviceId now = some device) :
    joinedIdentity device.identityKey device.session = device.identityKey ∧
      joinedIdentity device.identityKey
        (archiveCurrentIndexed device.session maxInactiveSessions) = device.identityKey := by
  obtain ⟨pinned, hpinned⟩ := view_joined (hready.view_of_get hdev)
  change device.identityKey = joinedIdentity pinned device.session at hpinned
  rw [hpinned]
  exact ⟨joinedIdentity_joinedIdentity .., joinedIdentity_archived ..⟩

theorem Ready.writes_archived {device : DeviceRecord}
    (hdev : store.getDeviceRecord deviceId now = some device)
    (hid : record.deviceId = device.deviceId)
    (hsess : record.session = archiveCurrentIndexed device.session maxInactiveSessions)
    (hident : record.identityKey = device.identityKey ∨ record.identityKey ≠ []) :
    Writes store (store.setDeviceRecord deviceId record now) deviceId record.view := by
  have hwrites := hready.setDeviceRecord record now (hid.trans (hready.deviceId_of_get hdev))
  have hor : record.session.or (store.sessions deviceId) = record.session := by
    rw [hsess, ← hready.stripped.session_eq hdev]
    cases device.session <;> rfl
  have hjoined : joinedIdentity record.identityKey record.session = record.identityKey := by
    rcases hident with hsame | hpinned
    · rw [hsame, hsess]
      exact (hready.joinedIdentity_eq maxInactiveSessions hdev).2
    · exact joinedIdentity_of_ne hpinned _
  rw [hor, hjoined] at hwrites
  exact hwrites

theorem Ready.writes_listed {device : DeviceRecord}
    (hdev : store.getDeviceRecord deviceId now = some device)
    (hid : record.deviceId = device.deviceId) (hsess : record.session = none)
    (hident : record.identityKey = device.identityKey ∨ record.identityKey ≠ []) :
    Writes store (store.setDeviceRecord deviceId record now) deviceId
      { record.view with session := device.session } := by
  have hwrites := hready.setDeviceRecord record now (hid.trans (hready.deviceId_of_get hdev))
  have hjoined : joinedIdentity record.identityKey device.session = record.identityKey := by
    rcases hident with hsame | hpinned
    · rw [hsame]
      exact (hready.joinedIdentity_eq 0 hdev).1
    · exact joinedIdentity_of_ne hpinned _
  rw [hsess, none_or, ← hready.stripped.session_eq hdev, hjoined] at hwrites
  exact hwrites

variable {view : DeviceView}

theorem Ready.exists_get (now : ℤ) (hview : store.view deviceId = some view) :
    ∃ device, store.getDeviceRecord deviceId now = some device ∧ device.view = view := by
  rw [← hready.view_eq deviceId now, map_eq_some_iff] at hview
  exact hview

theorem Ready.writes_unchanged
    (hview : store.view deviceId = some view) : Writes store store deviceId view := by
  refine ⟨hready, rfl, fun other => ?_⟩
  split
  case isTrue hother => rw [hother, hview]
  case isFalse => rfl

end

theorem storedDevice_setUserRecord (store : UserStore) (user : UserRecord) (deviceId : DeviceId) :
    (store.setUserRecord user).storedDevice deviceId =
      (user.devices.get? deviceId).map fun device => { device with session := none } := by
  unfold storedDevice setUserRecord
  rw [bind_some]
  exact get?_mapValues ..

theorem get?_getUserRecord (hknown : store.getUserRecord now = some user) (deviceId : DeviceId) :
    user.devices.get? deviceId =
      (store.storedDevice deviceId).map fun device =>
        (withSession deviceId (some device) (store.sessions deviceId) now).getD device := by
  unfold getUserRecord at hknown
  obtain ⟨stored, hstored, rfl⟩ := map_eq_some_iff.mp hknown
  unfold storedDevice
  rw [hstored, bind_some]
  exact get?_mapEntries ..

theorem joinedView_withSession (device : DeviceRecord) (session : Option SessionRecord) (now : ℤ) :
    ((withSession deviceId (some device) session now).getD device).joinedView session =
      device.joinedView session := by
  cases session with
  | none => rfl
  | some session =>
    exact DeviceView.ext (joinedIdentity_joinedIdentity device.identityKey (some session)) rfl
      rfl rfl

theorem view_setUserRecord (store : UserStore) (user : UserRecord) (deviceId : DeviceId) :
    (store.setUserRecord user).view deviceId =
      (user.devices.get? deviceId).map fun device =>
        device.joinedView (store.sessions deviceId) := by
  unfold view
  rw [storedDevice_setUserRecord, map_map]
  rfl

theorem view_getUserRecord (hknown : store.getUserRecord now = some user) (deviceId : DeviceId) :
    ((user.devices.get? deviceId).map fun device =>
      device.joinedView (store.sessions deviceId)) = store.view deviceId := by
  rw [get?_getUserRecord hknown, map_map]
  unfold view
  congr 1
  funext device
  exact joinedView_withSession device _ now

theorem deviceId_getUserRecord (hready : store.Ready) {device : DeviceRecord}
    (hknown : store.getUserRecord now = some user)
    (hdev : user.devices.get? deviceId = some device) : device.deviceId = deviceId := by
  rw [get?_getUserRecord hknown, map_eq_some_iff] at hdev
  obtain ⟨stored, hstored, rfl⟩ := hdev
  have hid := hready.keyed deviceId stored hstored
  cases store.sessions deviceId with
  | none => exact hid
  | some session => rfl

theorem Ready.setUserRecord (hready : store.Ready) {record : UserRecord}
    (hknown : store.getUserRecord now = some user)
    (hdevs : ∀ deviceId, record.devices.get? deviceId = user.devices.get? deviceId ∨
      ∃ device, record.devices.get? deviceId = some device ∧ device.deviceId = deviceId) :
    (store.setUserRecord record).Ready := by
  refine ⟨stripped_setUserRecord _ _, ?_, ?_, some_ne_none _⟩
  · intro other stored hstored
    rw [storedDevice_setUserRecord] at hstored
    obtain ⟨device, hdev, rfl⟩ := map_eq_some_iff.mp hstored
    rcases hdevs other with hsame | ⟨written, hwrote, hid⟩
    · rw [hsame] at hdev
      have hid := deviceId_getUserRecord hready hknown hdev
      exact hid
    · cases hwrote.symm.trans hdev
      exact hid
  · intro other hnone
    rw [storedDevice_setUserRecord, map_eq_none_iff] at hnone
    rcases hdevs other with hsame | ⟨written, hwrote, -⟩
    · rw [hsame, get?_getUserRecord hknown, map_eq_none_iff] at hnone
      exact hready.paired other hnone
    · cases hwrote.symm.trans hnone

theorem version_getUserRecord (hknown : store.getUserRecord now = some user) :
    user.deviceListVersion = store.version := by
  unfold getUserRecord at hknown
  obtain ⟨stored, hstored, rfl⟩ := map_eq_some_iff.mp hknown
  unfold UserStore.version
  rw [hstored]
  rfl

theorem Ready.exists_user (hready : store.Ready) (now : ℤ) :
    ∃ user, store.getUserRecord now = some user := by
  unfold getUserRecord
  obtain ⟨stored, hstored⟩ := ne_none_iff_exists'.mp hready.known
  rw [hstored]
  exact ⟨_, rfl⟩

theorem Ready.writes_added (hready : store.Ready) (device : DeviceRecord)
    (hknown : store.getUserRecord now = some user)
    (habsent : store.view device.deviceId = none) (hsess : device.session = none) :
    Writes store
      ((store.setDeviceRecord device.deviceId device now).setUserRecord
        { user with devices := user.devices.set device.deviceId device, updatedAt := now })
      device.deviceId device.view := by
  have hset : (store.setDeviceRecord device.deviceId device now).setUserRecord
      { user with devices := user.devices.set device.deviceId device, updatedAt := now } =
        store.setUserRecord
          { user with devices := user.devices.set device.deviceId device, updatedAt := now } := by
    unfold UserStore.setDeviceRecord UserStore.setUserRecord
    rw [hsess]
  rw [hset]
  have hver := version_getUserRecord hknown
  refine ⟨hready.setUserRecord hknown fun other => ?_, hver, fun other => ?_⟩
  · rw [get?_set]
    split
    case isTrue hother => exact .inr ⟨device, rfl, hother.symm⟩
    case isFalse => exact .inl rfl
  · rw [view_setUserRecord, get?_set]
    split
    case isTrue hother =>
      have hnone := hready.paired device.deviceId (map_eq_none_iff.mp habsent)
      rw [hother, hnone, map_some]
      simp [DeviceRecord.joinedView, DeviceRecord.view, hsess]
    case isFalse => exact view_getUserRecord hknown other

end UserStore

/-! ## The phases of a sync

What a sync does to each device depends only on that device and on its entry of the list. -/

open List

variable {store before after : UserStore} {deviceId : DeviceId} {now : ℤ}
variable {identityKey : IdentityKey} {maxInactiveSessions : ℕ}

def needsReplacement : Option IdentityKey → Option DeviceView → Bool
  | _, none => false
  | none, some device => !device.removed
  | some identityKey, some device =>
    decide (identityKey ≠ [] ∧ compareDeviceIdentityKeys device.identityKey identityKey = .changed)

def listedView (identityKey : IdentityKey) : Option DeviceView → DeviceView
  | none => { identityKey, pendingVerification := false, removed := false, session := none }
  | some device =>
    { device with
      identityKey :=
        if compareDeviceIdentityKeys device.identityKey identityKey = .unpinned then identityKey
        else device.identityKey
      removed := false }

def replacedView (maxInactiveSessions : ℕ) (listed : Option IdentityKey) (device : DeviceView) :
    DeviceView :=
  { identityKey := listed.getD device.identityKey
    pendingVerification := device.pendingVerification || listed.isSome
    removed := listed.isNone
    session := archiveCurrentIndexed device.session maxInactiveSessions }

def syncedView (maxInactiveSessions : ℕ) (listed : Option IdentityKey)
    (device : Option DeviceView) : Option DeviceView :=
  if needsReplacement listed device then device.map (replacedView maxInactiveSessions listed)
  else listed.elim device fun identityKey => some (listedView identityKey device)

theorem encode_of_decode {encoded : IdentityKey} {identity : CompositeIdentityV1}
    (hdec : decodeCompositeIdentityV1 encoded = .ok identity) :
    encodeCompositeIdentityV1 identity = .ok encoded := by
  unfold decodeCompositeIdentityV1 at hdec
  split at hdec
  · cases hdec
  case isFalse hlen =>
    rw [not_not] at hlen
    split at hdec
    · cases hdec
    case isFalse hver =>
      split at hdec
      · cases hdec
      case isFalse hx25519 =>
        split at hdec
        · cases hdec
        case isFalse hed25519 =>
          rw [not_not] at hver hx25519 hed25519
          cases hdec
          -- The tuple is two tags, 32 bytes, a tag, and 32 bytes.
          obtain ⟨first, second, rest, rfl⟩ : ∃ first second rest,
              encoded = first :: second :: rest := by
            cases encoded with
            | nil => cases hlen
            | cons first encoded =>
              cases encoded with
              | nil => cases hlen
              | cons second rest => exact ⟨first, second, rest, rfl⟩
          have hrest : rest.length = 65 := by
            simpa [COMPOSITE_IDENTITY_V1_LENGTH] using hlen
          have htag : rest.drop 32 = COMPOSITE_IDENTITY_V1_ED25519_TAG :: rest.drop 33 := by
            rw [drop_eq_getElem_cons (by omega), ← hed25519]
            simp [hrest]
          have hsnd : (rest.drop 33).take 32 = rest.drop 33 := by
            rw [List.take_of_length_le]
            simp [hrest]
          change first = _ at hver
          change second = _ at hx25519
          subst hver hx25519
          unfold encodeCompositeIdentityV1
          rw [if_neg (by simp [hrest, PUBLIC_KEY_LENGTH]),
            if_neg (by simp [hrest, PUBLIC_KEY_LENGTH])]
          change Except.ok ([_, _] ++ rest.take 32 ++ [COMPOSITE_IDENTITY_V1_ED25519_TAG] ++
            (rest.drop 33).take 32) = _
          rw [hsnd, append_assoc, append_assoc, singleton_append, ← htag,
            List.take_append_drop]
          rfl

def Canonical (identityKey : IdentityKey) : Prop :=
  ∀ label, canonicalizeDeviceIdentityKey identityKey label = .ok identityKey

theorem canonicalize_eq_ok {bytes : IdentityKey} {label : String} {canonical : IdentityKey}
    (hcanon : canonicalizeDeviceIdentityKey bytes label = .ok canonical) :
    canonical = bytes ∧ Canonical bytes := by
  by_cases hempty : bytes = []
  · subst hempty
    cases hcanon
    exact ⟨rfl, fun _ => rfl⟩
  · cases hdec : decodeCompositeIdentityV1 bytes with
    | error error =>
      unfold canonicalizeDeviceIdentityKey at hcanon
      rw [if_neg hempty, hdec] at hcanon
      cases hcanon
    | ok identity =>
      have hcanonicalized : ∀ label, canonicalizeDeviceIdentityKey bytes label = .ok bytes := by
        intro label
        unfold canonicalizeDeviceIdentityKey
        rw [if_neg hempty, hdec, Results.ok_bind, encode_of_decode hdec]
      rw [hcanonicalized] at hcanon
      cases hcanon
      exact ⟨rfl, hcanonicalized⟩

/-! ## The sync of one device -/

namespace UserStore

variable (userId : String)

theorem Ready.replaceListed (hready : store.Ready) (maxInactiveSessions : ℕ) (now : ℤ)
    {view : DeviceView} (hview : store.view deviceId = some view) {listed : Option IdentityKey}
    (hneeds : needsReplacement listed (some view) = true) :
    Writes store (store.replaceListedDeviceLocked deviceId listed maxInactiveSessions now) deviceId
      (replacedView maxInactiveSessions listed view) := by
  obtain ⟨device, hdev, rfl⟩ := hready.exists_get now hview
  unfold replaceListedDeviceLocked
  rw [hdev]
  cases listed with
  | none =>
    have hpresent : isRemovedDevice device = false := by
      simpa [needsReplacement, DeviceRecord.view] using hneeds
    unfold removeDeviceLocked
    rw [hdev]
    dsimp only
    rw [hpresent, if_neg Bool.false_ne_true]
    have hwrites := hready.writes_archived { device with
      session := archiveCurrentIndexed device.session maxInactiveSessions
      removedAt := some now
      updatedAt := now } hdev rfl rfl (.inl rfl)
    simpa [DeviceRecord.view, replacedView, isRemovedDevice] using hwrites
  | some identityKey =>
    obtain ⟨hlist, hchange⟩ := of_decide_eq_true hneeds
    change compareDeviceIdentityKeys device.identityKey identityKey = .changed at hchange
    dsimp only
    rw [if_pos hchange]
    have hwrites := hready.writes_archived { device with
      identityKey
      session := archiveCurrentIndexed device.session maxInactiveSessions
      pendingVerification := true
      removedAt := none
      updatedAt := now } hdev rfl rfl (.inr hlist)
    simpa [DeviceRecord.view, replacedView, isRemovedDevice] using hwrites

theorem Ready.addDevice (hready : store.Ready) (userId : String) (now : ℤ)
    (habsent : store.view deviceId = none) (hlow : MIN_DEVICE_ID ≤ deviceId)
    (hhigh : deviceId ≤ MAX_DEVICE_ID) (hcanon : Canonical identityKey) :
    ∃ after, addDeviceLocked userId deviceId identityKey now store = .ok () after ∧
      Writes store after deviceId (listedView identityKey none) := by
  have hrange : ¬ (deviceId < MIN_DEVICE_ID ∨ MAX_DEVICE_ID < deviceId) := by
    rw [not_or, Nat.not_lt, Nat.not_lt]
    exact ⟨hlow, hhigh⟩
  obtain ⟨user, hknown⟩ := hready.exists_user now
  have hwrites := hready.writes_added
    { deviceId, identityKey, session := none, createdAt := now, updatedAt := now } hknown habsent
    rfl
  refine ⟨_, ?_, hwrites⟩
  unfold addDeviceLocked
  rw [if_neg hrange]
  dsimp only
  rw [Results.get_bind, hcanon, hknown, Option.getD_some]
  rfl

theorem Ready.relistDevice (hready : store.Ready) {device : DeviceRecord}
    (hdev : store.getDeviceRecord deviceId now = some device) :
    Writes store (store.relistDeviceLocked device now) deviceId
      { device.view with removed := false } := by
  unfold relistDeviceLocked
  split
  case isTrue =>
    have hwrites := hready.writes_listed { device with
      removedAt := none
      session := none
      updatedAt := now } hdev rfl rfl (.inl rfl)
    rw [hready.deviceId_of_get hdev] at hwrites ⊢
    simpa [DeviceRecord.view, isRemovedDevice] using hwrites
  case isFalse hrem =>
    refine hready.writes_unchanged ?_
    rw [hready.view_of_get hdev]
    simpa [DeviceRecord.view] using hrem

/-- The sync of one listed device leaves it as it is when a replacement follows, and else with its
listed view. -/
structure Lists (before after : UserStore) (deviceId : DeviceId) (identityKey : IdentityKey) :
    Prop where
  ready : after.Ready
  version : after.version = before.version
  view : ∀ other, after.view other =
    if other = deviceId ∧ needsReplacement (some identityKey) (before.view deviceId) = false then
      some (listedView identityKey (before.view deviceId))
    else before.view other

theorem Writes.lists (hneeds : needsReplacement (some identityKey) (before.view deviceId) = false)
    (hwrites : Writes before after deviceId (listedView identityKey (before.view deviceId))) :
    Lists before after deviceId identityKey := by
  refine ⟨hwrites.ready, hwrites.version, fun other => ?_⟩
  rw [hwrites.view, hneeds]
  simp only [and_true]

theorem listedView_of_kept {device : DeviceView}
    (hkept : identityKey = [] ∨
      compareDeviceIdentityKeys device.identityKey identityKey ≠ .unpinned) :
    listedView identityKey (some device) = { device with removed := false } := by
  unfold listedView
  dsimp only
  split
  case isTrue hunpinned =>
    have hlist := hkept.resolve_right (not_not.mpr hunpinned)
    have hpinned : device.identityKey = [] := by
      unfold compareDeviceIdentityKeys at hunpinned
      split at hunpinned
      case isTrue hpinned => exact hpinned
      case isFalse => split at hunpinned <;> cases hunpinned
    rw [hlist, hpinned]
  case isFalse => rfl

theorem listedView_of_unpinned {device : DeviceView}
    (hunpinned : compareDeviceIdentityKeys device.identityKey identityKey = .unpinned) :
    listedView identityKey (some device) = { device with identityKey, removed := false } := by
  unfold listedView
  dsimp only
  rw [if_pos hunpinned]

theorem syncListedDevice_absent (identityKey : IdentityKey)
    (hdev : store.getDeviceRecord deviceId now = none) :
    syncListedDevice userId deviceId identityKey now store =
      (addDeviceLocked userId deviceId identityKey now >>= fun _ => pure false) store := by
  unfold syncListedDevice
  rw [Results.get_bind, hdev]

theorem syncListedDevice_present {device : DeviceRecord}
    (hdev : store.getDeviceRecord deviceId now = some device) :
    syncListedDevice userId deviceId identityKey now store =
      if identityKey = [] then .ok false (store.relistDeviceLocked device now)
      else
        match compareDeviceIdentityKeys device.identityKey identityKey with
        | .changed => .ok true store
        | .same => .ok false (store.relistDeviceLocked device now)
        | .unpinned =>
          .ok false (store.setDeviceRecord deviceId
            { device with
              identityKey
              session := none
              removedAt := none
              updatedAt := if isRemovedDevice device then now else device.updatedAt } now) := by
  unfold syncListedDevice
  rw [Results.get_bind, hdev]
  dsimp only
  by_cases hlist : identityKey = []
  · rw [if_neg (not_not.mpr hlist), if_pos hlist]
    rfl
  · rw [if_pos hlist, if_neg hlist]
    cases compareDeviceIdentityKeys device.identityKey identityKey <;> rfl

theorem Ready.syncListedDevice (hready : store.Ready) (userId : String) (now : ℤ)
    (hlow : MIN_DEVICE_ID ≤ deviceId) (hhigh : deviceId ≤ MAX_DEVICE_ID)
    (hcanon : Canonical identityKey) :
    ∃ after, syncListedDevice userId deviceId identityKey now store =
        .ok (needsReplacement (some identityKey) (store.view deviceId)) after ∧
      Lists store after deviceId identityKey := by
  cases hdev : store.getDeviceRecord deviceId now with
  | none =>
    have habsent : store.view deviceId = none := by
      rw [← hready.view_eq deviceId now, hdev, Option.map_none]
    obtain ⟨after, hrun, hwrites⟩ := hready.addDevice userId now habsent hlow hhigh
      hcanon
    rw [syncListedDevice_absent userId identityKey hdev, Results.bind_apply_ok hrun, habsent]
    refine ⟨after, rfl, Writes.lists (by rw [habsent]; rfl) ?_⟩
    rw [habsent]
    exact hwrites
  | some device =>
    have hview := hready.view_of_get hdev
    rw [syncListedDevice_present userId hdev, hview]
    split
    case isTrue hlist =>
      have hneeds : needsReplacement (some identityKey) (some device.view) = false := by
        rw [hlist]
        rfl
      rw [hneeds]
      refine ⟨_, rfl, Writes.lists (hview ▸ hneeds) ?_⟩
      rw [hview, listedView_of_kept (.inl hlist)]
      exact hready.relistDevice hdev
    case isFalse hlist =>
      have hneeds : needsReplacement (some identityKey) (some device.view) =
          decide (compareDeviceIdentityKeys device.identityKey identityKey = .changed) := by
        unfold needsReplacement
        rw [decide_eq_decide]
        exact and_iff_right hlist
      cases hcomparison : compareDeviceIdentityKeys device.identityKey identityKey with
      | changed =>
        rw [hneeds, hcomparison]
        refine ⟨store, rfl, hready, rfl, fun other => ?_⟩
        rw [hview, hneeds, hcomparison, if_neg fun hboth => Bool.noConfusion hboth.2]
      | unpinned =>
        rw [hneeds, hcomparison]
        refine ⟨_, rfl, Writes.lists (by rw [hview, hneeds, hcomparison]; rfl) ?_⟩
        have hwrites := hready.writes_listed { device with
          identityKey
          session := none
          removedAt := none
          updatedAt := if isRemovedDevice device then now else device.updatedAt }
          hdev rfl rfl (.inr hlist)
        have hunpinned : compareDeviceIdentityKeys device.view.identityKey identityKey =
            .unpinned := hcomparison
        rw [hview, listedView_of_unpinned hunpinned]
        exact hwrites
      | same =>
        rw [hneeds, hcomparison]
        refine ⟨_, rfl, Writes.lists (by rw [hview, hneeds, hcomparison]; rfl) ?_⟩
        have hkept : compareDeviceIdentityKeys device.view.identityKey identityKey ≠ .unpinned := by
          intro hunpinned
          cases hcomparison.symm.trans hunpinned
        rw [hview, listedView_of_kept (.inr hkept)]
        exact hready.relistDevice hdev

theorem Ready.syncListedDevices (now : ℤ)
    (listed : List (DeviceId × IdentityKey)) (hnodup : (listed.map Prod.fst).Nodup)
    (hvalid : ∀ entry ∈ listed, MIN_DEVICE_ID ≤ entry.1 ∧ entry.1 ≤ MAX_DEVICE_ID ∧
      Canonical entry.2) (hready : store.Ready) :
    ∃ after replaced, syncListedDevices userId now listed store = .ok replaced after ∧
      after.Ready ∧ after.version = store.version ∧
      replaced.Sublist (listed.map Prod.fst) ∧
      (∀ entry ∈ listed, (entry.1 ∈ replaced ↔
          needsReplacement (some entry.2) (store.view entry.1) = true) ∧
        after.view entry.1 =
          if needsReplacement (some entry.2) (store.view entry.1) then store.view entry.1
          else some (listedView entry.2 (store.view entry.1))) ∧
      ∀ other, other ∉ listed.map Prod.fst → after.view other = store.view other := by
  induction listed generalizing store with
  | nil =>
    refine ⟨store, [], rfl, hready, rfl, List.Sublist.refl [], ?_, fun _ _ => rfl⟩
    rintro entry ⟨⟩
  | cons entry listed ih =>
    obtain ⟨hfresh, hnodup⟩ := nodup_cons.mp hnodup
    obtain ⟨hlow, hhigh, hcanon⟩ := hvalid entry mem_cons_self
    obtain ⟨middle, hrun, hlists⟩ := hready.syncListedDevice userId now hlow hhigh
      hcanon
    obtain ⟨after, replaced, hrest, hreadyAfter, hver, hsublist, hentries, hothers⟩ :=
      ih hnodup (fun other hother => hvalid other (mem_cons_of_mem _ hother)) hlists.ready
    have hmiddle : ∀ other, other ≠ entry.1 → middle.view other = store.view other := by
      intro other hother
      rw [hlists.view, if_neg fun hboth => hother hboth.1]
    refine ⟨after, if needsReplacement (some entry.2) (store.view entry.1) then
      entry.1 :: replaced else replaced, ?_, hreadyAfter, hver.trans hlists.version,
      ?_, ?_, ?_⟩
    · unfold Sesame.syncListedDevices
      rw [Results.bind_apply_ok hrun, Results.bind_apply_ok hrest]
      rfl
    · split
      · exact hsublist.cons_cons _
      · exact hsublist.cons _
    · intro other hother
      rcases mem_cons.mp hother with rfl | hother
      · have hview := hothers other.1 hfresh
        rw [hlists.view] at hview
        have hnot : other.1 ∉ replaced := fun hmem => hfresh (hsublist.subset hmem)
        cases hneeds : needsReplacement (some other.2) (store.view other.1) with
        | false => simpa [hneeds, hnot] using hview
        | true => simpa [hneeds] using hview
      · have hne : other.1 ≠ entry.1 := fun heq =>
          hfresh (heq ▸ mem_map_of_mem hother)
        obtain ⟨hreplaced, hview⟩ := hentries other hother
        rw [hmiddle other.1 hne] at hreplaced hview
        refine ⟨?_, hview⟩
        rw [← hreplaced]
        split
        · rw [mem_cons]
          exact or_iff_right hne
        · rfl
    · intro other hother
      rw [map_cons, mem_cons, not_or] at hother
      rw [hothers other hother.2, hmiddle other hother.1]

theorem mem_unlisted {user : UserRecord} (hknown : store.getUserRecord now = some user)
    (devices : OrderedMap DeviceId IdentityKey) (deviceId : DeviceId) :
    deviceId ∈ (user.devices.entries.filter fun entry =>
        !devices.has entry.1 && !isRemovedDevice entry.2).map Prod.fst ↔
      devices.get? deviceId = none ∧ needsReplacement none (store.view deviceId) = true := by
  rw [← view_getUserRecord hknown]
  have hget := fun device => user.devices.get?_eq_some_iff deviceId device
  constructor
  · intro hmem
    obtain ⟨entry, hentry, rfl⟩ := mem_map.mp hmem
    rw [mem_filter, Bool.and_eq_true, Bool.not_eq_true', Bool.not_eq_true'] at hentry
    rw [(hget entry.2).mpr hentry.1]
    refine ⟨Option.not_isSome_iff_eq_none.mp ?_, ?_⟩
    · rw [← OrderedMap.has, hentry.2.1]
      exact Bool.false_ne_true
    · simpa [needsReplacement, DeviceRecord.joinedView] using hentry.2.2
  · rintro ⟨hunlisted, hneeds⟩
    cases hdev : user.devices.get? deviceId with
    | none =>
      rw [hdev] at hneeds
      cases hneeds
    | some device =>
      rw [hdev] at hneeds
      refine mem_map.mpr ⟨(deviceId, device), mem_filter.mpr ?_, rfl⟩
      refine ⟨(hget device).mp hdev, ?_⟩
      rw [OrderedMap.has, hunlisted]
      simpa [needsReplacement, DeviceRecord.joinedView] using hneeds

end UserStore

/-- A sync with replacements to do: those devices are as before the sync, and the others are
synced. -/
structure Replacing (maxInactiveSessions : ℕ) (devices : OrderedMap DeviceId IdentityKey)
    (before store : UserStore) (rest : List DeviceId) : Prop where
  ready : store.Ready
  version : store.version = before.version
  nodup : rest.Nodup
  pending : ∀ deviceId ∈ rest, store.view deviceId = before.view deviceId ∧
    needsReplacement (devices.get? deviceId) (before.view deviceId) = true
  settled : ∀ deviceId, deviceId ∉ rest → store.view deviceId =
    syncedView maxInactiveSessions (devices.get? deviceId) (before.view deviceId)

variable {devices : OrderedMap DeviceId IdentityKey}

theorem UserStore.Ready.syncUserLocked (hready : store.Ready) (userId : String) (now : ℤ)
    (maxInactiveSessions : ℕ)
    (hvalid : ∀ entry ∈ devices.entries, MIN_DEVICE_ID ≤ entry.1 ∧ entry.1 ≤ MAX_DEVICE_ID ∧
      Canonical entry.2) :
    ∃ after replaced, syncUserLocked userId devices now store = .ok (some replaced) after ∧
      Replacing maxInactiveSessions devices store after replaced := by
  obtain ⟨user, hknown⟩ := hready.exists_user now
  obtain ⟨after, rekeyed, hrun, hafter, hver, hsublist, hentries, hothers⟩ :=
    hready.syncListedDevices userId now devices.entries devices.nodup hvalid
  have hunlisted := UserStore.mem_unlisted hknown devices
  have hlist : ∀ deviceId key, devices.get? deviceId = some key →
      (deviceId ∈ rekeyed ↔ needsReplacement (some key) (store.view deviceId) = true) ∧
      after.view deviceId =
        if needsReplacement (some key) (store.view deviceId) then store.view deviceId
        else some (listedView key (store.view deviceId)) := fun deviceId key hkey =>
    hentries (deviceId, key) ((OrderedMap.get?_eq_some_iff _ _ _).mp hkey)
  have hkey : ∀ deviceId, deviceId ∈ rekeyed → devices.get? deviceId ≠ none :=
    fun deviceId hmem hnone =>
      (OrderedMap.get?_eq_none_iff _ _).mp hnone (hsublist.subset hmem)
  have hreplaced : ∀ deviceId, deviceId ∈ (user.devices.entries.filter fun entry =>
      !devices.has entry.1 && !isRemovedDevice entry.2).map Prod.fst ++ rekeyed ↔
      needsReplacement (devices.get? deviceId) (store.view deviceId) = true := by
    intro deviceId
    rw [mem_append, hunlisted]
    cases hget : devices.get? deviceId with
    | none =>
      have hnot : deviceId ∉ rekeyed := fun hmem => hkey deviceId hmem hget
      simp [hnot]
    | some key => simp [(hlist deviceId key hget).1]
  have hview : ∀ deviceId, after.view deviceId =
      if needsReplacement (devices.get? deviceId) (store.view deviceId) then store.view deviceId
      else syncedView maxInactiveSessions (devices.get? deviceId) (store.view deviceId) := by
    intro deviceId
    unfold syncedView
    cases hget : devices.get? deviceId with
    | none =>
      rw [hothers deviceId ((OrderedMap.get?_eq_none_iff _ _).mp hget)]
      split <;> rfl
    | some key =>
      rw [(hlist deviceId key hget).2]
      split <;> rfl
  have hreplacing : Replacing maxInactiveSessions devices store after
      ((user.devices.entries.filter fun entry =>
        !devices.has entry.1 && !isRemovedDevice entry.2).map Prod.fst ++ rekeyed) := by
    refine ⟨hafter, hver, ?_, fun deviceId hmem => ?_, fun deviceId hmem => ?_⟩
    · rw [nodup_append']
      refine ⟨user.devices.nodup.sublist (filter_sublist.map Prod.fst),
        devices.nodup.sublist hsublist, ?_⟩
      intro deviceId hunlistedMem hmem
      exact hkey deviceId hmem ((hunlisted deviceId).mp hunlistedMem).1
    · have hneeds := (hreplaced deviceId).mp hmem
      rw [hview, if_pos hneeds]
      exact ⟨rfl, hneeds⟩
    · rw [hview, if_neg fun hneeds => hmem ((hreplaced deviceId).mpr hneeds)]
  refine ⟨after, _, ?_, hreplacing⟩
  unfold Sesame.syncUserLocked
  rw [Results.get_bind, hknown]
  dsimp only
  rw [Results.bind_apply_ok hrun]
  rfl

theorem Replacing.next {rest : List DeviceId}
    (hreplacing : Replacing maxInactiveSessions devices before store (deviceId :: rest)) (now : ℤ) :
    Replacing maxInactiveSessions devices before
      (store.replaceListedDeviceLocked deviceId (devices.get? deviceId) maxInactiveSessions now)
      rest := by
  obtain ⟨hready, hver, hnodup, hpend, hsettled⟩ := hreplacing
  obtain ⟨hfresh, hnodup⟩ := nodup_cons.mp hnodup
  obtain ⟨hsame, hneeds⟩ := hpend deviceId mem_cons_self
  obtain ⟨view, hview⟩ : ∃ view, before.view deviceId = some view := by
    rw [← Option.ne_none_iff_exists']
    intro hnone
    rw [hnone] at hneeds
    cases hlist : devices.get? deviceId <;> rw [hlist] at hneeds <;> cases hneeds
  have hwrites := hready.replaceListed maxInactiveSessions now
    (hsame.trans hview) (hview ▸ hneeds)
  refine ⟨hwrites.ready, hwrites.version.trans hver, hnodup, ?_, ?_⟩
  · intro other hother
    have hne : other ≠ deviceId := fun heq => hfresh (heq ▸ hother)
    rw [hwrites.view, if_neg hne]
    exact hpend other (mem_cons_of_mem _ hother)
  · intro other hother
    rw [hwrites.view]
    split
    case isTrue heq =>
      subst heq
      unfold syncedView
      rw [if_pos hneeds, hview, Option.map_some]
    case isFalse hne =>
      exact hsettled other fun hmem => hother (mem_of_ne_of_mem hne hmem)

structure Synced (maxInactiveSessions : ℕ) (devices : OrderedMap DeviceId IdentityKey)
    (version : Option ℤ) (before after : UserStore) : Prop where
  ready : after.Ready
  version : after.version = version.or before.version
  view : ∀ deviceId, after.view deviceId =
    syncedView maxInactiveSessions (devices.get? deviceId) (before.view deviceId)

theorem Replacing.synced (hreplacing : Replacing maxInactiveSessions devices before store [])
    (version : Option ℤ) (now : ℤ) :
    Synced maxInactiveSessions devices version before (store.syncVersion version now) := by
  obtain ⟨hready, hver, -, -, hsettled⟩ := hreplacing
  have hview : ∀ deviceId, store.view deviceId =
      syncedView maxInactiveSessions (devices.get? deviceId) (before.view deviceId) :=
    fun deviceId => hsettled deviceId not_mem_nil
  cases version with
  | none => exact ⟨hready, hver, hview⟩
  | some version =>
    obtain ⟨user, hknown⟩ := hready.exists_user now
    unfold UserStore.syncVersion UserStore.setDeviceListVersion
    rw [hknown]
    refine ⟨hready.setUserRecord hknown fun _ => .inl rfl, rfl, fun deviceId => ?_⟩
    rw [UserStore.view_setUserRecord, UserStore.view_getUserRecord hknown, hview]

end SignalProtocol.Sesame

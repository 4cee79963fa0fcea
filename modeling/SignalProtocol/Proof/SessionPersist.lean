import SignalProtocol.Sesame.Records

/-! # Persisted sessions are the committed ones

The record of a device holds, for each base key, the state that the protocol committed last, in
every run whose PreKey receives merge a snapshot that no commit has passed. -/

namespace SignalProtocol.Sesame

open OrderedMap Option

variable {record previous fromProtocol : SessionRecord} {session : SessionState} {key : BaseKey}
variable {maxInactiveSessions : ℕ} {deviceId : DeviceId}
  {previousDeviceRecord : Option DeviceRecord} {event : SessionEvent} {now : ℤ}

theorem SessionRecord.Valid.findSession_iff (hvalid : record.Valid) :
    record.findSession key = some session ↔ record.Holds session ∧ session.baseKey = key := by
  unfold SessionRecord.findSession SessionRecord.Holds
  cases hcur : record.currentSession with
  | none =>
    constructor
    · intro hget
      have hkey := hvalid.keyed key session hget
      exact ⟨.inr (hkey ▸ hget), hkey⟩
    · rintro ⟨hsame | harchived, rfl⟩
      · cases hsame
      · exact harchived
  | some current =>
    dsimp only
    split
    case isTrue hkey =>
      constructor
      · intro hsame
        cases hsame
        exact ⟨.inl rfl, hkey⟩
      · rintro ⟨hsame | harchived, hother⟩
        · exact hsame
        · rw [hother, ← hkey, hvalid.apart current hcur] at harchived
          cases harchived
    case isFalse hkey =>
      constructor
      · intro hget
        have hsess := hvalid.keyed key session hget
        exact ⟨.inr (hsess ▸ hget), hsess⟩
      · rintro ⟨hsame | harchived, hother⟩
        · cases hsame
          exact absurd hother hkey
        · rw [← hother]
          exact harchived

theorem SessionRecord.valid_iff (record : SessionRecord) :
    record.Valid ↔
      (∀ entry ∈ record.archivedSessions.entries, entry.2.baseKey = entry.1) ∧
        ∀ session ∈ record.currentSession, record.archivedSessions.get? session.baseKey = none := by
  constructor
  · rintro ⟨hkeyed, hapart⟩
    refine ⟨fun entry hentry => ?_, hapart⟩
    exact hkeyed entry.1 entry.2 ((get?_eq_some_iff _ _ _).mpr hentry)
  · rintro ⟨hentries, hapart⟩
    refine ⟨fun key session hget => ?_, hapart⟩
    exact hentries (key, session) ((get?_eq_some_iff _ _ _).mp hget)

instance (record : SessionRecord) : Decidable record.Valid :=
  decidable_of_iff _ record.valid_iff.symm

/-- A record with the states that the protocol committed last, and with a bounded archive. -/
structure Faithful (committed : BaseKey → Option SessionState) (maxInactiveSessions : ℕ)
    (record : SessionRecord) : Prop where
  valid : record.Valid
  bounded : record.archivedSessions.size ≤ maxInactiveSessions
  last : ∀ session, record.Holds session → committed session.baseKey = some session

variable {committed : BaseKey → Option SessionState}

theorem Faithful.with_metadata (metadata : SessionMetadata)
    (hfaithful : Faithful committed maxInactiveSessions record) :
    Faithful committed maxInactiveSessions { record with metadata } :=
  ⟨⟨hfaithful.valid.keyed, hfaithful.valid.apart⟩, hfaithful.bounded, hfaithful.last⟩

/-- No commit since the snapshot changed a session that the archive takes over from it or made
it current, and the merged archive has room. -/
structure MergeSound (committed : BaseKey → Option SessionState) (maxInactiveSessions : ℕ)
    (previous fromProtocol : SessionRecord) : Prop where
  unchanged : ∀ key session,
    (previous.archiveCurrent none maxInactiveSessions).archivedSessions.get? key = some session →
    committed key = some session
  apart : ∀ current, fromProtocol.currentSession = some current →
    (previous.archiveCurrent none maxInactiveSessions).archivedSessions.get? current.baseKey = none
  room : (previous.archiveCurrent none maxInactiveSessions).archivedSessions.size +
    (fromProtocol.archivedSessions.filterKeys fun key =>
      !(previous.archiveCurrent none maxInactiveSessions).archivedSessions.has key).size ≤
    maxInactiveSessions

theorem mergeSound_iff (committed : BaseKey → Option SessionState) (maxInactiveSessions : ℕ)
    (previous fromProtocol : SessionRecord) :
    MergeSound committed maxInactiveSessions previous fromProtocol ↔
      (∀ entry ∈ (previous.archiveCurrent none maxInactiveSessions).archivedSessions.entries,
        committed entry.1 = some entry.2) ∧
      (∀ current ∈ fromProtocol.currentSession,
        (previous.archiveCurrent none maxInactiveSessions).archivedSessions.get? current.baseKey =
          none) ∧
      (previous.archiveCurrent none maxInactiveSessions).archivedSessions.size +
        (fromProtocol.archivedSessions.filterKeys fun key =>
          !(previous.archiveCurrent none maxInactiveSessions).archivedSessions.has key).size ≤
        maxInactiveSessions := by
  constructor
  · rintro ⟨hsame, happart, hroom⟩
    refine ⟨fun entry hentry => ?_, happart, hroom⟩
    exact hsame entry.1 entry.2 ((get?_eq_some_iff _ _ _).mpr hentry)
  · rintro ⟨hentries, happart, hroom⟩
    refine ⟨fun key session hget => ?_, happart, hroom⟩
    exact hentries (key, session) ((get?_eq_some_iff _ _ _).mp hget)

instance (committed : BaseKey → Option SessionState) (maxInactiveSessions : ℕ)
    (previous fromProtocol : SessionRecord) :
    Decidable (MergeSound committed maxInactiveSessions previous fromProtocol) :=
  decidable_of_iff _ (mergeSound_iff committed maxInactiveSessions previous fromProtocol).symm

theorem mergePreKeySession_of_current (hcur : previous.currentSession ≠ none) :
    mergePreKeySession (some previous) fromProtocol maxInactiveSessions =
      { fromProtocol with
        archivedSessions :=
          (previous.archiveCurrent none maxInactiveSessions).archivedSessions.addMissing
            fromProtocol.archivedSessions } := by
  unfold mergePreKeySession
  dsimp only
  rw [if_neg fun hnone => hcur (isNone_iff_eq_none.mp hnone)]

section

variable (hfaithful : Faithful committed maxInactiveSessions fromProtocol)

include hfaithful

theorem Faithful.merge_iff
    (hkeyed : ∀ key session, committed key = some session → session.baseKey = key)
    (hcur : previous.currentSession ≠ none) :
    Faithful committed maxInactiveSessions
        (mergePreKeySession (some previous) fromProtocol maxInactiveSessions) ↔
      MergeSound committed maxInactiveSessions previous fromProtocol := by
  rw [mergePreKeySession_of_current hcur]
  constructor
  · rintro ⟨⟨hmergedKeyed, hmergedApart⟩, hbound, hlast⟩
    dsimp only at hmergedKeyed hmergedApart hbound
    refine ⟨fun key session harchived => ?_, fun current hheld => ?_, ?_⟩
    · have hmerged : ((previous.archiveCurrent none maxInactiveSessions).archivedSessions.addMissing
          fromProtocol.archivedSessions).get? key = some session := by
        rw [get?_addMissing, harchived, some_or]
      have hkey := hmergedKeyed key session hmerged
      rw [← hkey] at hmerged ⊢
      exact hlast session (.inr hmerged)
    · have hnone := hmergedApart current hheld
      rw [get?_addMissing, or_eq_none_iff] at hnone
      exact hnone.1
    · rw [size_addMissing] at hbound
      exact hbound
  · rintro ⟨hsame, happart, hroom⟩
    have hlast : ∀ key session,
        ((previous.archiveCurrent none maxInactiveSessions).archivedSessions.addMissing
          fromProtocol.archivedSessions).get? key = some session →
        session.baseKey = key ∧ committed key = some session := by
      intro key session hmerged
      rw [get?_addMissing, or_eq_some_iff] at hmerged
      obtain hold | ⟨-, hnew⟩ := hmerged
      · have hcommit := hsame key session hold
        exact ⟨hkeyed key session hcommit, hcommit⟩
      · have hkey := hfaithful.valid.keyed key session hnew
        exact ⟨hkey, hkey ▸ hfaithful.last session (.inr (hkey ▸ hnew))⟩
    refine ⟨⟨fun key session hmerged => (hlast key session hmerged).1, fun current hheld => ?_⟩,
      ?_, ?_⟩
    · dsimp only
      rw [get?_addMissing, happart current hheld, none_or]
      exact hfaithful.valid.apart current hheld
    · dsimp only
      rw [size_addMissing]
      exact hroom
    · rintro session (hheld | hmerged)
      · exact hfaithful.last session (.inl hheld)
      · exact (hlast _ session hmerged).2

theorem Faithful.merge_holds (hcur : previous.currentSession ≠ none)
    (hmerged : Faithful committed maxInactiveSessions
      (mergePreKeySession (some previous) fromProtocol maxInactiveSessions))
    (hholds : fromProtocol.Holds session) :
    (mergePreKeySession (some previous) fromProtocol maxInactiveSessions).Holds session := by
  have hcommit := hfaithful.last session hholds
  rw [mergePreKeySession_of_current hcur] at hmerged ⊢
  rcases hholds with hheld | harchived
  · exact .inl hheld
  · refine .inr ?_
    obtain ⟨merged, hget⟩ : ∃ merged,
        ((previous.archiveCurrent none maxInactiveSessions).archivedSessions.addMissing
          fromProtocol.archivedSessions).get? session.baseKey = some merged := by
      rw [get?_addMissing, harchived, ← isSome_iff_exists, isSome_or]
      exact Bool.or_true _
    have hkey := hmerged.valid.keyed _ _ hget
    have hlast := hmerged.last merged (.inr (by rw [hkey]; exact hget))
    rw [hkey, hcommit] at hlast
    cases hlast
    exact hget

end

namespace UserStore

variable {store : UserStore}

def Stripped (store : UserStore) : Prop :=
  ∀ deviceId device, store.storedDevice deviceId = some device → device.session = none

theorem sessions_setDeviceRecord (store : UserStore) (deviceId : DeviceId) (device : DeviceRecord)
    (now : ℤ) : (store.setDeviceRecord deviceId device now).sessions deviceId =
      device.session.or (store.sessions deviceId) := by
  unfold setDeviceRecord
  cases device.session with
  | none => rfl
  | some session => exact Function.update_self ..

theorem Stripped.setDeviceRecord (hstripped : store.Stripped) (deviceId : DeviceId)
    (device : DeviceRecord) (now : ℤ) : (store.setDeviceRecord deviceId device now).Stripped := by
  intro other stored hstored
  unfold storedDevice UserStore.setDeviceRecord at hstored
  rw [bind_some] at hstored
  dsimp only at hstored
  rw [get?_set] at hstored
  split at hstored
  · cases hstored
    rfl
  · cases huser : store.user with
    | none =>
      rw [huser, getD_none] at hstored
      cases hstored
    | some user =>
      rw [huser, getD_some] at hstored
      refine hstripped other stored ?_
      unfold storedDevice
      rw [huser, bind_some]
      exact hstored

theorem stripped_setUserRecord (store : UserStore) (user : UserRecord) :
    (store.setUserRecord user).Stripped := by
  intro deviceId device hstored
  unfold storedDevice setUserRecord at hstored
  rw [bind_some] at hstored
  dsimp only at hstored
  rw [get?_mapValues, map_eq_some_iff] at hstored
  obtain ⟨_, -, rfl⟩ := hstored
  rfl

theorem getDeviceRecord_of_session {session : SessionRecord} (now : ℤ)
    (hsess : store.sessions deviceId = some session) :
    ∃ device, store.getDeviceRecord deviceId now = some device ∧ device.session = some session := by
  unfold getDeviceRecord withSession
  rw [hsess]
  exact ⟨_, rfl, rfl⟩

theorem Stripped.session_eq (hstripped : store.Stripped) {device : DeviceRecord}
    (hdev : store.getDeviceRecord deviceId now = some device) :
    device.session = store.sessions deviceId := by
  cases hsess : store.sessions deviceId with
  | none =>
    unfold getDeviceRecord withSession at hdev
    rw [hsess] at hdev
    exact hstripped deviceId device hdev
  | some session =>
    obtain ⟨joined, hjoined, hsome⟩ := getDeviceRecord_of_session now hsess
    rw [hdev] at hjoined
    cases hjoined
    exact hsome

@[simp] theorem receivedDeviceRecord_session (current : Option DeviceRecord) (deviceId : DeviceId)
    (incomingIdentityKey : IdentityKey) (session : Option SessionRecord) (now : ℤ) :
    (receivedDeviceRecord current deviceId incomingIdentityKey session now).session = session := by
  unfold receivedDeviceRecord
  cases current <;> rfl

theorem sessions_persistPreKeyResult (store : UserStore) (deviceId : DeviceId)
    (result : PreKeyMessageResult) (maxInactiveSessions : ℕ) (now : ℤ) :
    (store.persistPreKeyResult deviceId result maxInactiveSessions now).2.sessions deviceId =
      (store.sessions deviceId).map fun fromProtocol =>
        updateSessionRecordAfterReceive
          (mergePreKeySession (result.previousDeviceRecord.bind (·.session)) fromProtocol
            maxInactiveSessions) now := by
  unfold persistPreKeyResult
  cases result.previousDeviceRecord with
  | none =>
    dsimp only
    rw [sessions_setDeviceRecord, receivedDeviceRecord_session]
    unfold setUserRecord
    cases store.sessions deviceId <;> rfl
  | some previous =>
    dsimp only
    rw [sessions_setDeviceRecord, receivedDeviceRecord_session]
    cases store.sessions deviceId <;> rfl

theorem Stripped.persistPreKeyResult (hstripped : store.Stripped) (deviceId : DeviceId)
    (result : PreKeyMessageResult) (maxInactiveSessions : ℕ) (now : ℤ) :
    (store.persistPreKeyResult deviceId result maxInactiveSessions now).2.Stripped := by
  unfold UserStore.persistPreKeyResult
  cases result.previousDeviceRecord with
  | none => exact (stripped_setUserRecord store _).setDeviceRecord deviceId _ now
  | some previous => exact hstripped.setDeviceRecord deviceId _ now

theorem sessions_persistSessionAfterReceive {session : SessionRecord} (fallback : SessionRecord)
    (now : ℤ) (hsess : store.sessions deviceId = some session) :
    (store.persistSessionAfterReceive deviceId fallback now).sessions deviceId =
      some (updateSessionRecordAfterReceive session now) := by
  obtain ⟨device, hdev, -⟩ := getDeviceRecord_of_session now hsess
  unfold persistSessionAfterReceive
  rw [hdev, hsess]
  exact sessions_setDeviceRecord ..

theorem Stripped.persistSessionAfterReceive (hstripped : store.Stripped) (deviceId : DeviceId)
    (fallback : SessionRecord) (now : ℤ) :
    (store.persistSessionAfterReceive deviceId fallback now).Stripped := by
  unfold UserStore.persistSessionAfterReceive
  cases store.getDeviceRecord deviceId now with
  | none => exact hstripped
  | some device => exact hstripped.setDeviceRecord deviceId _ now

theorem Stripped.sessions_persistSessionAfterSend (hstripped : store.Stripped)
    (deviceId : DeviceId) (now : ℤ) :
    (store.persistSessionAfterSend deviceId now).sessions deviceId =
      (store.sessions deviceId).map (updateSessionRecordAfterSend · now) := by
  cases hsess : store.sessions deviceId with
  | none =>
    have hnone : store.persistSessionAfterSend deviceId now = store := by
      unfold persistSessionAfterSend
      cases hdev : store.getDeviceRecord deviceId now with
      | none => rfl
      | some device =>
        dsimp only
        rw [hstripped.session_eq hdev, hsess]
    rw [hnone, hsess]
    rfl
  | some session =>
    obtain ⟨device, hdev, hsome⟩ := getDeviceRecord_of_session now hsess
    unfold persistSessionAfterSend
    rw [hdev]
    dsimp only
    rw [hsome]
    exact sessions_setDeviceRecord ..

theorem Stripped.persistSessionAfterSend (hstripped : store.Stripped) (deviceId : DeviceId)
    (now : ℤ) : (store.persistSessionAfterSend deviceId now).Stripped := by
  unfold UserStore.persistSessionAfterSend
  cases store.getDeviceRecord deviceId now with
  | none => exact hstripped
  | some device =>
    dsimp only
    cases device.session with
    | none => exact hstripped
    | some session => exact hstripped.setDeviceRecord deviceId _ now

end UserStore

/-! ## Runs -/

/-- The event writes the session of a receive or a send. -/
def SessionEvent.isPersist : SessionEvent → Bool
  | .commit _ => false
  | .readDevice _ _ => false
  | .persistPreKey _ _ _ => true
  | .persistReceive _ _ => true
  | .persistSend _ => true

namespace SessionWorld

variable {world : SessionWorld}

/-- The protocol commits valid records with bounded archives, a PreKey receive persists over a
snapshot whose merge is sound, and an ordinary receive persists after a commit. -/
def Sound (world : SessionWorld) (deviceId : DeviceId) (maxInactiveSessions : ℕ) :
    SessionEvent → Prop
  | .commit record => record.Valid ∧ record.archivedSessions.size ≤ maxInactiveSessions
  | .readDevice _ _ => True
  | .persistPreKey receive _ _ => ∀ snapshot previous fromProtocol,
      world.receives receive = some (some snapshot) → snapshot.session = some previous →
      previous.currentSession ≠ none → world.store.sessions deviceId = some fromProtocol →
      MergeSound world.committed maxInactiveSessions previous fromProtocol
  | .persistReceive _ _ => world.store.sessions deviceId ≠ none
  | .persistSend _ => True

/-- Each event is sound in the world that it meets. -/
def SoundRun (world : SessionWorld) (deviceId : DeviceId) (maxInactiveSessions : ℕ) :
    List SessionEvent → Prop
  | [] => True
  | event :: events => world.Sound deviceId maxInactiveSessions event ∧
      (world.step deviceId maxInactiveSessions event).SoundRun deviceId maxInactiveSessions events

/-- The worlds of sound runs from the first use of the address. -/
def SoundlyReached (world : SessionWorld) (deviceId : DeviceId) (maxInactiveSessions : ℕ) : Prop :=
  ∃ events, empty.SoundRun deviceId maxInactiveSessions events ∧
    empty.run deviceId maxInactiveSessions events = world

structure Recorded (world : SessionWorld) (deviceId : DeviceId) (maxInactiveSessions : ℕ) :
    Prop where
  stripped : world.store.Stripped
  keyed : ∀ key session, world.committed key = some session → session.baseKey = key
  faithful : ∀ record, world.store.sessions deviceId = some record →
    Faithful world.committed maxInactiveSessions record

theorem recorded_empty (deviceId : DeviceId) (maxInactiveSessions : ℕ) :
    empty.Recorded deviceId maxInactiveSessions := by
  refine ⟨?_, ?_, ?_⟩
  · rintro _ _ ⟨⟩
  · rintro _ _ ⟨⟩
  · rintro _ ⟨⟩

theorem Recorded.commitLog_eq (hrecorded : world.Recorded deviceId maxInactiveSessions)
    (hfind : record.findSession key = some session) :
    world.commitLog deviceId record key = some session := by
  unfold commitLog
  rw [hfind]
  dsimp only
  split
  case isTrue hstored =>
    rw [bind_eq_some_iff] at hstored
    obtain ⟨stored, hsess, hsame⟩ := hstored
    have hfaithful := hrecorded.faithful stored hsess
    obtain ⟨hholds, rfl⟩ := hfaithful.valid.findSession_iff.mp hsame
    exact hfaithful.last session hholds
  case isFalse => rfl

theorem Recorded.commit (hrecorded : world.Recorded deviceId maxInactiveSessions)
    (hvalid : record.Valid) (hbound : record.archivedSessions.size ≤ maxInactiveSessions) :
    (world.step deviceId maxInactiveSessions (.commit record)).Recorded deviceId
      maxInactiveSessions := by
  refine ⟨hrecorded.stripped, ?_, ?_⟩
  · intro key session hcommit
    change world.commitLog deviceId record key = some session at hcommit
    cases hfind : record.findSession key with
    | none =>
      unfold commitLog at hcommit
      rw [hfind] at hcommit
      exact hrecorded.keyed key session hcommit
    | some found =>
      rw [hrecorded.commitLog_eq hfind] at hcommit
      cases hcommit
      exact (hvalid.findSession_iff.mp hfind).2
  · intro stored hstored
    change Function.update world.store.sessions deviceId (some record) deviceId = some stored
      at hstored
    rw [Function.update_self] at hstored
    cases hstored
    refine ⟨hvalid, hbound, fun session hholds => ?_⟩
    exact hrecorded.commitLog_eq (hvalid.findSession_iff.mpr ⟨hholds, rfl⟩)

theorem step_persistPreKey {receive : ℕ}
    (hrecv : world.receives receive = some previousDeviceRecord)
    (incomingIdentityKey : IdentityKey) (now : ℤ) :
    world.step deviceId maxInactiveSessions (.persistPreKey receive incomingIdentityKey now) =
      { world with
        store := (world.store.persistPreKeyResult deviceId
          { previousDeviceRecord, incomingIdentityKey } maxInactiveSessions now).2 } := by
  simp only [step, hrecv]

theorem mergePreKeySession_cases (previous : Option SessionRecord) (fromProtocol : SessionRecord)
    (maxInactiveSessions : ℕ) :
    mergePreKeySession previous fromProtocol maxInactiveSessions = fromProtocol ∨
      ∃ snapshot, previous = some snapshot ∧ snapshot.currentSession ≠ none := by
  cases previous with
  | none => exact .inl rfl
  | some snapshot =>
    by_cases hcur : snapshot.currentSession = none
    · refine .inl ?_
      unfold mergePreKeySession
      dsimp only
      rw [if_pos (isNone_iff_eq_none.mpr hcur)]
    · exact .inr ⟨snapshot, rfl, hcur⟩

section

variable (hrecorded : world.Recorded deviceId maxInactiveSessions)

include hrecorded

theorem Recorded.merge {receive : ℕ} {incomingIdentityKey : IdentityKey}
    (hrecv : world.receives receive = some previousDeviceRecord)
    (hsound : world.Sound deviceId maxInactiveSessions
      (.persistPreKey receive incomingIdentityKey now))
    (hsess : world.store.sessions deviceId = some fromProtocol) :
    Faithful world.committed maxInactiveSessions
        (mergePreKeySession (previousDeviceRecord.bind (·.session)) fromProtocol
          maxInactiveSessions) ∧
      ∀ session, fromProtocol.Holds session →
        (mergePreKeySession (previousDeviceRecord.bind (·.session)) fromProtocol
          maxInactiveSessions).Holds session := by
  have hfaithful := hrecorded.faithful fromProtocol hsess
  obtain hsame | ⟨previous, hprev, hcur⟩ :=
    mergePreKeySession_cases (previousDeviceRecord.bind (·.session)) fromProtocol
      maxInactiveSessions
  · rw [hsame]
    exact ⟨hfaithful, fun _ hholds => hholds⟩
  · obtain ⟨snapshot, rfl, hsnapshot⟩ := bind_eq_some_iff.mp hprev
    have hmerge := hsound snapshot previous fromProtocol hrecv hsnapshot hcur hsess
    have hmerged := (hfaithful.merge_iff hrecorded.keyed hcur).mpr hmerge
    rw [hprev]
    exact ⟨hmerged, fun _ hholds => hfaithful.merge_holds hcur hmerged hholds⟩

theorem Recorded.step (hsound : world.Sound deviceId maxInactiveSessions event) :
    (world.step deviceId maxInactiveSessions event).Recorded deviceId maxInactiveSessions := by
  cases event with
  | commit record => exact hrecorded.commit hsound.1 hsound.2
  | readDevice receive now => exact ⟨hrecorded.stripped, hrecorded.keyed, hrecorded.faithful⟩
  | persistPreKey receive incomingIdentityKey now =>
    cases hrecv : world.receives receive with
    | none =>
      have hsame : world.step deviceId maxInactiveSessions
          (.persistPreKey receive incomingIdentityKey now) = world := by
        simp only [SessionWorld.step, hrecv]
      rw [hsame]
      exact hrecorded
    | some previousDeviceRecord =>
      rw [step_persistPreKey hrecv]
      refine ⟨hrecorded.stripped.persistPreKeyResult _ _ _ _, hrecorded.keyed, ?_⟩
      intro record hrec
      rw [UserStore.sessions_persistPreKeyResult, map_eq_some_iff] at hrec
      obtain ⟨fromProtocol, hsess, rfl⟩ := hrec
      exact (hrecorded.merge hrecv hsound hsess).1.with_metadata _
  | persistReceive fallback now =>
    refine ⟨hrecorded.stripped.persistSessionAfterReceive _ _ _, hrecorded.keyed, ?_⟩
    intro record hrec
    obtain ⟨session, hsess⟩ := ne_none_iff_exists'.mp hsound
    have hafter := UserStore.sessions_persistSessionAfterReceive fallback now hsess
    cases hafter.symm.trans hrec
    exact (hrecorded.faithful session hsess).with_metadata _
  | persistSend now =>
    refine ⟨hrecorded.stripped.persistSessionAfterSend _ _, hrecorded.keyed, ?_⟩
    intro record hrec
    have hafter := hrecorded.stripped.sessions_persistSessionAfterSend deviceId now
    obtain ⟨session, hsess, rfl⟩ := map_eq_some_iff.mp (hafter.symm.trans hrec)
    exact (hrecorded.faithful session hsess).with_metadata _

theorem Recorded.run {events : List SessionEvent}
    (hsound : world.SoundRun deviceId maxInactiveSessions events) :
    (world.run deviceId maxInactiveSessions events).Recorded deviceId maxInactiveSessions := by
  induction events generalizing world with
  | nil => exact hrecorded
  | cons event events ih => exact ih (hrecorded.step hsound.1) hsound.2

theorem Recorded.persist_holds
    (hpersist : event.isPersist) (hsound : world.Sound deviceId maxInactiveSessions event)
    {before after : SessionRecord} (hbefore : world.store.sessions deviceId = some before)
    (hafter : (world.step deviceId maxInactiveSessions event).store.sessions deviceId = some after)
    (hholds : before.Holds session) : after.Holds session := by
  cases event with
  | commit record => cases hpersist
  | readDevice receive now => cases hpersist
  | persistPreKey receive incomingIdentityKey now =>
    cases hrecv : world.receives receive with
    | none =>
      simp only [SessionWorld.step, hrecv, hbefore, Option.some.injEq] at hafter
      exact hafter ▸ hholds
    | some previousDeviceRecord =>
      rw [step_persistPreKey hrecv, UserStore.sessions_persistPreKeyResult, hbefore,
        map_some] at hafter
      cases hafter
      exact (hrecorded.merge hrecv hsound hbefore).2 session hholds
  | persistReceive fallback now =>
    cases (UserStore.sessions_persistSessionAfterReceive fallback now hbefore).symm.trans hafter
    exact hholds
  | persistSend now =>
    have hsend := hrecorded.stripped.sessions_persistSessionAfterSend deviceId now
    rw [hbefore, map_some] at hsend
    cases hsend.symm.trans hafter
    exact hholds

end

end SessionWorld

/-- In a run of sound events the stored device record has the states that the protocol committed
last, with its current base key outside its bounded archive, and each persist keeps every session
that the protocol holds. -/
theorem persisted_sessions_are_committed {world : SessionWorld}
    (hreached : world.SoundlyReached deviceId maxInactiveSessions) :
    (∀ now device record, world.store.getDeviceRecord deviceId now = some device →
      device.session = some record → Faithful world.committed maxInactiveSessions record) ∧
    (∀ event before after session, event.isPersist = true →
      world.Sound deviceId maxInactiveSessions event →
      world.store.sessions deviceId = some before →
      (world.step deviceId maxInactiveSessions event).store.sessions deviceId = some after →
      before.Holds session → after.Holds session) ∧
    ∀ receive snapshot previous fromProtocol after incomingIdentityKey now,
      world.receives receive = some (some snapshot) → snapshot.session = some previous →
      previous.currentSession ≠ none → world.store.sessions deviceId = some fromProtocol →
      (world.step deviceId maxInactiveSessions
        (.persistPreKey receive incomingIdentityKey now)).store.sessions deviceId = some after →
      (Faithful world.committed maxInactiveSessions after ↔
        MergeSound world.committed maxInactiveSessions previous fromProtocol) := by
  obtain ⟨events, hsound, rfl⟩ := hreached
  have hrecorded := (SessionWorld.recorded_empty deviceId maxInactiveSessions).run hsound
  refine ⟨?_, ?_, ?_⟩
  · intro now device record hdevice hrecord
    rw [hrecorded.stripped.session_eq hdevice] at hrecord
    exact hrecorded.faithful record hrecord
  · intro event before after session hpersist hevent hbefore hafter hholds
    exact hrecorded.persist_holds hpersist hevent hbefore hafter hholds
  · intro receive snapshot previous fromProtocol after incomingIdentityKey now hreceive hsnapshot
      hcurrent hsession hafter
    rw [SessionWorld.step_persistPreKey hreceive, UserStore.sessions_persistPreKeyResult, hsession,
      map_some, bind_some, hsnapshot] at hafter
    cases hafter
    rw [← (hrecorded.faithful fromProtocol hsession).merge_iff hrecorded.keyed hcurrent]
    exact ⟨fun hfaithful => hfaithful.with_metadata _, fun hfaithful => hfaithful.with_metadata _⟩

def exampleSession (baseKey : BaseKey) (ratchet : String) : SessionState where
  baseKey
  remoteIdentity := [1]
  ratchet

/-- A record with a current session over archived ones. -/
def exampleRecord (current : SessionState) (archived : List SessionState) : SessionRecord where
  currentSession := some current
  archivedSessions := archived.foldl insertArchived ∅

/-- A PreKey receive of session B, after the snapshot of session A. -/
def exampleReceive (during : List SessionEvent) : List SessionEvent :=
  [.commit (exampleRecord (exampleSession "A" "0") []), .readDevice 0 0] ++ during ++
    [.persistPreKey 0 [1] 2]

def exampleSent : SessionEvent := .commit (exampleRecord (exampleSession "A" "1") [])

def exampleDecrypted (ratchet : String) : SessionEvent :=
  .commit (exampleRecord (exampleSession "B" "0") [exampleSession "A" ratchet])

/-- A repeated PreKey message of session B: the snapshot holds the session itself. -/
def exampleRepeated : List SessionEvent :=
  [.commit (exampleRecord (exampleSession "B" "0") []), .readDevice 0 0,
    .commit (exampleRecord (exampleSession "B" "1") []), .persistPreKey 0 [1] 2]

/-- A send between the snapshot and the decrypt leaves the archived session at its older state,
and a repeated PreKey message puts an older state of the current session in the archive. -/
theorem prekey_persist_rolls_session_back :
    ((SessionWorld.empty.run 1 40 (exampleReceive [exampleSent, exampleDecrypted "1"])).committed
        "A" = some (exampleSession "A" "1") ∧
      ((SessionWorld.empty.run 1 40
        (exampleReceive [exampleSent, exampleDecrypted "1"])).store.sessions 1).bind
          (·.findSession "A") = some (exampleSession "A" "0")) ∧
      ((SessionWorld.empty.run 1 40 exampleRepeated).store.sessions 1).bind
          (·.currentSession) = some (exampleSession "B" "1") ∧
      ((SessionWorld.empty.run 1 40 exampleRepeated).store.sessions 1).bind
          (·.archivedSessions.get? "B") = some (exampleSession "B" "0") :=
  ⟨⟨by decide, by decide⟩, by decide, by decide⟩

theorem exampleReceive_soundRun :
    SessionWorld.empty.SoundRun 1 40 (exampleReceive [exampleDecrypted "0"]) := by
  refine ⟨⟨by decide, by decide⟩, trivial, ⟨by decide, by decide⟩, ?_, trivial⟩
  intro snapshot previous fromProtocol hrecv hsnapshot hcur hsess
  have hprev : previous = exampleRecord (exampleSession "A" "0") [] := by
    cases hrecv
    cases hsnapshot
    rfl
  have hprotocol :
      fromProtocol = exampleRecord (exampleSession "B" "0") [exampleSession "A" "0"] := by
    cases hsess
    rfl
  rw [hprev, hprotocol]
  decide

theorem exampleReceive_committed :
    Faithful (SessionWorld.empty.run 1 40 (exampleReceive [exampleDecrypted "0"])).committed 40
      (updateSessionRecordAfterReceive
        (exampleRecord (exampleSession "B" "0") [exampleSession "A" "0"]) 2) := by
  have hsession : (SessionWorld.empty.run 1 40
      (exampleReceive [exampleDecrypted "0"])).store.sessions 1 =
        some (updateSessionRecordAfterReceive
          (exampleRecord (exampleSession "B" "0") [exampleSession "A" "0"]) 2) := by
    decide
  obtain ⟨device, hdevice, hrecord⟩ := UserStore.getDeviceRecord_of_session 3 hsession
  exact (persisted_sessions_are_committed ⟨_, exampleReceive_soundRun, rfl⟩).1 3 device _ hdevice
    hrecord

end SignalProtocol.Sesame

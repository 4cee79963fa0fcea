import SignalProtocol.Proof.KeyLayouts
import SignalProtocol.SessionStores.Adapters

/-! # Tables of session records

A table whose rows stand under the texts of addresses shows a map from addresses to untimed records.
-/

namespace SignalProtocol.SessionStores

open KeyValue Sesame JoinedText List OrderedMap

variable {Value : Type} {address : ProtocolAddress} {value : Value}

structure Shows (keyOf : ProtocolAddress → KeyText) (recordOf : Value → SessionRecord)
    (table : OrderedMap KeyText Value) (sessions : SessionMap) : Prop where
  rows : ∀ address, (table.get? (keyOf address)).map (untimed ∘ recordOf) = sessions.get? address
  keyed : ∀ key ∈ table.keys, ∃ address, key = keyOf address

namespace Shows

variable {keyOf : ProtocolAddress → KeyText} {recordOf : Value → SessionRecord}
variable {table : OrderedMap KeyText Value} {sessions : SessionMap}

theorem empty : Shows keyOf recordOf ∅ ∅ where
  rows := fun _ => rfl
  keyed := by
    intro key hkey
    cases hkey

section

variable (hshows : Shows keyOf recordOf table sessions)

include hshows

theorem some_of_get? (hget : table.get? (keyOf address) = some value) :
    sessions.get? address = some (untimed (recordOf value)) := by
  rw [← hshows.rows, hget]
  rfl

theorem none_of_get? (hget : table.get? (keyOf address) = none) : sessions.get? address = none := by
  rw [← hshows.rows, hget]
  rfl

section

variable (hkeys : Function.Injective keyOf)

include hkeys

theorem set
    (address : ProtocolAddress) {record : SessionRecord}
    (hrec : untimed (recordOf value) = record) :
    Shows keyOf recordOf (table.set (keyOf address) value) (sessions.set address record) where
  rows := by
    intro other
    rw [get?_set, get?_set]
    by_cases hother : other = address
    · rw [if_pos (congrArg keyOf hother), if_pos hother, ← hrec]
      rfl
    · rw [if_neg fun heq => hother (hkeys heq), if_neg hother, hshows.rows]
  keyed := by
    intro key hkey
    rw [mem_keys_set] at hkey
    rcases hkey with rfl | hkey
    · exact ⟨address, rfl⟩
    · exact hshows.keyed key hkey

theorem erase
    (address : ProtocolAddress) :
    Shows keyOf recordOf (table.erase (keyOf address)) (sessions.erase address) where
  rows := by
    intro other
    rw [get?_erase, get?_erase]
    by_cases hother : other = address
    · rw [if_pos (congrArg keyOf hother), if_pos hother]
      rfl
    · rw [if_neg fun heq => hother (hkeys heq), if_neg hother, hshows.rows]
  keyed := by
    intro key hkey
    rw [mem_keys_erase] at hkey
    exact hshows.keyed key hkey.2

theorem found (userId : String) {keep : KeyText → Value → Bool}
    (hkeep : ∀ address value, table.get? (keyOf address) = some value →
      (keep (keyOf address) value = true ↔ address.userId = userId)) :
    ((table.filterEntries keep).values.map (untimed ∘ recordOf)).Perm
      (sessions.filterKeys (·.userId = userId)).values := by
  have hleft : (((table.filterEntries keep).entries.map fun entry =>
      (entry.1, untimed (recordOf entry.2))).map Prod.fst).Nodup := by
    rw [map_map]
    exact (table.filterEntries keep).nodup
  have hright : ((sessions.filterKeys (·.userId = userId)).entries.map fun entry =>
      (keyOf entry.1, entry.2)).Nodup := by
    refine List.Nodup.map ?_ (sessions.filterKeys _).nodup.of_map
    rintro ⟨address, record⟩ ⟨other, otherRecord⟩ heq
    obtain ⟨hkey, hrec⟩ := Prod.mk.inj heq
    exact Prod.ext (hkeys hkey) hrec
  have hperm : ((table.filterEntries keep).entries.map fun entry =>
      (entry.1, untimed (recordOf entry.2))).Perm
        ((sessions.filterKeys (·.userId = userId)).entries.map fun entry =>
          (keyOf entry.1, entry.2)) := by
    rw [perm_ext_iff_of_nodup hleft.of_map hright]
    rintro ⟨key, record⟩
    rw [mem_map, mem_map]
    constructor
    · rintro ⟨⟨stored, value⟩, hentry, heq⟩
      obtain ⟨rfl, rfl⟩ := Prod.mk.inj heq
      obtain ⟨hentry, hfound⟩ := mem_filter.mp hentry
      obtain ⟨address, rfl⟩ := hshows.keyed stored (mem_map_of_mem hentry)
      have hget := (get?_eq_some_iff _ _ _).mpr hentry
      refine ⟨(address, untimed (recordOf value)), mem_filter.mpr ⟨?_, ?_⟩, rfl⟩
      · exact (get?_eq_some_iff _ _ _).mp (hshows.some_of_get? hget)
      · exact decide_eq_true ((hkeep address value hget).mp hfound)
    · rintro ⟨⟨address, stored⟩, hentry, heq⟩
      obtain ⟨rfl, rfl⟩ := Prod.mk.inj heq
      obtain ⟨hentry, huser⟩ := mem_filter.mp hentry
      have hstored := (get?_eq_some_iff _ _ _).mpr hentry
      rw [← hshows.rows, Option.map_eq_some_iff] at hstored
      obtain ⟨value, hget, hrec⟩ := hstored
      refine ⟨(keyOf address, value), mem_filter.mpr ⟨?_, ?_⟩, ?_⟩
      · exact (get?_eq_some_iff _ _ _).mp hget
      · exact (hkeep address value hget).mpr (of_decide_eq_true huser)
      · exact Prod.ext rfl hrec
  have hvals := hperm.map Prod.snd
  rw [map_map, map_map] at hvals
  rw [OrderedMap.values, map_map]
  exact hvals

end

end

end Shows

theorem serializeAddress_injective :
    Function.Injective fun address : ProtocolAddress =>
      serializeAddress address.userId address.deviceId := by
  rintro ⟨userId, deviceId⟩ ⟨otherUser, otherDevice⟩ heq
  obtain ⟨huser, hdev⟩ := (concat_inj (not_mem_decimal rfl _) (not_mem_decimal rfl _)).mp heq
  exact congrArg₂ ProtocolAddress.mk (toList_inj.mp huser) (decimal_inj.mp hdev)

theorem sessionIdOf_injective : Function.Injective SqliteState.sessionIdOf := by
  rintro ⟨userId, deviceId⟩ ⟨otherUser, otherDevice⟩ heq
  obtain ⟨huser, hdev⟩ := (concat_inj (colon_not_mem_decimal _) (colon_not_mem_decimal _)).mp heq
  exact congrArg₂ ProtocolAddress.mk (toList_inj.mp huser) (decimal_inj.mp hdev)

theorem sqlLike_append (start pattern text : List Char) (hlike : sqlLike pattern text = true) :
    sqlLike (start ++ pattern) (start ++ text) = true := by
  induction start with
  | nil => exact hlike
  | cons char start ih =>
    rw [cons_append, cons_append, sqlLike]
    split
    · rw [any_eq_true]
      exact ⟨start ++ text, by simp, ih⟩
    · simp [ih]

variable (address : ProtocolAddress)

theorem sqlLike_userPattern :
    sqlLike (SqliteState.userPattern address.userId) (SqliteState.sessionIdOf address) = true := by
  refine sqlLike_append _ _ _ ?_
  have hrest : sqlLike ['%'] (decimal address.deviceId) = true := by
    change (decimal address.deviceId).tails.any (sqlLike []) = true
    rw [any_eq_true]
    exact ⟨[], by simp, rfl⟩
  change ((':' = '_' || ':'.toLower = ':'.toLower) && sqlLike ['%'] _) = true
  rw [hrest]
  decide

theorem isKeyOf_getAddressKey :
    MemoryState.isKeyOf address.userId (MemoryState.getAddressKey address) = true := by
  have hstart : startsWith (address.userId.toList ++ ['.']) (MemoryState.getAddressKey address) =
      true := by
    rw [startsWith, isPrefixOf_iff_prefix]
    exact ⟨decimal address.deviceId, by simp [MemoryState.getAddressKey, serializeAddress]⟩
  rw [MemoryState.isKeyOf, hstart, Bool.true_or]

theorem untimed_archiveCurrent (record : SessionRecord) (newSession : Option SessionState)
    (maxArchived : ℕ) : untimed (record.archiveCurrent newSession maxArchived) =
      (untimed record).archiveCurrent newSession maxArchived := rfl

/-! ## The four stores and the map of sessions

Each store answers like the map from addresses to session records while its calls meet the condition
of the store. -/

open Results

variable {newSession : Option SessionState} {address : ProtocolAddress}
  {expected : SessionRecord}

def SameAnswer (answer expected : Answer) : Prop := answer.untimed = expected.untimed

def FindsUser (keyOf : ProtocolAddress → KeyText) (found : KeyText → Bool) (keys : List KeyText)
    (userId : String) : Prop :=
  ∀ address, keyOf address ∈ keys → found (keyOf address) = true → address.userId = userId

def NothingArchived (stored : Option SessionRecord) (newSession : Option SessionState) : Prop :=
  match stored with
  | none => newSession = none
  | some record => newSession.isSome ∧ record.currentSession = none ∧
      record.archivedSessions.size ≤ MAX_ARCHIVED_SESSIONS

/-- A device with a session has a user id that `ProtocolAddress.create` accepts. -/
def NamesUser (address : ProtocolAddress) (record : DeviceRecord) : Prop :=
  record.session.isSome → address.userId.trimAscii.isEmpty = false

section Answers

variable {Value : Type} {keyOf : ProtocolAddress → KeyText} {recordOf : Value → SessionRecord}
variable {table : OrderedMap KeyText Value} {sessions : SessionMap}

section

variable (hshows : Shows keyOf recordOf table sessions)

include hshows

theorem Shows.sessionAnswer (address : ProtocolAddress) :
    SameAnswer (.session ((table.get? (keyOf address)).map recordOf))
      (.session (sessions.get? address)) := by
  rw [← hshows.rows, SameAnswer, Answer.untimed, Answer.untimed, Option.map_map, Option.map_map]
  rfl

theorem Shows.isSome_eq (address : ProtocolAddress) :
    (table.get? (keyOf address)).isSome = (sessions.get? address).isSome := by
  rw [← hshows.rows, Option.isSome_map]

theorem Shows.userAnswer
    (hkeys : Function.Injective keyOf) (userId : String) {keep : KeyText → Value → Bool}
    (hkeep : ∀ address value, table.get? (keyOf address) = some value →
      (keep (keyOf address) value = true ↔ address.userId = userId)) :
    SameAnswer (.sessions ((table.filterEntries keep).values.map recordOf))
      (.sessions (sessions.filterKeys (·.userId = userId)).values) := by
  have hperm := hshows.found hkeys userId hkeep
  rw [SameAnswer, Answer.untimed, Answer.untimed, Multiset.map_coe, Multiset.map_coe, map_map]
  have huntimed := hperm.map untimed
  rw [map_map] at huntimed
  exact congrArg _ (Multiset.coe_eq_coe.mpr huntimed)

end

section

variable {table : OrderedMap KeyText SessionRecord} (hshows : Shows keyOf id table sessions)

include hshows

theorem Shows.recordAnswer (address : ProtocolAddress) :
    SameAnswer (.session (table.get? (keyOf address))) (.session (sessions.get? address)) := by
  have hanswer := hshows.sessionAnswer address
  rwa [Option.map_id] at hanswer

theorem Shows.findAnswer (hkeys : Function.Injective keyOf) (found : String → KeyText → Bool)
    {userId : String} (hfinds : FindsUser keyOf (found userId) table.keys userId)
    (howner : ∀ address, found address.userId (keyOf address) = true) :
    SameAnswer (.sessions (table.filterEntries fun key _ => found userId key).values)
      (.sessions (sessions.filterKeys (·.userId = userId)).values) := by
  have hanswer : SameAnswer (.sessions
      ((table.filterEntries fun key _ => found userId key).values.map id)) _ :=
    hshows.userAnswer hkeys userId fun address value hget =>
      ⟨hfinds address ((mem_keys_iff _ _).mpr ⟨value, hget⟩),
        fun huser => huser ▸ howner address⟩
  rwa [map_id] at hanswer

end

end Answers

theorem untimed_replaceCurrent {record : SessionRecord} {session : SessionState} (now : ℤ)
    (hcur : record.currentSession = none)
    (hsize : record.archivedSessions.size ≤ MAX_ARCHIVED_SESSIONS) :
    untimed (replaceCurrent record session now) =
      (untimed record).archiveCurrent (some session) MAX_ARCHIVED_SESSIONS := by
  have hdrop : dropOldest record.archivedSessions MAX_ARCHIVED_SESSIONS =
      record.archivedSessions := by
    refine OrderedMap.ext ?_
    rw [dropOldest, Nat.sub_eq_zero_of_le hsize, List.take_zero]
    exact filter_eq_self.mpr fun _ _ => by simp
  rw [← untimed_archiveCurrent]
  unfold replaceCurrent SessionRecord.archiveCurrent
  rw [hcur]
  dsimp only
  rw [hdrop]
  rfl

theorem archiveIn_missing {sessions : SessionMap}
    (hget : sessions.get? address = none) : archiveIn sessions address none = sessions := by
  unfold archiveIn
  rw [hget]
  rfl

theorem archiveIn_present {sessions : SessionMap} {record : SessionRecord}
    (hget : sessions.get? address = some record) (newSession : Option SessionState) :
    archiveIn sessions address newSession =
      sessions.set address (record.archiveCurrent newSession MAX_ARCHIVED_SESSIONS) := by
  unfold archiveIn
  rw [hget]

namespace MemoryState

def Meets (state : MemoryState) : Call → Prop
  | .getSessionsForUser userId =>
    FindsUser getAddressKey (isKeyOf userId) state.sessionRecords.keys userId
  | _ => True

def ShowsSessions (state : MemoryState) (sessions : SessionMap) : Prop :=
  Shows getAddressKey id state.sessionRecords sessions

variable {state : MemoryState} {sessions : SessionMap}

theorem getAddressKey_injective : Function.Injective getAddressKey := serializeAddress_injective

theorem archiveCurrentSession_shows (hshows : state.ShowsSessions sessions)
    (address : ProtocolAddress) (newSession : Option SessionState) (now : ℤ) :
    (archiveCurrentSession address newSession now state).ShowsSessions
      (archiveIn sessions address newSession) := by
  unfold archiveCurrentSession archiveIn
  cases hget : state.sessionRecords.get? (getAddressKey address) with
  | some record =>
    rw [hshows.some_of_get? hget]
    exact hshows.set getAddressKey_injective address rfl
  | none =>
    rw [hshows.none_of_get? hget]
    cases newSession with
    | none => exact hshows
    | some session => exact hshows.set getAddressKey_injective address rfl

theorem call_agree (hshows : state.ShowsSessions sessions) {next : Call}
    (hmeets : state.Meets next) :
    Agree ShowsSessions SameAnswer (call next state) (sessionMapCall next sessions) := by
  cases next
  case storeSessionRecord address record =>
    exact .ok rfl (hshows.set getAddressKey_injective address rfl)
  case archiveCurrentSession address newSession now =>
    exact .ok rfl (archiveCurrentSession_shows hshows address newSession now)
  case setDeviceRecord address record now =>
    refine .ok rfl ?_
    rw [ShowsSessions, setDeviceRecord]
    cases record.session with
    | none => exact hshows
    | some session => exact hshows.set getAddressKey_injective address rfl
  case deleteSessionRecord address =>
    exact .ok rfl (hshows.erase getAddressKey_injective address)
  case getSessionRecord address => exact .ok (hshows.recordAnswer address) hshows
  case hasSession address => exact .ok (congrArg Answer.flag (hshows.isSome_eq address)) hshows
  case getSessionsForUser userId =>
    exact .ok (hshows.findAnswer getAddressKey_injective isKeyOf hmeets isKeyOf_getAddressKey) hshows

end MemoryState

namespace IndexedDbState

def Meets (state : IndexedDbState) : Call → Prop
  | .archiveCurrentSession address newSession _ =>
    NothingArchived (state.getSessionRecord address) newSession
  | .setDeviceRecord address record _ => NamesUser address record
  | _ => True

structure ShowsSessions (state : IndexedDbState) (sessions : SessionMap) : Prop where
  shows : Shows addressKey SessionRow.record state.sessions sessions
  users : ∀ address row, state.sessions.get? (addressKey address) = some row →
    row.userId = address.userId

variable {state : IndexedDbState} {sessions : SessionMap}

theorem addressKey_injective : Function.Injective addressKey := serializeAddress_injective

section

variable (hshows : state.ShowsSessions sessions)

include hshows

theorem ShowsSessions.put (address : ProtocolAddress)
    {record : SessionRecord} (hrec : untimed record = expected) :
    (state.putSession address record).ShowsSessions (sessions.set address expected) where
  shows := hshows.shows.set addressKey_injective address hrec
  users := by
    intro other row hget
    rw [putSession, get?_set] at hget
    split at hget
    case isTrue hother =>
      cases hget
      rw [addressKey_injective hother]
    case isFalse => exact hshows.users other row hget

theorem ShowsSessions.remove (address : ProtocolAddress) :
    (state.removeSession address).ShowsSessions (sessions.erase address) where
  shows := hshows.shows.erase addressKey_injective address
  users := by
    intro other row hget
    rw [removeSession, get?_erase] at hget
    split at hget
    case isTrue => cases hget
    case isFalse => exact hshows.users other row hget

theorem archiveCurrentSession_shows (address : ProtocolAddress) (now : ℤ)
    (hnothing : NothingArchived (state.getSessionRecord address) newSession) :
    (archiveCurrentSession address newSession now state).ShowsSessions
      (archiveIn sessions address newSession) := by
  unfold archiveCurrentSession archiveIn
  cases hget : state.sessions.get? (addressKey address) with
  | none =>
    rw [getSessionRecord, hget] at hnothing
    subst hnothing
    rw [hshows.shows.none_of_get? hget]
    have hrem := hshows.remove address
    rwa [erase_of_get?_eq_none (hshows.shows.none_of_get? hget)] at hrem
  | some row =>
    rw [getSessionRecord, hget] at hnothing
    obtain ⟨hnew, hcur, hsize⟩ := hnothing
    rw [hshows.shows.some_of_get? hget]
    cases newSession with
    | none => cases hnew
    | some session =>
      rw [getSessionRecord, hget]
      exact hshows.put address (untimed_replaceCurrent now hcur hsize)

theorem setDeviceRecord_agree
    {record : DeviceRecord} (now : ℤ) (hnames : NamesUser address record) :
    Agree ShowsSessions SameAnswer (call (.setDeviceRecord address record now) state)
      (sessionMapCall (.setDeviceRecord address record now) sessions) := by
  rw [call, sessionMapCall, setDeviceRecord]
  cases hsess : record.session with
  | none => exact .ok rfl ⟨hshows.shows, hshows.users⟩
  | some session =>
    have huser := hnames (hsess ▸ rfl)
    dsimp only
    rw [if_neg (by rw [huser]; decide)]
    have hdev : (state.putDevice address record now).ShowsSessions sessions :=
      ⟨hshows.shows, hshows.users⟩
    exact .ok rfl (hdev.put address rfl)

theorem call_agree {next : Call} (hmeets : state.Meets next) :
    Agree ShowsSessions SameAnswer (call next state) (sessionMapCall next sessions) := by
  cases next
  case storeSessionRecord address record => exact .ok rfl (hshows.put address rfl)
  case archiveCurrentSession address newSession now =>
    exact .ok rfl (archiveCurrentSession_shows hshows address now hmeets)
  case setDeviceRecord address record now => exact setDeviceRecord_agree hshows now hmeets
  case deleteSessionRecord address => exact .ok rfl (hshows.remove address)
  case getSessionRecord address => exact .ok (hshows.shows.sessionAnswer address) hshows
  case hasSession address =>
    refine .ok (congrArg Answer.flag ?_) hshows
    rw [getSessionRecord, Option.isSome_map]
    exact hshows.shows.isSome_eq address
  case getSessionsForUser userId =>
    have hanswer : SameAnswer
        (.sessions ((state.sessions.filterEntries fun _ row => row.userId = userId).values.map
          SessionRow.record))
        (.sessions (sessions.filterKeys (·.userId = userId)).values) := by
      refine hshows.shows.userAnswer addressKey_injective userId fun address row hget => ?_
      rw [hshows.users address row hget, decide_eq_true_iff]
    have hvals : (state.sessions.filterEntries fun _ row => row.userId = userId).values =
        state.sessions.values.filter (·.userId = userId) := by
      rw [OrderedMap.values, OrderedMap.values, filter_map]
      rfl
    rw [hvals] at hanswer
    exact .ok hanswer hshows

end

end IndexedDbState

namespace SqliteState

def Meets (state : SqliteState) : Call → Prop
  | .archiveCurrentSession address newSession _ =>
    newSession.isSome ∨ sessionIdOf address ∉ state.sessions.keys
  | .getSessionsForUser userId =>
    FindsUser sessionIdOf (sqlLike (userPattern userId)) state.sessions.keys userId
  | _ => True

def ShowsSessions (state : SqliteState) (sessions : SessionMap) : Prop :=
  Shows sessionIdOf id state.sessions sessions

variable {state : SqliteState} {sessions : SessionMap}

theorem archiveCurrentSession_shows (hshows : state.ShowsSessions sessions)
    (hnew : newSession.isSome ∨ sessionIdOf address ∉ state.sessions.keys) :
    (archiveCurrentSession address newSession state).ShowsSessions
      (archiveIn sessions address newSession) := by
  unfold archiveCurrentSession archiveIn
  cases newSession with
  | none =>
    have hget := (OrderedMap.get?_eq_none_iff _ _).mpr (hnew.resolve_left (by decide))
    rw [hshows.none_of_get? hget]
    have herased := hshows.erase sessionIdOf_injective address
    rwa [erase_of_get?_eq_none (hshows.none_of_get? hget)] at herased
  | some session =>
    cases hget : state.sessions.get? (sessionIdOf address) with
    | some record =>
      rw [hshows.some_of_get? hget]
      exact hshows.set sessionIdOf_injective address rfl
    | none =>
      rw [hshows.none_of_get? hget]
      exact hshows.set sessionIdOf_injective address rfl

theorem call_agree (hshows : state.ShowsSessions sessions) {next : Call}
    (hmeets : state.Meets next) :
    Agree ShowsSessions SameAnswer (call next state) (sessionMapCall next sessions) := by
  cases next
  case storeSessionRecord address record =>
    exact .ok rfl (hshows.set sessionIdOf_injective address rfl)
  case archiveCurrentSession address newSession now =>
    exact .ok rfl (archiveCurrentSession_shows hshows hmeets)
  case setDeviceRecord address record now =>
    refine .ok rfl ?_
    rw [ShowsSessions, saveSesameDevice]
    cases record.session with
    | none => exact hshows
    | some session => exact hshows.set sessionIdOf_injective address rfl
  case deleteSessionRecord address =>
    exact .ok rfl (hshows.erase sessionIdOf_injective address)
  case getSessionRecord address => exact .ok (hshows.recordAnswer address) hshows
  case hasSession address => exact .ok (congrArg Answer.flag (hshows.isSome_eq address)) hshows
  case getSessionsForUser userId =>
    exact .ok (hshows.findAnswer sessionIdOf_injective (fun userId => sqlLike (userPattern userId))
      hmeets sqlLike_userPattern) hshows

end SqliteState

/-! ## The key-value store -/

namespace KeyValueSessions

variable (userId : String)

def sessionKey (address : ProtocolAddress) : KeyText :=
  getSessionStorageKey address.userId address.deviceId

def sessionRecord (row : Row sessionTypes KeyText) : SessionRecord :=
  row.session?.elim ⟨none, ∅, {}⟩ (·.2.2)

def storedRecord (state : KeyValueState) (address : ProtocolAddress) : Option SessionRecord :=
  (state.get? (sessionKey address)).map sessionRecord

def Meets (state : KeyValueState) : Call → Prop
  | .archiveCurrentSession address newSession _ =>
    NothingArchived (storedRecord state address) newSession
  | .setDeviceRecord address record _ => NamesUser address record
  | .hasSession address => ∀ record, storedRecord state address = some record →
      record.currentSession.isSome
  | _ => True

structure ShowsSessions (state : KeyValueState) (sessions : SessionMap) : Prop where
  rows : ∀ address, (state.get? (sessionKey address)).map (untimed ∘ sessionRecord) =
    sessions.get? address
  keyed : ∀ key ∈ state.keys, textLayout.isSession key = true → ∃ address, key = sessionKey address
  sessionRows : ∀ address row, state.get? (sessionKey address) = some row →
    ∃ record, row = .session address.userId address.deviceId record
  userRows : ∀ userId row, state.get? (getSesameUserStorageKey userId) = some row →
    ∃ record, row = .user record

variable {state : KeyValueState} {sessions : SessionMap}

theorem sessionKey_injective : Function.Injective sessionKey := by
  intro address other heq
  have hkey : (StorageKey.session address.userId address.deviceId).Stored := rfl
  have hother : (StorageKey.session other.userId other.deviceId).Stored := rfl
  obtain ⟨huser, hdev⟩ := StorageKey.session.inj (StorageKey.text_inj hkey hother heq)
  exact congrArg₂ ProtocolAddress.mk huser hdev

theorem sessionKey_ne (address : ProtocolAddress) (userId : String) :
    sessionKey address ≠ getSesameUserStorageKey userId := by
  intro heq
  have hkey : (StorageKey.session address.userId address.deviceId).Stored := rfl
  have hother : (StorageKey.sesameUser userId).Stored := rfl
  cases StorageKey.text_inj hkey hother heq

theorem isSession_sessionKey (address : ProtocolAddress) :
    textLayout.isSession (sessionKey address) = true := by
  have hkey : (StorageKey.session address.userId address.deviceId).Stored := rfl
  exact isSession_text hkey

theorem isSession_userKey :
    textLayout.isSession (getSesameUserStorageKey userId) = false := by
  have hkey : (StorageKey.sesameUser userId).Stored := rfl
  exact isSession_text hkey

section

variable (hshows : ShowsSessions state sessions)

include hshows

theorem ShowsSessions.putSession (address : ProtocolAddress) {record : SessionRecord}
    (hrec : untimed record = expected) :
    ShowsSessions
      (state.set (sessionKey address) (.session address.userId address.deviceId record))
      (sessions.set address expected) where
  rows := by
    intro other
    rw [get?_set, get?_set]
    by_cases hother : other = address
    · rw [if_pos (congrArg sessionKey hother), if_pos hother, ← hrec]
      rfl
    · rw [if_neg fun heq => hother (sessionKey_injective heq), if_neg hother, hshows.rows]
  keyed := by
    intro key hkey hsess
    rw [mem_keys_set] at hkey
    rcases hkey with rfl | hkey
    · exact ⟨address, rfl⟩
    · exact hshows.keyed key hkey hsess
  sessionRows := by
    intro other row hget
    rw [get?_set] at hget
    split at hget
    case isTrue hother =>
      cases hget
      rw [sessionKey_injective hother]
      exact ⟨record, rfl⟩
    case isFalse => exact hshows.sessionRows other row hget
  userRows := by
    intro userId row hget
    rw [get?_set_of_ne _ _ (sessionKey_ne address userId).symm] at hget
    exact hshows.userRows userId row hget

theorem ShowsSessions.putUser (userId : String)
    (record : UserRecord) :
    ShowsSessions (state.set (getSesameUserStorageKey userId) (.user record)) sessions where
  rows := by
    intro address
    rw [get?_set_of_ne _ _ (sessionKey_ne address userId), hshows.rows]
  keyed := by
    intro key hkey hsess
    rw [mem_keys_set] at hkey
    rcases hkey with rfl | hkey
    · rw [isSession_userKey] at hsess
      cases hsess
    · exact hshows.keyed key hkey hsess
  sessionRows := by
    intro address row hget
    rw [get?_set_of_ne _ _ (sessionKey_ne address userId)] at hget
    exact hshows.sessionRows address row hget
  userRows := by
    intro other row hget
    rw [get?_set] at hget
    split at hget
    case isTrue =>
      cases hget
      exact ⟨record, rfl⟩
    case isFalse => exact hshows.userRows other row hget

theorem ShowsSessions.removeSession
    (address : ProtocolAddress) :
    ShowsSessions (state.erase (sessionKey address)) (sessions.erase address) where
  rows := by
    intro other
    rw [get?_erase, get?_erase]
    by_cases hother : other = address
    · rw [if_pos (congrArg sessionKey hother), if_pos hother]
      rfl
    · rw [if_neg fun heq => hother (sessionKey_injective heq), if_neg hother, hshows.rows]
  keyed := by
    intro key hkey hsess
    rw [mem_keys_erase] at hkey
    exact hshows.keyed key hkey.2 hsess
  sessionRows := by
    intro other row hget
    rw [get?_erase] at hget
    split at hget
    case isTrue => cases hget
    case isFalse => exact hshows.sessionRows other row hget
  userRows := by
    intro userId row hget
    rw [get?_erase] at hget
    split at hget
    case isTrue => cases hget
    case isFalse => exact hshows.userRows userId row hget

theorem ShowsSessions.shows :
    Shows sessionKey sessionRecord (state.filterKeys textLayout.isSession) sessions where
  rows := by
    intro address
    rw [get?_filterKeys, if_pos (isSession_sessionKey address), hshows.rows]
  keyed := by
    intro key hkey
    rw [OrderedMap.keys, mem_map] at hkey
    obtain ⟨entry, hentry, rfl⟩ := hkey
    obtain ⟨hmem, hsess⟩ := mem_filter.mp hentry
    exact hshows.keyed entry.1 (mem_map_of_mem hmem) hsess

end

/-! ### Reads -/

theorem getSessionRecord_run (hshows : ShowsSessions state sessions) (address : ProtocolAddress) :
    getSessionRecord textLayout sessionRules address.userId address.deviceId state =
      .ok (storedRecord state address) state := by
  rw [storedRecord]
  cases hget : state.get? (sessionKey address) with
  | none =>
    have hread : readRow Row.session?
        (textLayout.key (.session address.userId address.deviceId)) state = .ok none state :=
      readRow_none hget
    exact (bind_apply_ok hread).trans rfl
  | some row =>
    obtain ⟨record, rfl⟩ := hshows.sessionRows address row hget
    have hread : readRow Row.session?
        (textLayout.key (.session address.userId address.deviceId)) state =
          .ok (some (address.userId, address.deviceId, record)) state := readRow_some hget rfl
    exact (bind_apply_ok hread).trans rfl

theorem getStoredUserRecord_run (hshows : ShowsSessions state sessions) (userId : String) :
    ∃ stored, getStoredUserRecord textLayout userId state = .ok stored state := by
  cases hget : state.get? (getSesameUserStorageKey userId) with
  | none => exact ⟨none, readRow_none hget⟩
  | some row =>
    obtain ⟨record, rfl⟩ := hshows.userRows userId row hget
    exact ⟨some record, readRow_some hget rfl⟩

def recordOfUser (userId : String) (state : KeyValueState) (key : KeyText) : Option SessionRecord :=
  (state.get? key).bind fun row =>
    if row.session?.any (·.1 = userId) then some (sessionRecord row) else none

theorem sessionOfUser_run (hshows : ShowsSessions state sessions) (userId : String)
    {key : KeyText} (hkey : key ∈ state.keys) (hsess : textLayout.isSession key = true) :
    sessionOfUser sessionRules userId key state = .ok (recordOfUser userId state key) state := by
  obtain ⟨address, rfl⟩ := hshows.keyed key hkey hsess
  obtain ⟨row, hget⟩ := (mem_keys_iff _ _).mp hkey
  obtain ⟨record, rfl⟩ := hshows.sessionRows address row hget
  have hread : readRow Row.session? (sessionKey address) state =
      .ok (some (address.userId, address.deviceId, record)) state := readRow_some hget rfl
  refine (bind_apply_ok hread).trans ?_
  rw [recordOfUser, hget]
  by_cases huser : address.userId = userId
  · simp [huser, sessionRules, sessionRecord, Row.session?]
  · simp [huser, sessionRecord, Row.session?]

theorem filterMap_entries {β : Type} (keep : Row sessionTypes KeyText → Bool)
    (value : Row sessionTypes KeyText → β) (entries : List (KeyText × Row sessionTypes KeyText)) :
    entries.filterMap (fun entry => if keep entry.2 then some (value entry.2) else none) =
      ((entries.filter fun entry => keep entry.2).map Prod.snd).map value := by
  induction entries with
  | nil => rfl
  | cons entry entries ih =>
    rw [filterMap_cons, filter_cons, ih]
    cases keep entry.2 with
    | true => rfl
    | false => rfl

theorem recordsOfUser_eq (state : KeyValueState) :
    ((state.keys.filter textLayout.isSession).map (recordOfUser userId state)).reduceOption =
      ((state.filterKeys textLayout.isSession).filterEntries fun _ row =>
        row.session?.any (·.1 = userId)).values.map sessionRecord := by
  have hkeys : state.keys.filter textLayout.isSession =
      (state.filterKeys textLayout.isSession).entries.map Prod.fst := by
    rw [OrderedMap.keys, filter_map]
    rfl
  have hrecs : (state.filterKeys textLayout.isSession).entries.filterMap
      (recordOfUser userId state ∘ Prod.fst) =
        (state.filterKeys textLayout.isSession).entries.filterMap fun entry =>
          if entry.2.session?.any (·.1 = userId) then some (sessionRecord entry.2) else none := by
    refine filterMap_congr ?_
    intro entry hentry
    have hget := (get?_eq_some_iff _ _ _).mpr (mem_of_mem_filter hentry)
    rw [Function.comp_apply, recordOfUser, hget]
    rfl
  rw [hkeys, map_map]
  change List.filterMap id (List.map (recordOfUser userId state ∘ Prod.fst) _) = _
  rw [filterMap_map]
  refine Eq.trans hrecs ?_
  exact filterMap_entries (fun row => row.session?.any (·.1 = userId)) sessionRecord _

theorem getSessionsForUser_run (hshows : ShowsSessions state sessions) (userId : String) :
    getSessionsForUser textLayout sessionRules userId state =
      .ok (((state.filterKeys textLayout.isSession).filterEntries fun _ row =>
        row.session?.any (·.1 = userId)).values.map sessionRecord) state := by
  have hkeys : (keysWhere textLayout.isSession : StoreM sessionTypes KeyText (List KeyText)) state =
      .ok (state.keys.filter textLayout.isSession) state := rfl
  refine (bind_apply_ok hkeys).trans ?_
  have hscan : (state.keys.filter textLayout.isSession).mapM (sessionOfUser sessionRules userId)
      state = .ok ((state.keys.filter textLayout.isSession).map (recordOfUser userId state)) state := by
    refine mapM_apply_ok fun key hkey => ?_
    obtain ⟨hmem, hsess⟩ := mem_filter.mp hkey
    exact sessionOfUser_run hshows userId hmem hsess
  refine (bind_apply_ok hscan).trans ?_
  rw [← recordsOfUser_eq]
  rfl

/-! ### Calls -/

section

variable (hshows : ShowsSessions state sessions)
  (now : ℤ)

include hshows

theorem archiveCurrentSession_agree
    (hnothing : NothingArchived (storedRecord state address) newSession) :
    Agree ShowsSessions SameAnswer
      (keyValueCall (.archiveCurrentSession address newSession now) state)
      (sessionMapCall (.archiveCurrentSession address newSession now) sessions) := by
  have hstored := hshows.rows address
  cases newSession with
  | none =>
    refine .ok rfl ?_
    have hrem := hshows.removeSession address
    cases hget : state.get? (sessionKey address) with
    | some row =>
      rw [storedRecord, hget] at hnothing
      cases hnothing.1
    | none =>
      rw [hget] at hstored
      rw [erase_of_get?_eq_none hstored.symm] at hrem
      change ShowsSessions _ (archiveIn sessions address none)
      rw [archiveIn_missing hstored.symm]
      exact hrem
  | some session =>
    cases hget : state.get? (sessionKey address) with
    | none =>
      rw [storedRecord, hget] at hnothing
      cases hnothing
    | some row =>
      have hread := getSessionRecord_run hshows address
      rw [storedRecord, hget] at hread hnothing
      obtain ⟨-, hcur, hsize⟩ := hnothing
      rw [hget] at hstored
      have hrun : archiveCurrentSession textLayout sessionRules address.userId address.deviceId
          (some session) now state =
            .ok () (state.set (sessionKey address) (.session address.userId address.deviceId
              (replaceCurrent (sessionRecord row) session now))) :=
        (bind_apply_ok hread).trans rfl
      rw [keyValueCall, bind_apply_ok hrun]
      refine .ok rfl ?_
      change ShowsSessions _ (archiveIn sessions address (some session))
      rw [archiveIn_present hstored.symm]
      exact hshows.putSession address (untimed_replaceCurrent now hcur hsize)

theorem setDeviceRecord_agree {record : DeviceRecord} (hnames : NamesUser address record) :
    Agree ShowsSessions SameAnswer (keyValueCall (.setDeviceRecord address record now) state)
      (sessionMapCall (.setDeviceRecord address record now) sessions) := by
  obtain ⟨stored, hread⟩ := getStoredUserRecord_run hshows address.userId
  have hdev := hshows.putUser address.userId
    (encodeUserRecord (withDevice stored address.deviceId record now))
  rw [keyValueCall, sessionMapCall]
  cases hsess : record.session with
  | none =>
    have hrun : setDeviceRecord textLayout address.userId address.deviceId record now state =
        .ok () (state.set (getSesameUserStorageKey address.userId)
          (.user (encodeUserRecord (withDevice stored address.deviceId record now)))) := by
      refine (bind_apply_ok hread).trans ?_
      rw [hsess]
      rfl
    rw [bind_apply_ok hrun]
    exact .ok rfl hdev
  | some session =>
    have huser := hnames (hsess ▸ rfl)
    have hrun : setDeviceRecord textLayout address.userId address.deviceId record now state =
        .ok () ((state.set (getSesameUserStorageKey address.userId)
          (.user (encodeUserRecord (withDevice stored address.deviceId record now)))).set
            (sessionKey address) (.session address.userId address.deviceId session)) := by
      refine (bind_apply_ok hread).trans ?_
      rw [hsess]
      dsimp only
      rw [createAddress, huser]
      rfl
    rw [bind_apply_ok hrun]
    exact .ok rfl (hdev.putSession address rfl)

theorem call_agree {next : Call} (hmeets : Meets state next) :
    Agree ShowsSessions SameAnswer (keyValueCall next state) (sessionMapCall next sessions) := by
  cases next
  case storeSessionRecord address record => exact .ok rfl (hshows.putSession address rfl)
  case archiveCurrentSession address newSession now =>
    exact archiveCurrentSession_agree hshows now hmeets
  case setDeviceRecord address record now => exact setDeviceRecord_agree hshows now hmeets
  case deleteSessionRecord address => exact .ok rfl (hshows.removeSession address)
  case getSessionRecord address =>
    rw [keyValueCall, bind_apply_ok (getSessionRecord_run hshows address)]
    refine .ok ?_ hshows
    rw [← hshows.rows, SameAnswer, Answer.untimed, Answer.untimed, storedRecord, Option.map_map,
      Option.map_map]
    rfl
  case hasSession address =>
    have hrun : hasSession textLayout sessionRules address.userId address.deviceId state =
        .ok ((storedRecord state address).any (·.currentSession.isSome)) state :=
      (bind_apply_ok (getSessionRecord_run hshows address)).trans rfl
    rw [keyValueCall, bind_apply_ok hrun]
    refine .ok (congrArg Answer.flag ?_) hshows
    have hstored : (storedRecord state address).isSome = (sessions.get? address).isSome := by
      rw [← hshows.rows, Option.isSome_map, storedRecord, Option.isSome_map]
    rw [OrderedMap.has, ← hstored]
    cases hget : storedRecord state address with
    | none => rfl
    | some record => exact hmeets record hget
  case getSessionsForUser userId =>
    rw [keyValueCall, bind_apply_ok (getSessionsForUser_run hshows userId)]
    refine .ok (hshows.shows.userAnswer sessionKey_injective userId fun address row hget => ?_) hshows
    rw [get?_filterKeys, if_pos (isSession_sessionKey address)] at hget
    obtain ⟨record, rfl⟩ := hshows.sessionRows address row hget
    simp [Row.session?]

end

end KeyValueSessions

/-! ## Agreement of the session stores

While its calls meet its condition, each of the four stores answers like the map of sessions. -/

open Results

variable {sessions : SessionMap} {calls : List Call} {session : SessionState}

structure SessionAdapter where
  State : Type
  initial : State
  call : Call → EStateM String State Answer
  stored : State → ProtocolAddress → Option SessionRecord
  Meets : State → Call → Prop

def memoryAdapter : SessionAdapter where
  State := MemoryState
  initial := ⟨∅, ∅⟩
  call := MemoryState.call
  stored state address := state.sessionRecords.get? (MemoryState.getAddressKey address)
  Meets := MemoryState.Meets

def keyValueAdapter : SessionAdapter where
  State := KeyValueState
  initial := ∅
  call := keyValueCall
  stored := KeyValueSessions.storedRecord
  Meets := KeyValueSessions.Meets

def indexedDbAdapter : SessionAdapter where
  State := IndexedDbState
  initial := ⟨∅, ∅⟩
  call := IndexedDbState.call
  stored state address := state.getSessionRecord address
  Meets := IndexedDbState.Meets

def sqliteAdapter : SessionAdapter where
  State := SqliteState
  initial := ⟨∅, ∅⟩
  call := SqliteState.call
  stored state address := state.sessions.get? (SqliteState.sessionIdOf address)
  Meets := SqliteState.Meets

def sessionAdapters : List SessionAdapter :=
  [memoryAdapter, keyValueAdapter, indexedDbAdapter, sqliteAdapter]

namespace SessionAdapter

variable (adapter : SessionAdapter)

/-- The state that a run leaves. -/
def final (calls : List Call) : adapter.State := (runCalls adapter.call calls adapter.initial).2

def answers (calls : List Call) : List (Except String Answer) :=
  SessionStores.answers adapter.call calls adapter.initial

/-- Every call of a run meets the condition in the state before it. -/
def RunMeets : List Call → adapter.State → Prop
  | [], _ => True
  | next :: calls, state =>
    adapter.Meets state next ∧ RunMeets calls (finalState (adapter.call next state))

structure Follows (related : adapter.State → SessionMap → Prop) : Prop where
  initial : related adapter.initial ∅
  call : ∀ {state sessions next}, related state sessions → adapter.Meets state next →
    Agree related SameAnswer (adapter.call next state) (sessionMapCall next sessions)
  stored : ∀ {state sessions}, related state sessions → ∀ address,
    (adapter.stored state address).map untimed = sessions.get? address

end SessionAdapter

theorem memoryAdapter_follows : memoryAdapter.Follows MemoryState.ShowsSessions where
  initial := .empty
  call := fun hshows hmeets => MemoryState.call_agree hshows hmeets
  stored := fun hshows address => hshows.rows address

theorem keyValueAdapter_follows : keyValueAdapter.Follows KeyValueSessions.ShowsSessions where
  initial := by
    refine ⟨fun _ => rfl, ?_, ?_, ?_⟩
    · intro key hkey
      cases hkey
    · intro address row hget
      cases hget
    · intro userId row hget
      cases hget
  call := fun hshows hmeets => KeyValueSessions.call_agree hshows hmeets
  stored := by
    intro state sessions hshows address
    rw [← hshows.rows]
    exact Option.map_map ..

theorem indexedDbAdapter_follows : indexedDbAdapter.Follows IndexedDbState.ShowsSessions where
  initial := by
    refine ⟨.empty, ?_⟩
    intro address row hget
    cases hget
  call := fun hshows hmeets => IndexedDbState.call_agree hshows hmeets
  stored := by
    intro state sessions hshows address
    rw [← hshows.shows.rows]
    exact Option.map_map ..

theorem sqliteAdapter_follows : sqliteAdapter.Follows SqliteState.ShowsSessions where
  initial := .empty
  call := fun hshows hmeets => SqliteState.call_agree hshows hmeets
  stored := fun hshows address => hshows.rows address

theorem follows_of_mem {adapter : SessionAdapter} (hadapter : adapter ∈ sessionAdapters) :
    ∃ related, adapter.Follows related := by
  simp only [sessionAdapters, mem_cons, not_mem_nil, or_false] at hadapter
  rcases hadapter with rfl | rfl | rfl | rfl
  · exact ⟨_, memoryAdapter_follows⟩
  · exact ⟨_, keyValueAdapter_follows⟩
  · exact ⟨_, indexedDbAdapter_follows⟩
  · exact ⟨_, sqliteAdapter_follows⟩

theorem archiveCurrent_keeps {record : SessionRecord}
    (hcur : record.currentSession = some session) (newSession : Option SessionState) :
    (record.archiveCurrent newSession MAX_ARCHIVED_SESSIONS).archivedSessions.get?
      session.baseKey = some (withoutPendingPreKey session) := by
  have hkey : session.baseKey ∉ (record.archivedSessions.erase session.baseKey).keys := by
    rw [mem_keys_erase]
    exact fun hmem => hmem.1 rfl
  have hkeys : (insertArchived record.archivedSessions (withoutPendingPreKey session)).keys =
      (record.archivedSessions.erase session.baseKey).keys ++ [session.baseKey] :=
    keys_set_of_not_mem _ _ hkey
  have hsize : (insertArchived record.archivedSessions (withoutPendingPreKey session)).size =
      (record.archivedSessions.erase session.baseKey).keys.length + 1 := by
    rw [← length_keys, hkeys, length_append, length_singleton]
  unfold SessionRecord.archiveCurrent
  rw [hcur]
  dsimp only
  rw [dropOldest, get?_filterKeys, if_pos, insertArchived]
  · exact get?_set_self ..
  · refine decide_eq_true fun hdropped => hkey ?_
    rw [hkeys, hsize, List.take_append_of_le_length (by
      rw [MAX_ARCHIVED_SESSIONS]
      omega)] at hdropped
    exact mem_of_mem_take hdropped

theorem archiveIn_keeps {address : ProtocolAddress}
    {record : SessionRecord} (hget : sessions.get? address = some record)
    (hcur : record.currentSession = some session) (newSession : Option SessionState) :
    ∃ archived, (archiveIn sessions address newSession).get? address = some archived ∧
      archived.archivedSessions.get? session.baseKey = some (withoutPendingPreKey session) := by
  rw [archiveIn_present hget]
  exact ⟨_, get?_set_self _ _ _, archiveCurrent_keeps hcur newSession⟩

theorem sessionMapCall_apart {next : Call} {other : ProtocolAddress}
    (hother : other.userId ≠ next.userId) :
    (finalState (sessionMapCall next sessions)).get? other = sessions.get? other := by
  have haddr : ∀ address : ProtocolAddress, address.userId = next.userId → other ≠ address := by
    rintro address huser rfl
    exact hother huser
  cases next
  case storeSessionRecord address record =>
    exact get?_set_of_ne _ _ (haddr address rfl)
  case archiveCurrentSession address newSession now =>
    change (archiveIn sessions address newSession).get? other = _
    unfold archiveIn
    cases sessions.get? address with
    | some record => exact get?_set_of_ne _ _ (haddr address rfl)
    | none =>
      cases newSession with
      | none => rfl
      | some session => exact get?_set_of_ne _ _ (haddr address rfl)
  case setDeviceRecord address record now =>
    change (record.session.elim sessions fun session => sessions.set address (untimed session)).get?
      other = _
    cases record.session with
    | none => rfl
    | some session => exact get?_set_of_ne _ _ (haddr address rfl)
  case deleteSessionRecord address =>
    change (sessions.erase address).get? other = _
    rw [get?_erase, if_neg (haddr address rfl)]
  case getSessionRecord => rfl
  case hasSession => rfl
  case getSessionsForUser => rfl

section Runs

variable {adapter : SessionAdapter} {related : adapter.State → SessionMap → Prop}
  {state : adapter.State}

theorem SessionAdapter.Follows.run (hfollows : adapter.Follows related)
    (hrelated : related state sessions) (hmeets : adapter.RunMeets calls state) :
    SessionStores.answers adapter.call calls state =
        SessionStores.answers sessionMapCall calls sessions ∧
      related (runCalls adapter.call calls state).2 (runCalls sessionMapCall calls sessions).2 := by
  induction calls generalizing state sessions with
  | nil => exact ⟨rfl, hrelated⟩
  | cons next calls ih =>
    obtain ⟨hnext, hrest⟩ := hmeets
    have hagree := hfollows.call hrelated hnext
    rw [SessionStores.answers, SessionStores.answers, runCalls, runCalls]
    cases hleft : adapter.call next state with
    | ok answer after =>
      cases hright : sessionMapCall next sessions with
      | ok expected afterMap =>
        rw [hleft, hright] at hagree
        rw [hleft] at hrest
        cases hagree with
        | ok hanswer hafter =>
          obtain ⟨hanswers, hfinal⟩ := ih hafter hrest
          refine ⟨?_, hfinal⟩
          exact congrArg₂ List.cons (congrArg Except.ok hanswer) hanswers
      | error error afterMap =>
        rw [hleft, hright] at hagree
        cases hagree
    | error error after =>
      cases hright : sessionMapCall next sessions with
      | ok expected afterMap =>
        rw [hleft, hright] at hagree
        cases hagree
      | error otherError afterMap =>
        rw [hleft, hright] at hagree
        rw [hleft] at hrest
        cases hagree with
        | error hafter =>
          obtain ⟨hanswers, hfinal⟩ := ih hafter hrest
          exact ⟨congrArg (List.cons (Except.error error)) hanswers, hfinal⟩

theorem runCalls_concat {State : Type} (call : Call → EStateM String State Answer)
    (calls : List Call) (last : Call) (state : State) :
    (runCalls call (calls ++ [last]) state).2 =
      finalState (call last (runCalls call calls state).2) := by
  induction calls generalizing state with
  | nil =>
    rw [nil_append, runCalls]
    cases hcall : call last state with
    | ok answer after => simp [runCalls, hcall]
    | error error after => simp [runCalls, hcall]
  | cons next calls ih =>
    rw [cons_append, runCalls, runCalls]
    cases call next state with
    | ok answer after => exact ih after
    | error error after => exact ih after

theorem runMeets_of_concat {last : Call} (hmeets : adapter.RunMeets (calls ++ [last]) state) :
    adapter.RunMeets calls state ∧ adapter.Meets (runCalls adapter.call calls state).2 last := by
  induction calls generalizing state with
  | nil => exact ⟨trivial, hmeets.1⟩
  | cons next calls ih =>
    obtain ⟨hnext, hrest⟩ := hmeets
    obtain ⟨hcalls, hlast⟩ := ih hrest
    refine ⟨⟨hnext, hcalls⟩, ?_⟩
    rw [runCalls]
    cases hcall : adapter.call next state with
    | ok answer after =>
      rw [hcall] at hlast
      exact hlast
    | error error after =>
      rw [hcall] at hlast
      exact hlast

end Runs

def exampleSession (baseKey : BaseKey) : SessionState := ⟨baseKey, [], none, ""⟩

def exampleRecord : SessionRecord := createRecord (exampleSession "first")

/-- A session is stored, and a second session takes its place. -/
def exampleReplace : List Call :=
  [.storeSessionRecord ⟨"bob", 1⟩ exampleRecord,
    .archiveCurrentSession ⟨"bob", 1⟩ (some (exampleSession "second")) 5,
    .getSessionRecord ⟨"bob", 1⟩]

/-- The user id of the stored session starts with the one that is asked for. -/
def exampleDot : List Call :=
  [.storeSessionRecord ⟨"alice.b", 1⟩ exampleRecord, .getSessionsForUser "alice"]

/-- The user id that is asked for is a pattern that the other one matches. -/
def exampleWildcard : List Call :=
  [.storeSessionRecord ⟨"a-b", 1⟩ exampleRecord, .getSessionsForUser "a_b"]

def sessionCount : Except String Answer → ℕ
  | .ok (.session record) => record.elim 0 fun record => record.archivedSessions.size
  | .ok (.sessions records) => records.card
  | _ => 0

end SignalProtocol.SessionStores

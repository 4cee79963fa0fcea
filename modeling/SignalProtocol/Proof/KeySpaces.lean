import SignalProtocol.Proof.KeyLayoutCalls

/-! # Key spaces of the key-value store

The store behaves like one whose records stand under structured keys, except in two kinds of call.
-/

namespace SignalProtocol.KeyValue

open Results Simulates List

variable {T : StoredTypes} (rules : StoreRules T) {senderKeyId groupId : String} {deviceId : ℕ}

def ContactApart (texts : OrderedMap KeyText (Row T KeyText)) (userId : String)
    (identityType : IdentityType) : Prop :=
  getContactStorageKey userId identityType ∈ texts.keys ∨ obsoleteContactKey userId ∉ texts.keys

def Operation.KeepsApart (texts : OrderedMap KeyText (Row T KeyText)) : Operation T → Prop
  | saveContactIdentity userId _ identityType _ _ => ContactApart texts userId identityType
  | getContactIdentity userId identityType => ContactApart texts userId identityType
  | isTrustedIdentity userId _ identityType => ContactApart texts userId identityType
  | resolveGroupForSenderKeyId senderKeyId userId deviceId => ∀ recordKey,
      texts.get? (getSenderKeyIdPointerKey senderKeyId userId deviceId) =
        some (.pointer recordKey) → (parseSenderKeyRecordStorageKey recordKey).isSome
  | deleteAllSenderKeysForGroup groupId => ∀ recordKey ∈ texts.keys,
      startsWith (getSenderKeyRecordGroupPrefix groupId) recordKey →
        (parseSenderKeyRecordStorageKey recordKey).isSome
  | _ => True

/-- Every call of the run meets the condition on the rows before it. -/
def RunKeepsApart : List (Operation T) → OrderedMap KeyText (Row T KeyText) → Prop
  | [], _ => True
  | operation :: operations, texts =>
    operation.KeepsApart texts ∧
      RunKeepsApart operations (finalState (operation.run textLayout rules texts))

/-! ## The calls with a condition -/

section Lookup

variable {K : Type} [DecidableEq K] {L : KeyLayout K} {rows : OrderedMap K (Row T K)}
variable {userId : String} {identityType : IdentityType}

theorem readContactRecord_missing (hget : rows.get? (L.key (.contact userId identityType)) = none) :
    readContactRecord L userId identityType rows =
      .ok none (rows.erase (L.key (.obsoleteContact userId))) := by
  rw [readContactRecord, bind_apply_ok (readRow_none hget)]
  rfl

theorem readContactRecord_present {row : Row T K}
    (hget : rows.get? (L.key (.contact userId identityType)) = some row) :
    readContactRecord L userId identityType rows =
      readRow Row.contact? (L.key (.contact userId identityType)) rows := by
  rw [readContactRecord]
  cases hrow : row.contact? with
  | none =>
    have hread := readRow_invalid hget hrow
    rw [bind_apply_error hread, hread]
  | some record =>
    have hread := readRow_some hget hrow
    rw [bind_apply_ok hread, hread]
    rfl

end Lookup

section Calls

variable {rows : OrderedMap StorageKey (Row T StorageKey)}
variable {texts : OrderedMap KeyText (Row T KeyText)}

section

variable (hrender : Renders rows texts)
  (identity : T.Identity)

include hrender

variable {userId : String}

theorem Renders.eraseObsolete (hobsolete : obsoleteContactKey userId ∉ texts.keys) :
    Renders (rows.erase (.obsoleteContact userId)) (texts.erase (obsoleteContactKey userId)) := by
  refine hrender.erase ?_
  intro other hother heq
  refine absurd ?_ hobsolete
  rw [hrender.image.keys, mem_map]
  exact ⟨other, hother, heq⟩

variable {identityType : IdentityType}

theorem readContactRecord_agree (hcontact : ContactApart texts userId identityType) :
    Agree Renders (· = ·) (readContactRecord structuredLayout userId identityType rows)
      (readContactRecord textLayout userId identityType texts) := by
  have hkey : (StorageKey.contact userId identityType).Stored := rfl
  have hget := hrender.get? hkey
  cases hrow : rows.get? (.contact userId identityType) with
  | none =>
    rw [hrow] at hget
    have hmiss : getContactStorageKey userId identityType ∉ texts.keys :=
      (OrderedMap.get?_eq_none_iff _ _).mp hget
    have hobsolete := hcontact.resolve_left hmiss
    rw [readContactRecord_missing hrow, readContactRecord_missing hget]
    exact .ok rfl (hrender.eraseObsolete hobsolete)
  | some row =>
    rw [hrow] at hget
    rw [readContactRecord_present hrow, readContactRecord_present hget]
    exact readContact_same userId identityType rows texts hrender

theorem saveContactIdentity_agree
    (commitment : Option Bytes) (now : ℤ) (hcontact : ContactApart texts userId identityType) :
    Agree Renders (· = ·)
      (saveContactIdentity structuredLayout rules userId identity identityType commitment now rows)
      (saveContactIdentity textLayout rules userId identity identityType commitment now texts) := by
  refine (readContactRecord_agree hrender hcontact).bind ?_
  rintro existing _ rfl
  cases rules.evaluateContactIdentityCandidate existing identity commitment with
  | new =>
    refine Same.bind ?_ fun _ => .pure IdentityKeyChange.newIdentity
    exact setItem_same (.contact userId identityType) rfl (Row.pointsToRecord_of_none rfl)
  | «match» => exact .pure rfl
  | rollback => exact .pure rfl
  | changed => exact .pure rfl

theorem isTrustedIdentity_agree (hcontact : ContactApart texts userId identityType) :
    Agree Renders (· = ·) (isTrustedIdentity structuredLayout rules userId identity identityType rows)
      (isTrustedIdentity textLayout rules userId identity identityType texts) := by
  refine (readContactRecord_agree hrender hcontact).bind ?_
  rintro existing _ rfl
  exact .pure rfl

end

theorem senderKeyPlace?_of_isSome {place : SenderKeyPlace}
    (hsome : (parseSenderKeyRecordStorageKey (StorageKey.senderKeyRecord place).text).isSome) :
    textLayout.senderKeyPlace? (StorageKey.senderKeyRecord place).text = some place := by
  change (textLayout.senderKeyPlace? (StorageKey.senderKeyRecord place).text).isSome at hsome
  rw [senderKeyPlace?_text] at hsome ⊢
  split
  case isTrue hempty =>
    rw [if_pos hempty] at hsome
    cases hsome
  case isFalse => rfl

def IsReadBack (recordKey : StorageKey) (text : KeyText) : Prop :=
  ∃ place, recordKey = .senderKeyRecord place ∧ textLayout.senderKeyPlace? text = some place

section

variable (hrender : Renders rows texts)

include hrender

variable {userId : String}

theorem readPointer_agree (hreads : ∀ recordKey,
      texts.get? (getSenderKeyIdPointerKey senderKeyId userId deviceId) =
        some (.pointer recordKey) → (parseSenderKeyRecordStorageKey recordKey).isSome) :
    Agree Renders (Option.Rel IsReadBack)
      (readRow Row.pointer?
        (structuredLayout.key (.senderKeyIdPointer senderKeyId userId deviceId)) rows)
      (readRow Row.pointer?
        (textLayout.key (.senderKeyIdPointer senderKeyId userId deviceId)) texts) := by
  have hkey : (StorageKey.senderKeyIdPointer senderKeyId userId deviceId).Stored := rfl
  have hget := hrender.get? hkey
  change Agree Renders _
    (readRow Row.pointer? (StorageKey.senderKeyIdPointer senderKeyId userId deviceId) rows)
    (readRow Row.pointer? (StorageKey.senderKeyIdPointer senderKeyId userId deviceId).text texts)
  cases hrow : rows.get? (.senderKeyIdPointer senderKeyId userId deviceId) with
  | none =>
    rw [hrow] at hget
    rw [readRow_none hrow, readRow_none hget]
    exact .ok .none hrender
  | some row =>
    rw [hrow] at hget
    have hpoints := hrender.pointers _ row hrow
    cases row
    case pointer recordKey =>
      obtain ⟨place, rfl⟩ := hpoints recordKey rfl
      have hplace := senderKeyPlace?_of_isSome (hreads _ hget)
      have hread : readRow Row.pointer? (StorageKey.senderKeyIdPointer senderKeyId userId deviceId)
          rows = .ok (some (.senderKeyRecord place)) rows := readRow_some hrow rfl
      have hreadText : readRow Row.pointer?
          (StorageKey.senderKeyIdPointer senderKeyId userId deviceId).text texts =
            .ok (some (StorageKey.senderKeyRecord place).text) texts := readRow_some hget rfl
      rw [hread, hreadText]
      exact .ok (.some ⟨place, rfl, hplace⟩) hrender
    all_goals
      rw [readRow_invalid hrow rfl, readRow_invalid hget rfl]
      exact .error hrender

theorem resolveGroupForSenderKeyId_agree
    (hreads : ∀ recordKey, texts.get? (getSenderKeyIdPointerKey senderKeyId userId deviceId) =
        some (.pointer recordKey) → (parseSenderKeyRecordStorageKey recordKey).isSome) :
    Agree Renders (· = ·)
      (resolveGroupForSenderKeyId structuredLayout senderKeyId userId deviceId rows)
      (resolveGroupForSenderKeyId textLayout senderKeyId userId deviceId texts) := by
  rw [resolveGroupForSenderKeyId, resolveGroupForSenderKeyId]
  by_cases hempty : senderKeyId = ""
  · rw [if_pos hempty, if_pos hempty]
    exact .ok rfl hrender
  · rw [if_neg hempty, if_neg hempty]
    refine (readPointer_agree hrender hreads).bind ?_
    rintro recordKey text hread
    cases hread with
    | none => exact .pure rfl
    | @some recordKey text hback =>
      obtain ⟨place, rfl, hplace⟩ := hback
      have hstructured : structuredLayout.senderKeyPlace? (.senderKeyRecord place) =
        some place := rfl
      dsimp only
      rw [hplace, hstructured]
      refine Simulates.ite (fun _ => .pure rfl) fun _ => ?_
      refine Same.bind (getSenderKeyRecord_same _) fun record => ?_
      refine Simulates.ite (fun _ => .pure rfl) fun _ => ?_
      exact Same.bind (removeItem_same (.senderKeyIdPointer senderKeyId userId deviceId) rfl)
        fun _ => .pure none

theorem recordKeys_agree (hreads : ∀ recordKey ∈ texts.keys,
      startsWith (getSenderKeyRecordGroupPrefix groupId) recordKey →
        (parseSenderKeyRecordStorageKey recordKey).isSome) :
    Agree Renders
      (List.Forall₂ fun recordKey text =>
        IsFound (structuredLayout.inSenderKeyGroup groupId) recordKey text ∧
          IsReadBack recordKey text)
      (keysWhere (structuredLayout.inSenderKeyGroup groupId) rows)
      (keysWhere (textLayout.inSenderKeyGroup groupId) texts) := by
  have hagree := inSenderKeyGroup_found (T := T) groupId rows texts hrender
  change Agree Renders _
    (.ok (rows.keys.filter (structuredLayout.inSenderKeyGroup groupId)) rows)
    (.ok (texts.keys.filter (startsWith (getSenderKeyRecordGroupPrefix groupId))) texts) at hagree ⊢
  cases hagree with
  | ok hkeys hafter =>
    refine .ok ?_ hafter
    obtain ⟨htexts, hfound⟩ := isFound_iff.mp hkeys
    rw [htexts, forall₂_map_right_iff, forall₂_same]
    intro recordKey hkey
    refine ⟨⟨rfl, hfound recordKey hkey⟩, ?_⟩
    have htext : recordKey.text ∈
        texts.keys.filter (startsWith (getSenderKeyRecordGroupPrefix groupId)) := by
      rw [htexts]
      exact mem_map_of_mem hkey
    obtain ⟨hmem, hstarts⟩ := mem_filter.mp htext
    have hsome := hreads _ hmem hstarts
    have hgroup := (hfound recordKey hkey).2
    cases recordKey
    case senderKeyRecord place => exact ⟨place, rfl, senderKeyPlace?_of_isSome hsome⟩
    all_goals cases hgroup

end

theorem pointerRemovalsAt_writes {recordKey : StorageKey} {text : KeyText}
    (hback : IsReadBack recordKey text) : Simulates (Renders (T := T)) (List.Forall₂ IsWrite)
      (pointerRemovalsAt structuredLayout recordKey) (pointerRemovalsAt textLayout text) := by
  obtain ⟨place, rfl, hplace⟩ := hback
  have hstructured : structuredLayout.senderKeyPlace? (.senderKeyRecord place) = some place := rfl
  rw [pointerRemovalsAt, pointerRemovalsAt, hplace, hstructured]
  exact senderKeyIdPointerRemovals_writes place

theorem removals_write {found : StorageKey → Bool} {keys : List StorageKey}
    {keyTexts : List KeyText} (hkeys : List.Forall₂ (IsFound found) keys keyTexts) :
    List.Forall₂ (IsWrite (T := T)) (keys.map .remove) (keyTexts.map .remove) := by
  obtain ⟨rfl, hfound⟩ := isFound_iff.mp hkeys
  rw [forall₂_map_left_iff, forall₂_map_right_iff, forall₂_map_right_iff, forall₂_same]
  exact fun key hkey => .remove (hfound key hkey).1

theorem deleteAllSenderKeysForGroup_agree (hrender : Renders rows texts)
    (hreads : ∀ recordKey ∈ texts.keys,
      startsWith (getSenderKeyRecordGroupPrefix groupId) recordKey →
        (parseSenderKeyRecordStorageKey recordKey).isSome) :
    Agree Renders (· = ·) (deleteAllSenderKeysForGroup structuredLayout groupId rows)
      (deleteAllSenderKeysForGroup textLayout groupId texts) := by
  refine (recordKeys_agree hrender hreads).bind fun keys keyTexts hkeys => ?_
  have hremovals : Simulates (Renders (T := T)) (List.Forall₂ (List.Forall₂ IsWrite))
      (keys.mapM (pointerRemovalsAt structuredLayout))
      (keyTexts.mapM (pointerRemovalsAt textLayout)) :=
    Simulates.mapM hkeys fun _ _ hkey => pointerRemovalsAt_writes hkey.2
  have hfound := hkeys.imp fun _ _ hkey => hkey.1
  refine hremovals.bind fun removals others hwrites => ?_
  have hskip : Simulates (Renders (T := T))
      (List.Forall₂ (IsFound (structuredLayout.inSkippedGroup groupId)))
      (keysWhere (structuredLayout.inSkippedGroup groupId))
      (keysWhere (textLayout.inSkippedGroup groupId)) :=
    keysWhere_found fun _ hkey => inSkippedGroup_text groupId hkey
  refine hskip.bind fun skipped skippedTexts hskippedKeys => ?_
  refine Simulates.bind (atomicWrite_same (rel_append (rel_flatten hwrites) ?_))
    fun _ _ _ => .pure hkeys.length_eq
  rw [map_append, map_append]
  exact rel_append (removals_write hfound) (removals_write hskippedKeys)

end Calls

variable {rows : OrderedMap StorageKey (Row T StorageKey)}
  {texts : OrderedMap KeyText (Row T KeyText)}

theorem Operation.run_agree (hrender : Renders rows texts) {operation : Operation T}
    (happart : operation.KeepsApart texts) :
    Agree Renders (· = ·) (operation.run structuredLayout rules rows)
      (operation.run textLayout rules texts) := by
  cases operation
  case saveContactIdentity userId identity identityType commitment now =>
    exact (saveContactIdentity_agree rules hrender identity commitment now happart).map
      fun _ _ => congrArg _
  case getContactIdentity userId identityType =>
    exact (readContactRecord_agree hrender happart).map fun _ _ => congrArg _
  case isTrustedIdentity userId identity identityType =>
    exact (isTrustedIdentity_agree rules hrender identity happart).map fun _ _ => congrArg _
  case resolveGroupForSenderKeyId senderKeyId userId deviceId =>
    exact (resolveGroupForSenderKeyId_agree hrender happart).map fun _ _ => congrArg _
  case deleteAllSenderKeysForGroup groupId =>
    exact (deleteAllSenderKeysForGroup_agree hrender happart).map fun _ _ => congrArg _
  -- The other calls do the same on every pair of related stores.
  all_goals refine Same.map _ ?_ rows texts hrender
  case acceptContactIdentityRotation => exact acceptContactIdentityRotation_same rules _ _ _ _ _
  case verifyContactIdentity => exact verifyContactIdentity_same rules _ _ _ _ _
  case storeEcSignedPreKey => exact storeEcSignedPreKey_same rules _ _ _
  case getEcSignedPreKey => exact getEcSignedPreKey_same _ _
  case getPreKeys => exact getPreKeys_same _ _
  case removeEcSignedPreKey => exact removePreKey_same _ _ _
  case storeEcOneTimePreKeys => exact storeOneTimePreKeys_same _ _ _
  case removeEcOneTimePreKey => exact removePreKey_same _ _ _
  case storeKemOneTimePreKeys => exact storeOneTimePreKeys_same _ _ _
  case removeKemOneTimePreKey => exact removePreKey_same _ _ _
  case storeKyberPreKey => exact storeKyberPreKey_same rules _ _ _
  case getKyberPreKey => exact .bind (readKyber_same _) fun _ => .pure _
  case getKyberPreKeyById => exact .bind (readKyber_same _) fun _ => .pure _
  case markKyberPreKeyUsed => exact markKyberPreKeyUsed_same rules _ _
  case getKyberPreKeyMaxId => exact .bind (readKyber_same _) fun _ => .pure _
  case deleteAllPreKeys => exact deleteAllPreKeys_same rules _
  case storeSessionRecord => exact storeSessionRecord_same rules _ _ _
  case getSessionRecord => exact getSessionRecord_same rules _ _
  case commitSessionTrust => exact commitSessionTrust_same rules _ _
  case deleteSessionRecord => exact deleteSessionRecord_same _ _
  case archiveCurrentSession => exact archiveCurrentSession_same rules _ _ _ _
  case getSessionsForUser => exact getSessionsForUser_same rules _
  case hasSession => exact hasSession_same rules _ _
  case getSessionCount => exact getSessionCount_same
  case clearAllSessions => exact clearAllSessions_same
  case getUserRecord => exact getUserRecord_same rules _ _
  case setUserRecord => exact setUserRecord_same _ _
  case getDeviceRecord => exact getDeviceRecord_same rules _ _ _
  case setDeviceRecord => exact setDeviceRecord_same _ _ _ _
  case deleteDeviceRecord => exact deleteDeviceRecord_same _ _ _
  case getAllUserIds => exact getAllUserIds_same
  case getSesameDeviceIds => exact .bind (getStoredUserRecord_same _) fun _ => .pure _
  case getDeviceSession => exact getDeviceSession_same rules _ _ _
  case setDeviceSession => exact setDeviceSession_same rules _ _ _ _
  case deleteStaleRecords => exact deleteStaleRecords_same rules _ _
  case cleanupExpiredSessions => exact cleanupExpiredSessions_same rules _ _
  case storeSenderKeyRecord => exact storeSenderKeyRecord_same _ _ _
  case getSenderKeyRecord => exact getSenderKeyRecord_same _
  case getSenderKey => exact .bind (getSenderKeyRecord_same _) fun _ => .pure _
  case deleteSenderKey => exact deleteSenderKey_same _
  case getAllSenderKeysForGroup => exact getAllSenderKeysForGroup_same _
  case storeSkippedSenderKey => exact storeSkippedSenderKey_same _ _ _ _
  case getSkippedSenderKey => exact getSkippedSenderKey_same _ _ _
  case deleteSkippedSenderKey => exact deleteSkippedSenderKey_same _ _ _
  case countSkippedSenderKeys => exact countSkippedSenderKeys_same _
  case deleteOldestSkippedSenderKeys => exact deleteOldestSkippedSenderKeys_same _ _
  case storeMessageRecord => exact storeMessageRecord_same _ _
  case getMessageRecord => exact readMessage_same rfl
  case deleteMessageRecord => exact deleteMessageRecord_same _ _
  case deleteExpiredMessageRecords => exact deleteExpiredMessageRecords_same _ _
  case clearAllMessageRecords =>
    exact deleteMessageRecordsWhere_same fun _ hkey => isMessageRecord_text hkey
  case deleteMessageRecordsForSession sessionId =>
    exact deleteMessageRecordsWhere_same fun _ hkey => inMessageSession_text sessionId hkey
  case rewriteMessageRecords => exact rewriteMessageRecords_same _
  case getMetadata => exact getMetadata_same _
  case setMetadata => exact setMetadata_same _ _
  case deleteMetadata => exact deleteMetadata_same _
  case listMetadataKeys => exact listMetadataKeys_same rules _
  case compareAndSetMetadata => exact compareAndSetMetadata_same _ _ _

theorem runOperations_renders {operations : List (Operation T)}
    (hrender : Renders rows texts) (happart : RunKeepsApart rules operations texts) :
    (runOperations textLayout rules operations texts).1 =
        (runOperations structuredLayout rules operations rows).1 ∧
      Renders (runOperations structuredLayout rules operations rows).2
        (runOperations textLayout rules operations texts).2 := by
  induction operations generalizing rows texts with
  | nil => exact ⟨rfl, hrender⟩
  | cons operation operations ih =>
    obtain ⟨hop, hrest⟩ := happart
    have hagree := Operation.run_agree rules hrender hop
    rw [runOperations, runOperations]
    cases hleft : operation.run structuredLayout rules rows with
    | ok output after =>
      cases hright : operation.run textLayout rules texts with
      | ok other afterText =>
        rw [hleft, hright] at hagree
        rw [hright] at hrest
        cases hagree with
        | ok houtput hafter =>
          obtain ⟨hresults, hfinal⟩ := ih hafter hrest
          subst houtput
          exact ⟨congrArg _ hresults, hfinal⟩
      | error error afterText =>
        rw [hleft, hright] at hagree
        cases hagree
    | error error after =>
      cases hright : operation.run textLayout rules texts with
      | ok other afterText =>
        rw [hleft, hright] at hagree
        cases hagree
      | error otherError afterText =>
        rw [hleft, hright] at hagree
        rw [hright] at hrest
        cases hagree with
        | error hafter =>
          obtain ⟨hresults, hfinal⟩ := ih hafter hrest
          exact ⟨congrArg _ hresults, hfinal⟩

/-- In every run from an empty backend whose calls meet the condition, the store returns what a store
with structured keys returns, and holds its rows. -/
theorem key_spaces_apart (operations : List (Operation T))
    (happart : RunKeepsApart rules operations ∅) :
    (runOperations textLayout rules operations ∅).1 =
        (runOperations structuredLayout rules operations ∅).1 ∧
      Renders (runOperations structuredLayout rules operations ∅).2
        (runOperations textLayout rules operations ∅).2 :=
  runOperations_renders rules .empty happart

def exampleTypes : StoredTypes := ⟨ℕ, ℕ, Unit, Unit, Unit⟩

def exampleRules : StoreRules exampleTypes where
  evaluateContactIdentityCandidate existing identity _ :=
    existing.elim .new fun stored => if Nat.beq stored identity then .match else .changed
  createUnverifiedContactIdentityRecord identity _ := identity
  acceptRotation _ identity _ _ := .ok identity
  verifyContactIdentityRecord existing _ _ _ := .ok existing
  isCurrentSessionRecord _ := true
  createKyberPreKeyState := ()
  retainKyberPreKey _ _ _ _ := .ok none
  getCurrentKyberPreKey _ := none
  getRetainedKyberPreKey _ _ := none
  recordKyberPreKeyUse _ _ _ := .ok ()
  kyberPreKeyIds _ := []
  isStaleDeviceRecord _ _ _ := false
  expireDeviceSessions device _ _ := (device, 0)
  codeUnitsBefore first second := first < second
  maxUnacknowledgedSessionAgeMs := 2592000000

/-- Two users, a sender key record, and the deletion of its group. -/
def exampleCalls : List (Operation exampleTypes) :=
  [.saveContactIdentity "bob" (7 : ℕ) .aci none 0, .getContactIdentity "alice:1" .aci,
    .storeSenderKeyRecord ⟨"team:1", "bob", 1⟩ [⟨"key", "chain"⟩] none,
    .deleteAllSenderKeysForGroup "team:1", .getContactIdentity "bob" .aci]

theorem key_spaces_apart_on_two_users :
    (runOperations textLayout exampleRules exampleCalls ∅).1 =
        (runOperations structuredLayout exampleRules exampleCalls ∅).1 ∧
      Renders (runOperations structuredLayout exampleRules exampleCalls ∅).2
        (runOperations textLayout exampleRules exampleCalls ∅).2 :=
  key_spaces_apart exampleRules exampleCalls ⟨.inr (by decide), .inr (by decide),
    trivial, by rw [Operation.KeepsApart]; decide, .inl (by decide), trivial⟩

/-- A lookup of the user `v1:bob:aci`, which nobody saved, deletes the contact record of `bob`. -/
def exampleLookup : List (Operation exampleTypes) :=
  [.saveContactIdentity "bob" (7 : ℕ) .aci none 0, .getContactIdentity "v1:bob:aci" .aci,
    .getContactIdentity "bob" .aci]

/-- A sender key of the empty group. -/
def exampleEmptyGroup : List (Operation exampleTypes) :=
  [.storeSenderKeyRecord ⟨"", "bob", 1⟩ [⟨"key", "chain"⟩] none,
    .resolveGroupForSenderKeyId "key" "bob" 1]

theorem lookup_deletes_other_contact :
    (runOperations textLayout exampleRules exampleLookup ∅).1 ≠
        (runOperations structuredLayout exampleRules exampleLookup ∅).1 ∧
      (runOperations textLayout exampleRules exampleEmptyGroup ∅).1 ≠
        (runOperations structuredLayout exampleRules exampleEmptyGroup ∅).1 := by
  have hlookup : (runOperations textLayout exampleRules exampleLookup ∅).1 =
      [.ok (.identityKeyChange .newIdentity), .ok (.contact none), .ok (.contact none)] := by
    rfl
  have hkept : (runOperations structuredLayout exampleRules exampleLookup ∅).1 =
      [.ok (.identityKeyChange .newIdentity), .ok (.contact none),
        .ok (.contact (some (7 : ℕ)))] := by
    rfl
  have hresolved : (runOperations textLayout exampleRules exampleEmptyGroup ∅).1 =
      [.ok .unit, .ok (.text none)] := by
    rfl
  have hgroup : (runOperations structuredLayout exampleRules exampleEmptyGroup ∅).1 =
      [.ok .unit, .ok (.text (some ""))] := by
    rfl
  rw [hlookup, hkept, hresolved, hgroup]
  simp

end SignalProtocol.KeyValue

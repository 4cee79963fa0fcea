import SignalProtocol.Proof.KeyLayouts

/-! # The calls of the store on both layouts

Every call returns the same value and leaves related rows on both layouts. -/

namespace SignalProtocol.KeyValue

open Results Simulates List

variable {T : StoredTypes} (rules : StoreRules T) (userId : String) (deviceId : ℕ)
  (rewrite : MessageRecord → Option String)
  (identity : T.Identity)
  (identityType : IdentityType)

theorem readContact_same : Same (T := T)
      (readRow Row.contact? (structuredLayout.key (.contact userId identityType)))
      (readRow Row.contact? (textLayout.key (.contact userId identityType))) :=
  readRow_same (by rintro ⟨⟩ <;> rfl) rfl

variable (commitment : Option Bytes)

theorem acceptContactIdentityRotation_same (now : ℤ) :
    Same (acceptContactIdentityRotation structuredLayout rules userId identity identityType
        commitment now)
      (acceptContactIdentityRotation textLayout rules userId identity identityType commitment
        now) := by
  refine .bind (readContact_same userId identityType) fun existing => ?_
  cases existing with
  | none => exact .throw _
  | some existing =>
    refine .bind (.fromResult _) fun replacement => ?_
    refine .bind (atomicWrite_same ?_) fun _ => .pure replacement
    exact .cons (.set rfl (Row.pointsToRecord_of_none rfl)) (.cons (.removeSessionsForUser userId) .nil)

theorem verifyContactIdentity_same (now : ℤ) :
    Same (verifyContactIdentity structuredLayout rules userId identity identityType commitment now)
      (verifyContactIdentity textLayout rules userId identity identityType commitment now) := by
  refine .bind (readContact_same userId identityType) fun existing => ?_
  cases existing with
  | none => exact .throw _
  | some existing =>
    refine .bind (.fromResult _) fun verified => ?_
    refine .bind (atomicWrite_same ?_) fun _ => .pure verified
    exact .cons (.set rfl (Row.pointsToRecord_of_none rfl)) .nil

variable (kind : PreKeyKind)

theorem getPreKeys_same (identityType : IdentityType) :
    Same (T := T) (getPreKeys structuredLayout kind identityType)
      (getPreKeys textLayout kind identityType) :=
  .bind (readRow_same (by rintro ⟨⟩ <;> rfl) rfl) fun keys => .pure (keys.getD [])

theorem setPreKeys_same (identityType : IdentityType) (keys : List PreKey) :
    Same (T := T) (setPreKeys structuredLayout kind identityType keys)
      (setPreKeys textLayout kind identityType keys) :=
  setItem_same (.preKeys kind identityType) rfl (Row.pointsToRecord_of_none rfl)

theorem storeEcSignedPreKey_same (signedPreKey : PreKey) (identityType : IdentityType) (now : ℤ) :
    Same (storeEcSignedPreKey structuredLayout rules signedPreKey identityType now)
      (storeEcSignedPreKey textLayout rules signedPreKey identityType now) :=
  .bind (getPreKeys_same .signedAll identityType) fun _ => setPreKeys_same _ _ _

theorem getEcSignedPreKey_same (keyId : Option ℕ) (identityType : IdentityType) :
    Same (T := T) (getEcSignedPreKey structuredLayout keyId identityType)
      (getEcSignedPreKey textLayout keyId identityType) := by
  refine .bind (getPreKeys_same .signedAll identityType) fun all => ?_
  cases keyId with
  | none => exact .pure _
  | some keyId => exact .pure _

theorem removePreKey_same (keyId : ℕ) (identityType : IdentityType) :
    Same (T := T) (removePreKey structuredLayout kind keyId identityType)
      (removePreKey textLayout kind keyId identityType) :=
  .bind (getPreKeys_same kind identityType) fun _ => setPreKeys_same _ _ _

theorem storeOneTimePreKeys_same (prekeys : List PreKey) (identityType : IdentityType) :
    Same (T := T) (storeOneTimePreKeys structuredLayout kind prekeys identityType)
      (storeOneTimePreKeys textLayout kind prekeys identityType) :=
  .bind (getPreKeys_same kind identityType) fun _ => setPreKeys_same _ _ _

theorem readKyber_same :
    Same (T := T) (readKyber structuredLayout identityType) (readKyber textLayout identityType) :=
  readRow_same (by rintro ⟨⟩ <;> rfl) rfl

theorem setKyber_same (state : T.Kyber) :
    Same (setItem (structuredLayout.key (.preKeys .kyber identityType)) (.kyber state))
      (setItem (textLayout.key (.preKeys .kyber identityType)) (.kyber state)) :=
  setItem_same (.preKeys .kyber identityType) rfl (Row.pointsToRecord_of_none rfl)

theorem storeKyberPreKey_same (kyberPreKey : T.KyberPreKey) (identityType : IdentityType)
    (now : ℤ) :
    Same (storeKyberPreKey structuredLayout rules kyberPreKey identityType now)
      (storeKyberPreKey textLayout rules kyberPreKey identityType now) := by
  refine .bind (readKyber_same identityType) fun stored => ?_
  refine .bind (.fromResult _) fun retained => ?_
  cases retained with
  | none => exact .pure _
  | some state => exact setKyber_same identityType state

theorem markKyberPreKeyUsed_same (use : T.KyberUse) (identityType : IdentityType) :
    Same (markKyberPreKeyUsed structuredLayout rules use identityType)
      (markKyberPreKeyUsed textLayout rules use identityType) := by
  refine .bind (readKyber_same identityType) fun stored => ?_
  exact .bind (.fromResult _) fun state => setKyber_same identityType state

theorem kyberUsage_same :
    Simulates (Renders (T := T)) (List.Forall₂ (IsFound (structuredLayout.isKyberUsage identityType)))
      (keysWhere (structuredLayout.isKyberUsage identityType))
      (keysWhere (textLayout.isKyberUsage identityType)) :=
  keysWhere_found fun _ hkey => isKyberUsage_text identityType hkey

theorem deleteAllPreKeys_same :
    Same (deleteAllPreKeys structuredLayout rules identityType)
      (deleteAllPreKeys textLayout rules identityType) := by
  refine .bind (getPreKeys_same .signedAll identityType) fun signedPreKeys => ?_
  refine .bind (getPreKeys_same .oneTime identityType) fun ecOneTimePreKeys => ?_
  refine .bind (readKyber_same identityType) fun kyber => ?_
  refine .bind (getPreKeys_same .kemOneTime identityType) fun kemOneTimePreKeys => ?_
  refine .bind (removeMany_same ?_) fun _ => ?_
  · exact .cons ⟨rfl, rfl⟩ (.cons ⟨rfl, rfl⟩ (.cons ⟨rfl, rfl⟩ (.cons ⟨rfl, rfl⟩ .nil)))
  refine Simulates.bind (kyberUsage_same identityType) fun keys keyTexts hkeys => ?_
  exact Same.bind (removeMany_found hkeys) fun _ => .pure _

theorem readSession_same :
    Same (T := T) (readRow Row.session? (structuredLayout.key (.session userId deviceId)))
      (readRow Row.session? (textLayout.key (.session userId deviceId))) :=
  readRow_same (by rintro ⟨⟩ <;> rfl) rfl

theorem storeSessionRecord_same (record : Sesame.SessionRecord) :
    Same (storeSessionRecord structuredLayout rules userId deviceId record)
      (storeSessionRecord textLayout rules userId deviceId record) := by
  refine Simulates.ite (fun _ => .throw _) fun _ => ?_
  exact setItem_same (.session userId deviceId) rfl (Row.pointsToRecord_of_none rfl)

theorem getSessionRecord_same :
    Same (getSessionRecord structuredLayout rules userId deviceId)
      (getSessionRecord textLayout rules userId deviceId) := by
  refine .bind (readSession_same userId deviceId) fun stored => ?_
  cases stored with
  | none => exact .pure none
  | some stored =>
    refine Simulates.ite (fun _ => .pure rfl) fun _ => ?_
    exact Same.bind (removeItem_same (.session userId deviceId) rfl) fun _ => .pure none

theorem consumeOneTimePreKey_writes (identityType : IdentityType)
    (keyId : Option ℕ) (missing : String) : Simulates (Renders (T := T)) (List.Forall₂ IsWrite)
      (consumeOneTimePreKey structuredLayout kind identityType keyId missing)
      (consumeOneTimePreKey textLayout kind identityType keyId missing) := by
  cases keyId with
  | none => exact .pure .nil
  | some keyId =>
    refine Simulates.bind (getPreKeys_same kind identityType) ?_
    rintro keys _ rfl
    refine Simulates.ite (fun _ => .throw _) fun _ => ?_
    exact .pure (.cons (.set rfl (Row.pointsToRecord_of_none rfl)) .nil)

theorem commitSessionTrust_same (commit : SessionTrustCommit T) (now : ℤ) :
    Same (commitSessionTrust structuredLayout rules commit now)
      (commitSessionTrust textLayout rules commit now) := by
  refine Simulates.ite (fun _ => .throw _) fun _ => ?_
  refine Same.bind (readContact_same commit.userId commit.contactIdentityType) fun existing => ?_
  refine Simulates.ite (fun _ => .throw _) fun _ => ?_
  refine Simulates.bind (consumeOneTimePreKey_writes _ _ _ _) fun ecWrites ecTexts hec => ?_
  refine Simulates.bind (consumeOneTimePreKey_writes _ _ _ _) fun kemWrites kemTexts hkem => ?_
  have hkyber : ∀ kyberWrites kyberTexts, List.Forall₂ IsWrite kyberWrites kyberTexts →
      Same (atomicWrite structuredLayout
          ([.set (structuredLayout.key (.session commit.userId commit.deviceId))
            (.session commit.userId commit.deviceId commit.record)] ++
            (if rules.evaluateContactIdentityCandidate existing commit.contactIdentity none = .new then
              [Write.set (structuredLayout.key (.contact commit.userId commit.contactIdentityType))
                (.contact (rules.createUnverifiedContactIdentityRecord commit.contactIdentity now))]
            else []) ++ ecWrites ++ kemWrites ++ kyberWrites))
        (atomicWrite textLayout ([.set (textLayout.key (.session commit.userId commit.deviceId))
            (.session commit.userId commit.deviceId commit.record)] ++
            (if rules.evaluateContactIdentityCandidate existing commit.contactIdentity none = .new then
              [Write.set (textLayout.key (.contact commit.userId commit.contactIdentityType))
                (.contact (rules.createUnverifiedContactIdentityRecord commit.contactIdentity now))]
            else []) ++ ecTexts ++ kemTexts ++ kyberTexts)) := by
    intro kyberWrites kyberTexts hwrites
    refine atomicWrite_same (rel_append (rel_append (rel_append (rel_append
      (.cons (.set rfl (Row.pointsToRecord_of_none rfl)) .nil) ?_) hec) hkem) hwrites)
    split
    · exact .cons (.set rfl (Row.pointsToRecord_of_none rfl)) .nil
    · exact .nil
  cases commit.kyberPreKeyUse with
  | none => exact hkyber [] [] .nil
  | some use =>
    refine Same.bind (readKyber_same _) fun stored => ?_
    refine Same.bind (Simulates.fromResult _) fun state => ?_
    exact hkyber _ _ (.cons (.set rfl (Row.pointsToRecord_of_none rfl)) .nil)

theorem deleteSessionRecord_same :
    Same (T := T) (deleteSessionRecord structuredLayout userId deviceId)
      (deleteSessionRecord textLayout userId deviceId) :=
  atomicWrite_same (.cons (.remove rfl) .nil)

theorem archiveCurrentSession_same (newSession : Option Sesame.SessionState) (now : ℤ) :
    Same (archiveCurrentSession structuredLayout rules userId deviceId newSession now)
      (archiveCurrentSession textLayout rules userId deviceId newSession now) := by
  cases newSession with
  | none => exact atomicWrite_same (.cons (.remove rfl) .nil)
  | some session =>
    refine .bind (getSessionRecord_same rules userId deviceId) fun record => ?_
    cases record with
    | none => exact atomicWrite_same .nil
    | some record =>
      refine Simulates.ite (fun _ => .throw _) fun _ => ?_
      exact atomicWrite_same (.cons (.set rfl (Row.pointsToRecord_of_none rfl)) .nil)

theorem sessionKeys_found :
    Simulates (Renders (T := T)) (List.Forall₂ (IsFound structuredLayout.isSession))
      (keysWhere structuredLayout.isSession) (keysWhere textLayout.isSession) :=
  keysWhere_found fun _ hkey => isSession_text hkey

theorem sessionOfUser_same {key : StorageKey} (hkey : key.Stored) :
    Same (sessionOfUser rules userId key) (sessionOfUser rules userId key.text) := by
  refine .bind (readRow_same (by rintro ⟨⟩ <;> rfl) hkey) fun stored => ?_
  cases stored with
  | none => exact .pure none
  | some stored =>
    refine Simulates.ite (fun _ => ?_) fun _ => .pure rfl
    refine Simulates.ite (fun _ => .pure rfl) fun _ => ?_
    exact Same.bind (removeItem_same key hkey) fun _ => .pure none

theorem getSessionsForUser_same :
    Same (getSessionsForUser structuredLayout rules userId)
      (getSessionsForUser textLayout rules userId) := by
  refine Simulates.bind sessionKeys_found fun keys keyTexts hkeys => ?_
  refine Same.bind (mapM_found hkeys ?_) fun _ => .pure _
  exact fun _ hkey _ => sessionOfUser_same rules userId hkey

theorem hasSession_same :
    Same (hasSession structuredLayout rules userId deviceId)
      (hasSession textLayout rules userId deviceId) :=
  .bind (getSessionRecord_same rules userId deviceId) fun _ => .pure _

theorem getSessionCount_same :
    Same (T := T) (getSessionCount structuredLayout) (getSessionCount textLayout) :=
  Simulates.bind sessionKeys_found fun _ _ hkeys => .pure hkeys.length_eq

theorem clearAllSessions_same :
    Same (T := T) (clearAllSessions structuredLayout) (clearAllSessions textLayout) := by
  refine Simulates.bind (keysWhere_found ?_) fun _ _ hkeys => removeMany_found hkeys
  intro key hkey
  rw [isSession_text hkey, sesameUserId?_text hkey]

/-! ## Sesame users -/

theorem getStoredUserRecord_same :
    Same (T := T) (getStoredUserRecord structuredLayout userId)
      (getStoredUserRecord textLayout userId) :=
  readRow_same (by rintro ⟨⟩ <;> rfl) rfl

theorem createAddress_same :
    Same (T := T) (createAddress userId) (createAddress userId) :=
  Simulates.ite (fun _ => .throw _) fun _ => .pure rfl

variable (now : ℤ)

theorem joinDevice_same (devices : OrderedMap Sesame.DeviceId Sesame.DeviceRecord)
    (entry : Sesame.DeviceId × Sesame.DeviceRecord) :
    Same (joinDevice structuredLayout rules userId now devices entry)
      (joinDevice textLayout rules userId now devices entry) :=
  .bind (createAddress_same userId) fun _ =>
    .bind (getSessionRecord_same rules userId entry.1) fun _ => .pure _

theorem getUserRecord_same :
    Same (getUserRecord structuredLayout rules userId now)
      (getUserRecord textLayout rules userId now) := by
  refine .bind (getStoredUserRecord_same userId) fun stored => ?_
  cases stored with
  | none => exact .pure none
  | some record =>
    exact .bind (.foldlM (joinDevice_same rules userId now) _ _) fun _ => .pure _

theorem setUserRecord_same (record : Sesame.UserRecord) :
    Same (T := T) (setUserRecord structuredLayout userId record)
      (setUserRecord textLayout userId record) :=
  setItem_same (.sesameUser userId) rfl (Row.pointsToRecord_of_none rfl)

theorem getDeviceRecord_same (deviceId : Sesame.DeviceId) (now : ℤ) :
    Same (getDeviceRecord structuredLayout rules userId deviceId now)
      (getDeviceRecord textLayout rules userId deviceId now) :=
  .bind (getStoredUserRecord_same userId) fun _ => .bind (createAddress_same userId) fun _ =>
    .bind (getSessionRecord_same rules userId deviceId) fun _ => .pure _

theorem setDeviceRecord_same (deviceId : Sesame.DeviceId) (record : Sesame.DeviceRecord) (now : ℤ) :
    Same (T := T) (setDeviceRecord structuredLayout userId deviceId record now)
      (setDeviceRecord textLayout userId deviceId record now) := by
  refine .bind (getStoredUserRecord_same userId) fun stored => ?_
  cases record.session with
  | none => exact atomicWrite_same (.cons (.set rfl (Row.pointsToRecord_of_none rfl)) .nil)
  | some session =>
    refine .bind (createAddress_same userId) fun _ => atomicWrite_same ?_
    exact .cons (.set rfl (Row.pointsToRecord_of_none rfl))
      (.cons (.set rfl (Row.pointsToRecord_of_none rfl)) .nil)

theorem deleteDeviceRecord_same (deviceId : Sesame.DeviceId) (now : ℤ) :
    Same (T := T) (deleteDeviceRecord structuredLayout userId deviceId now)
      (deleteDeviceRecord textLayout userId deviceId now) := by
  refine .bind (getStoredUserRecord_same userId) fun stored => ?_
  cases stored with
  | none => exact atomicWrite_same .nil
  | some record =>
    refine .bind (createAddress_same userId) fun _ => atomicWrite_same ?_
    refine .cons (.remove rfl) (.cons ?_ .nil)
    split
    · exact .remove rfl
    · exact .set rfl (Row.pointsToRecord_of_none rfl)

variable {found : StorageKey → Bool}

theorem filterMap_found {β : Type} {read : StorageKey → Option β} {readText : KeyText → Option β}
    (hread : ∀ key : StorageKey, key.Stored → readText key.text = read key)
    {keys : List StorageKey} {keyTexts : List KeyText}
    (hkeys : List.Forall₂ (IsFound found) keys keyTexts) :
    keys.filterMap read = keyTexts.filterMap readText := by
  induction hkeys with
  | nil => rfl
  | cons hhead _ ih =>
    obtain ⟨rfl, hkey, -⟩ := hhead
    rw [filterMap_cons, filterMap_cons, hread _ hkey, ih]

theorem getAllUserIds_same :
    Same (T := T) (getAllUserIds structuredLayout) (getAllUserIds textLayout) := by
  refine Simulates.bind (keysWhere_found ?_) fun keys keyTexts hkeys => .pure ?_
  · intro key hkey
    rw [sesameUserId?_text hkey]
  · exact filterMap_found (fun _ hkey => sesameUserId?_text hkey) hkeys

theorem getDeviceSession_same (deviceId : Sesame.DeviceId) (now : ℤ) :
    Same (getDeviceSession structuredLayout rules userId deviceId now)
      (getDeviceSession textLayout rules userId deviceId now) :=
  .bind (getDeviceRecord_same rules userId deviceId now) fun _ => .pure _

theorem setDeviceSession_same (deviceId : Sesame.DeviceId)
    (session : Sesame.SessionRecord) (now : ℤ) :
    Same (setDeviceSession structuredLayout rules userId deviceId session now)
      (setDeviceSession textLayout rules userId deviceId session now) := by
  refine .bind (getDeviceRecord_same rules userId deviceId now) fun record => ?_
  cases record with
  | none => exact .pure ()
  | some record => exact setDeviceRecord_same userId deviceId _ now

theorem deleteStaleDevice_same (maxLatency now : ℤ) (userId : String) (deleted : ℕ)
    (entry : Sesame.DeviceId × Sesame.DeviceRecord) :
    Same (deleteStaleDevice structuredLayout rules maxLatency now userId deleted entry)
      (deleteStaleDevice textLayout rules maxLatency now userId deleted entry) := by
  refine Simulates.ite (fun _ => .pure rfl) fun _ => ?_
  refine Same.bind (getDeviceRecord_same rules userId entry.1 now) fun current => ?_
  cases current with
  | none => exact .pure deleted
  | some current =>
    refine Simulates.ite (fun _ => .pure rfl) fun _ => ?_
    exact Same.bind (deleteDeviceRecord_same userId entry.1 now) fun _ => .pure (deleted + 1)

theorem deleteStaleOfUser_same (maxLatency now : ℤ) (deleted : ℕ) (userId : String) :
    Same (deleteStaleOfUser structuredLayout rules maxLatency now deleted userId)
      (deleteStaleOfUser textLayout rules maxLatency now deleted userId) := by
  refine .bind (getUserRecord_same rules userId now) fun record => ?_
  cases record with
  | none => exact .pure deleted
  | some record => exact .foldlM (deleteStaleDevice_same rules maxLatency now userId) _ _

theorem deleteStaleRecords_same (maxLatency now : ℤ) :
    Same (deleteStaleRecords structuredLayout rules maxLatency now)
      (deleteStaleRecords textLayout rules maxLatency now) :=
  .bind getAllUserIds_same fun _ => .foldlM (deleteStaleOfUser_same rules maxLatency now) _ _

theorem expireSessionsOfDevice_same (maxRecv now : ℤ) (userId : String) (deleted : ℕ)
    (entry : Sesame.DeviceId × Sesame.DeviceRecord) :
    Same (expireSessionsOfDevice structuredLayout rules maxRecv now userId deleted entry)
      (expireSessionsOfDevice textLayout rules maxRecv now userId deleted entry) := by
  refine Simulates.ite (fun _ => .pure rfl) fun _ => ?_
  refine Same.bind (getDeviceRecord_same rules userId entry.1 now) fun current => ?_
  cases current with
  | none => exact .pure deleted
  | some current =>
    refine Simulates.ite (fun _ => .pure rfl) fun _ => ?_
    exact Same.bind (setDeviceRecord_same userId entry.1 _ now) fun _ => .pure _

theorem expireSessionsOfUser_same (maxRecv now : ℤ) (deleted : ℕ) (userId : String) :
    Same (expireSessionsOfUser structuredLayout rules maxRecv now deleted userId)
      (expireSessionsOfUser textLayout rules maxRecv now deleted userId) := by
  refine .bind (getUserRecord_same rules userId now) fun record => ?_
  cases record with
  | none => exact .pure deleted
  | some record => exact .foldlM (expireSessionsOfDevice_same rules maxRecv now userId) _ _

theorem cleanupExpiredSessions_same (maxRecv now : ℤ) :
    Same (cleanupExpiredSessions structuredLayout rules maxRecv now)
      (cleanupExpiredSessions textLayout rules maxRecv now) :=
  .bind getAllUserIds_same fun _ => .foldlM (expireSessionsOfUser_same rules maxRecv now) _ _

theorem readSenderKeys_same {key : StorageKey} (hkey : key.Stored) :
    Same (T := T) (readRow Row.senderKeys? (structuredLayout.key key))
      (readRow Row.senderKeys? (textLayout.key key)) :=
  readRow_same (by rintro ⟨⟩ <;> rfl) hkey

variable (place : SenderKeyPlace)

theorem getSenderKeyRecord_same :
    Same (T := T) (getSenderKeyRecord structuredLayout place) (getSenderKeyRecord textLayout place) :=
  readSenderKeys_same rfl

variable (senderKeyIds : List String)

theorem pointerRemovals_write :
    List.Forall₂ (IsWrite (T := T))
      (senderKeyIds.map fun senderKeyId => .remove (pointerKey structuredLayout place senderKeyId))
      (senderKeyIds.map fun senderKeyId => .remove (pointerKey textLayout place senderKeyId)) := by
  rw [forall₂_map_left_iff, forall₂_map_right_iff, forall₂_same]
  exact fun senderKeyId _ => .remove rfl

theorem senderKeyIdPointerRemovals_writes :
    Simulates (Renders (T := T)) (List.Forall₂ IsWrite)
      (senderKeyIdPointerRemovals structuredLayout place)
      (senderKeyIdPointerRemovals textLayout place) := by
  refine Simulates.bind (getSenderKeyRecord_same place) ?_
  rintro record _ rfl
  cases record with
  | none => exact .pure .nil
  | some record => exact .pure (pointerRemovals_write place _)

theorem deleteSenderKey_same :
    Same (T := T) (deleteSenderKey structuredLayout place) (deleteSenderKey textLayout place) := by
  refine Simulates.bind (senderKeyIdPointerRemovals_writes place) fun removals texts hwrites => ?_
  exact atomicWrite_same (rel_append hwrites (.cons (.remove rfl) .nil))

theorem inSenderKeyGroup_found (groupId : String) : Simulates (Renders (T := T))
      (List.Forall₂ (IsFound (structuredLayout.inSenderKeyGroup groupId)))
      (keysWhere (structuredLayout.inSenderKeyGroup groupId))
      (keysWhere (textLayout.inSenderKeyGroup groupId)) :=
  keysWhere_found fun _ hkey => inSenderKeyGroup_text groupId hkey

theorem getAllSenderKeysForGroup_same (groupId : String) :
    Same (T := T) (getAllSenderKeysForGroup structuredLayout groupId)
      (getAllSenderKeysForGroup textLayout groupId) := by
  refine Simulates.bind (inSenderKeyGroup_found groupId) fun keys keyTexts hkeys => ?_
  refine Same.bind (mapM_found hkeys ?_) fun _ => .pure _
  exact fun key hkey _ => Same.bind (readSenderKeys_same hkey) fun _ => .pure _

theorem skippedKey_write (maxSkippedKeys : ℕ)
    (skipped : SkippedSenderKey) : List.Forall₂ (IsWrite (T := T))
      [.pruneSkippedSenderKeys place.groupId place.userId place.deviceId (maxSkippedKeys - 1),
        .set (skippedKey structuredLayout place skipped.senderKeyId skipped.chainIndex)
          (.skipped skipped.messageKey)]
      [.pruneSkippedSenderKeys place.groupId place.userId place.deviceId (maxSkippedKeys - 1),
        .set (skippedKey textLayout place skipped.senderKeyId skipped.chainIndex)
          (.skipped skipped.messageKey)] :=
  .cons (.pruneSkippedSenderKeys _ _ _ _)
    (.cons (.set rfl (Row.pointsToRecord_of_none rfl)) .nil)

theorem receiveWrites_write (receive : SenderKeyReceiveCommit) :
    List.Forall₂ (IsWrite (T := T)) (receiveWrites structuredLayout place receive)
      (receiveWrites textLayout place receive) := by
  refine rel_append ?_ ?_
  · refine rel_flatMap (forall₂_same.mpr fun _ _ => rfl) ?_
    rintro skipped _ rfl
    exact skippedKey_write place receive.maxSkippedKeys skipped
  · rw [forall₂_map_left_iff, forall₂_map_right_iff, forall₂_same]
    exact fun consumed _ => .remove rfl

theorem pointers_write :
    List.Forall₂ (IsWrite (T := T))
      (senderKeyIds.map fun senderKeyId =>
        .set (pointerKey structuredLayout place senderKeyId)
          (.pointer (structuredLayout.key (.senderKeyRecord place))))
      (senderKeyIds.map fun senderKeyId =>
        .set (pointerKey textLayout place senderKeyId)
          (.pointer (textLayout.key (.senderKeyRecord place)))) := by
  rw [forall₂_map_left_iff, forall₂_map_right_iff, forall₂_same]
  intro senderKeyId _
  refine .set rfl ?_
  rintro _ ⟨⟩
  exact ⟨place, rfl⟩

theorem storeSenderKeyRecord_same (states : List SenderKeyState)
    (receive : Option SenderKeyReceiveCommit) :
    Same (T := T) (storeSenderKeyRecord structuredLayout place states receive)
      (storeSenderKeyRecord textLayout place states receive) := by
  refine Simulates.ite (fun _ => .pure rfl) fun _ => ?_
  refine Same.bind (getSenderKeyRecord_same place) fun superseded => atomicWrite_same ?_
  refine rel_append (rel_append (rel_append (pointerRemovals_write place _) ?_)
    (pointers_write place _)) ?_
  · exact .cons (.set rfl (Row.pointsToRecord_of_none rfl)) .nil
  · cases receive with
    | none => exact .nil
    | some receive => exact receiveWrites_write place receive

variable (sender : SenderKeyPlace)
  (senderKeyId : String)

theorem storeSkippedSenderKey_same (chainIndex : ℕ) (messageKey : SkippedSenderMessageKey) :
    Same (T := T) (storeSkippedSenderKey structuredLayout sender senderKeyId chainIndex messageKey)
      (storeSkippedSenderKey textLayout sender senderKeyId chainIndex messageKey) :=
  setItem_same (.skippedSenderKey _ _ _ _ _) rfl (Row.pointsToRecord_of_none rfl)

theorem getSkippedSenderKey_same (chainIndex : ℕ) :
    Same (T := T) (getSkippedSenderKey structuredLayout sender senderKeyId chainIndex)
      (getSkippedSenderKey textLayout sender senderKeyId chainIndex) :=
  readRow_same (by rintro ⟨⟩ <;> rfl) rfl

theorem deleteSkippedSenderKey_same (chainIndex : ℕ) :
    Same (T := T) (deleteSkippedSenderKey structuredLayout sender senderKeyId chainIndex)
      (deleteSkippedSenderKey textLayout sender senderKeyId chainIndex) :=
  removeItem_same (.skippedSenderKey _ _ _ _ _) rfl

theorem countSkippedSenderKeys_same :
    Same (T := T) (countSkippedSenderKeys structuredLayout sender)
      (countSkippedSenderKeys textLayout sender) :=
  Simulates.bind (keysInSkippedSender _ _ _) fun _ _ hkeys => .pure hkeys.length_eq

theorem deleteOldestSkippedSenderKeys_same (count : ℕ) :
    Same (T := T) (deleteOldestSkippedSenderKeys structuredLayout sender count)
      (deleteOldestSkippedSenderKeys textLayout sender count) := by
  refine Simulates.bind (keysInSkippedSender _ _ _) fun keys keyTexts hkeys => ?_
  have holdest := forall₂_take count (byChainIndex_found hkeys)
  exact Simulates.bind (removeMany_found holdest) fun _ _ _ => .pure holdest.length_eq

theorem readMessage_same {key : StorageKey} (hkey : key.Stored) :
    Same (T := T) (readRow Row.message? (structuredLayout.key key))
      (readRow Row.message? (textLayout.key key)) :=
  readRow_same (by rintro ⟨⟩ <;> rfl) hkey

theorem messageRecords_found :
    Simulates (Renders (T := T)) (List.Forall₂ (IsFound structuredLayout.isMessageRecord))
      (keysWhere structuredLayout.isMessageRecord) (keysWhere textLayout.isMessageRecord) :=
  keysWhere_found fun _ hkey => isMessageRecord_text hkey

theorem storeMessageRecord_same (record : MessageRecord) (now : ℤ) :
    Same (T := T) (storeMessageRecord structuredLayout record now)
      (storeMessageRecord textLayout record now) :=
  .bind (readMessage_same rfl) fun _ =>
    setItem_same (.messageRecord _ _) rfl (Row.pointsToRecord_of_none rfl)

theorem deleteMessageRecord_same (sessionId : String) (timestamp : ℕ) :
    Same (T := T) (deleteMessageRecord structuredLayout sessionId timestamp)
      (deleteMessageRecord textLayout sessionId timestamp) :=
  removeItem_same (.messageRecord _ _) rfl

theorem expiredMessageKey_found (cutoff : ℤ) {key : StorageKey} (hkey : key.Stored)
    (hmsg : structuredLayout.isMessageRecord key = true) :
    Simulates (Renders (T := T)) (Option.Rel (IsFound structuredLayout.isMessageRecord))
      (expiredMessageKey cutoff key) (expiredMessageKey cutoff key.text) := by
  refine Simulates.bind (readMessage_same hkey) ?_
  rintro record _ rfl
  cases record with
  | none => exact .pure .none
  | some record =>
    refine .pure ?_
    split
    · exact .some ⟨rfl, hkey, hmsg⟩
    · exact .none

theorem reduceOption_found {keys : List (Option StorageKey)} {keyTexts : List (Option KeyText)}
    (hkeys : List.Forall₂ (Option.Rel (IsFound found)) keys keyTexts) :
    List.Forall₂ (IsFound found) keys.reduceOption keyTexts.reduceOption :=
  rel_filterMap (fun _ _ hrel => hrel) hkeys

theorem deleteExpiredMessageRecords_same (maxAgeMs now : ℤ) :
    Same (T := T) (deleteExpiredMessageRecords structuredLayout maxAgeMs now)
      (deleteExpiredMessageRecords textLayout maxAgeMs now) := by
  refine Simulates.bind messageRecords_found fun keys keyTexts hkeys => ?_
  have hscan : Simulates (Renders (T := T))
      (List.Forall₂ (Option.Rel (IsFound structuredLayout.isMessageRecord)))
      (keys.mapM (expiredMessageKey (now - maxAgeMs)))
      (keyTexts.mapM (expiredMessageKey (now - maxAgeMs))) := by
    refine Simulates.mapM hkeys ?_
    rintro key _ ⟨rfl, hkey, hmsg⟩
    exact expiredMessageKey_found (now - maxAgeMs) hkey hmsg
  refine Simulates.bind hscan fun expired others hexp => ?_
  have hfound := reduceOption_found hexp
  exact Simulates.bind (removeMany_found hfound) fun _ _ _ => .pure hfound.length_eq

theorem deleteMessageRecordsWhere_same {foundText : KeyText → Bool}
    (hfound : ∀ key : StorageKey, key.Stored → foundText key.text = found key) :
    Same (T := T) (deleteMessageRecordsWhere found) (deleteMessageRecordsWhere foundText) :=
  Simulates.bind (keysWhere_found hfound) fun _ _ hkeys =>
    Simulates.bind (removeMany_found hkeys) fun _ _ _ => .pure hkeys.length_eq

theorem rewriteMessageRecord_same (changed : ℕ) {key : StorageKey} (hkey : key.Stored) :
    Same (T := T) (rewriteMessageRecord rewrite changed key)
      (rewriteMessageRecord rewrite changed key.text) := by
  refine .bind (readMessage_same hkey) fun record => ?_
  cases record with
  | none => exact .pure changed
  | some record =>
    dsimp only
    cases rewrite record with
    | none => exact .bind (removeItem_same key hkey) fun _ => .pure (changed + 1)
    | some plaintext =>
      refine Simulates.ite (fun _ => .pure rfl) fun _ => ?_
      exact Same.bind (setItem_same key hkey (Row.pointsToRecord_of_none rfl)) fun _ =>
        .pure (changed + 1)

theorem rewriteMessageRecords_same :
    Same (T := T) (rewriteMessageRecords structuredLayout rewrite)
      (rewriteMessageRecords textLayout rewrite) := by
  refine Simulates.bind messageRecords_found fun keys keyTexts hkeys => ?_
  refine Simulates.foldlM hkeys ?_ rfl
  rintro changed _ key _ rfl ⟨rfl, hkey, -⟩
  exact rewriteMessageRecord_same rewrite changed hkey

theorem getMetadata_same (key : String) :
    Same (T := T) (getMetadata structuredLayout key) (getMetadata textLayout key) :=
  readRow_same (by rintro ⟨⟩ <;> rfl) rfl

theorem setMetadata_same (key value : String) :
    Same (T := T) (setMetadata structuredLayout key value) (setMetadata textLayout key value) :=
  setItem_same (.metadata key) rfl (Row.pointsToRecord_of_none rfl)

theorem deleteMetadata_same (key : String) :
    Same (T := T) (deleteMetadata structuredLayout key) (deleteMetadata textLayout key) :=
  removeItem_same (.metadata key) rfl

theorem listMetadataKeys_same (query : MetadataKeyQuery) :
    Same (listMetadataKeys structuredLayout rules query) (listMetadataKeys textLayout rules query) := by
  refine Simulates.bind (keysWhere_found ?_) fun keys keyTexts hkeys => ?_
  · intro key hkey
    rw [metadataKey?_text hkey]
  · rw [filterMap_found (fun _ hkey => metadataKey?_text hkey) hkeys]
    exact .fromResult _

theorem compareAndSetMetadata_same (key : String) (expected value : Option String) :
    Same (T := T) (compareAndSetMetadata structuredLayout key expected value)
      (compareAndSetMetadata textLayout key expected value) := by
  refine .bind (getMetadata_same key) fun observed => ?_
  refine Simulates.ite (fun _ => .pure rfl) fun _ => ?_
  cases value with
  | none => exact Same.bind (deleteMetadata_same key) fun _ => .pure true
  | some value => exact Same.bind (setMetadata_same key value) fun _ => .pure true

end SignalProtocol.KeyValue

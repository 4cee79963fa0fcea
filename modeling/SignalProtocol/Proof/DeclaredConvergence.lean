import SignalProtocol.Outbox.DeclaredPhase

/-! # Declared sends converge to the device set of the Relay

One repair after a mismatch gives each registered device one message. -/

namespace SignalProtocol.Outbox

open List

variable {deviceId : ℕ} {session : DeviceSession} {deviceIds : List ℕ}

structure RepairState.After (state next : RepairState) (deviceIds removed ready : List ℕ)
    (session : ℕ → Option DeviceSession) : Prop where
  sessions : ∀ deviceId, next.devices.sessions deviceId =
    if deviceId ∈ deviceIds then session deviceId else state.devices.sessions deviceId
  removed : next.removed = state.removed ++ removed
  ready : next.ready = state.ready ++ ready
  bundleMissing : next.bundleMissing = state.bundleMissing
  pending : next.devices.pendingVerification = state.devices.pendingVerification

theorem foldl_after (step : RepairState → ℕ → RepairState) (current : ℕ → Option DeviceSession)
    {removed ready : ℕ → List ℕ} {session : ℕ → Option DeviceSession}
    (hstep : ∀ state : RepairState, ∀ deviceId ∈ deviceIds,
      state.devices.sessions deviceId = current deviceId →
        state.After (step state deviceId) [deviceId] (removed deviceId) (ready deviceId) session)
    (hnodup : deviceIds.Nodup) (state : RepairState)
    (hcur : ∀ deviceId ∈ deviceIds, state.devices.sessions deviceId = current deviceId) :
    state.After (deviceIds.foldl step state) deviceIds (deviceIds.flatMap removed)
      (deviceIds.flatMap ready) session := by
  induction deviceIds generalizing state with
  | nil => exact ⟨fun _ => by simp, by simp, by simp, rfl, rfl⟩
  | cons first rest ih =>
    obtain ⟨hfst, hrest⟩ := nodup_cons.mp hnodup
    have hone := hstep state first mem_cons_self (hcur first mem_cons_self)
    have hothers : ∀ deviceId ∈ rest,
        (step state first).devices.sessions deviceId = current deviceId := by
      intro deviceId hmem
      have hne : deviceId ≠ first := ne_of_mem_of_not_mem hmem hfst
      rw [hone.sessions, if_neg (by simpa using hne)]
      exact hcur deviceId (mem_cons_of_mem _ hmem)
    have hafter := ih (fun state deviceId hmem => hstep state deviceId
      (mem_cons_of_mem _ hmem)) hrest _ hothers
    refine ⟨fun deviceId => ?_, ?_, ?_, ?_, ?_⟩
    · rw [foldl_cons, hafter.sessions, hone.sessions]
      by_cases hmem : deviceId ∈ rest
      · simp [hmem]
      · simp [hmem]
    · rw [foldl_cons, hafter.removed, hone.removed, flatMap_cons, append_assoc]
    · rw [foldl_cons, hafter.ready, hone.ready, flatMap_cons, append_assoc]
    · rw [foldl_cons, hafter.bundleMissing, hone.bundleMissing]
    · rw [foldl_cons, hafter.pending, hone.pending]

section

variable {account : RelayAccount}

theorem bundleSession_isSome (hreg : deviceId ∈ account.registrations.keys) :
    (bundleSession account deviceId).isSome := by
  rw [bundleSession, Option.isSome_map]
  exact (account.registrations.has_iff deviceId).mpr hreg

@[simp] theorem sessions_relistDevice (devices : LocalDevices) (deviceId : ℕ) :
    (devices.relistDevice deviceId).sessions = devices.sessions := by
  rw [LocalDevices.relistDevice]
  split <;> rfl

@[simp] theorem pending_relistDevice (devices : LocalDevices) (deviceId : ℕ) :
    (devices.relistDevice deviceId).pendingVerification = devices.pendingVerification := by
  rw [LocalDevices.relistDevice]
  split <;> rfl

theorem sessions_setSession (devices : LocalDevices) (deviceId other : ℕ)
    (session : ℕ → Option DeviceSession) :
    (devices.setSession deviceId (session deviceId)).sessions other =
      if other ∈ [deviceId] then session other else devices.sessions other := by
  rw [LocalDevices.setSession]
  by_cases hother : other = deviceId
  · simp [hother]
  · simp [hother]

theorem removeExtra_after (state : RepairState) (deviceId : ℕ) :
    state.After (removeExtra state deviceId) [deviceId] [deviceId] [] fun _ => none where
  sessions other := sessions_setSession state.devices deviceId other fun _ => none
  removed := rfl
  ready := (append_nil _).symm
  bundleMissing := rfl
  pending := rfl

def establishedSession (account : RelayAccount) (current : ℕ → Option DeviceSession)
    (deviceId : ℕ) : Option DeviceSession :=
  (current deviceId).or (bundleSession account deviceId)

theorem establishDevice_after (current : ℕ → Option DeviceSession) {state : RepairState}
    (hreg : deviceId ∈ account.registrations.keys)
    (hcur : state.devices.sessions deviceId = current deviceId) :
    state.After (establishDevice account state deviceId) [deviceId] [] [deviceId]
      (establishedSession account current) := by
  obtain ⟨bundle, hbundle⟩ := Option.isSome_iff_exists.mp (bundleSession_isSome hreg)
  rw [establishDevice]
  cases hsess : state.devices.sessions deviceId with
  | some session =>
    refine ⟨fun other => ?_, (append_nil _).symm, rfl, rfl, pending_relistDevice _ _⟩
    rw [sessions_relistDevice]
    by_cases hother : other = deviceId
    · rw [hother, if_pos mem_cons_self, establishedSession, ← hcur, hsess, Option.some_or]
    · rw [if_neg (by simpa using hother)]
  | none =>
    rw [hbundle]
    refine ⟨fun other => ?_, (append_nil _).symm, rfl, rfl, pending_relistDevice _ _⟩
    have hnew : establishedSession account current deviceId = some bundle := by
      rw [establishedSession, ← hcur, hsess, Option.none_or, hbundle]
    rw [sessions_relistDevice, ← hnew]
    exact sessions_setSession state.devices deviceId other (establishedSession account current)

def refreshedSession (account : RelayAccount) (posted : ℕ → Option ℕ)
    (devices : LocalDevices) (deviceId : ℕ) : Option DeviceSession :=
  if isRefreshed devices (posted deviceId) deviceId then devices.sessions deviceId
  else bundleSession account deviceId

theorem refreshStale_after (posted : ℕ → Option ℕ) (devices : LocalDevices) {state : RepairState}
    (hreg : deviceId ∈ account.registrations.keys)
    (hcur : state.devices.sessions deviceId = devices.sessions deviceId) :
    state.After (refreshStale account posted state deviceId) [deviceId] [deviceId] [deviceId]
      (refreshedSession account posted devices) := by
  have hsame : isRefreshed state.devices (posted deviceId) deviceId =
      isRefreshed devices (posted deviceId) deviceId := by
    rw [isRefreshed, isRefreshed, LocalDevices.getRemoteRegistrationId,
      LocalDevices.getRemoteRegistrationId, hcur]
  rw [refreshStale, hsame]
  by_cases hrefreshed : isRefreshed devices (posted deviceId) deviceId
  · rw [if_pos hrefreshed]
    refine ⟨fun other => ?_, rfl, rfl, rfl, rfl⟩
    by_cases hother : other = deviceId
    · rw [hother, if_pos mem_cons_self, refreshedSession, if_pos hrefreshed]
      exact hcur
    · rw [if_neg (by simpa using hother)]
  · rw [if_neg hrefreshed, if_pos (bundleSession_isSome hreg)]
    refine ⟨fun other => ?_, rfl, rfl, rfl, rfl⟩
    have hnew : refreshedSession account posted devices deviceId =
        bundleSession account deviceId := by
      rw [refreshedSession, if_neg hrefreshed]
    rw [← hnew]
    exact sessions_setSession state.devices deviceId other (refreshedSession account posted devices)

structure DeviceSetAccountRepair.Names (repair : DeviceSetAccountRepair) (account : RelayAccount) :
    Prop where
  missing_nodup : repair.missingDeviceIds.Nodup
  extra_nodup : repair.extraDeviceIds.Nodup
  stale_nodup : repair.staleDeviceIds.Nodup
  missing : ∀ deviceId ∈ repair.missingDeviceIds, deviceId ∈ account.registrations.keys
  stale : ∀ deviceId ∈ repair.staleDeviceIds, deviceId ∈ account.registrations.keys
  extra : ∀ deviceId ∈ repair.extraDeviceIds, deviceId ∉ account.registrations.keys
  apart : ∀ deviceId ∈ repair.missingDeviceIds, deviceId ∉ repair.staleDeviceIds

def repairedSession (account : RelayAccount) (posted : ℕ → Option ℕ) (devices : LocalDevices)
    (repair : DeviceSetAccountRepair) (deviceId : ℕ) : Option DeviceSession :=
  if deviceId ∈ repair.missingDeviceIds then
    establishedSession account devices.sessions deviceId
  else if deviceId ∈ repair.staleDeviceIds then refreshedSession account posted devices deviceId
  else devices.sessions deviceId

theorem repairRefusedDevices_after {repair : DeviceSetAccountRepair}
    (hnames : repair.Names account) (posted : ℕ → Option ℕ) (devices : LocalDevices) :
    (repairRefusedDevices account posted false devices repair).removed =
        repair.extraDeviceIds ++ repair.staleDeviceIds ∧
      (repairRefusedDevices account posted false devices repair).ready =
        repair.staleDeviceIds ++ repair.missingDeviceIds ∧
      (repairRefusedDevices account posted false devices repair).bundleMissing = [] ∧
      (repairRefusedDevices account posted false devices repair).devices.pendingVerification =
        devices.pendingVerification ∧
      ∀ deviceId ∈ account.registrations.keys,
        (repairRefusedDevices account posted false devices repair).devices.sessions deviceId =
          repairedSession account posted devices repair deviceId := by
  have hextra := foldl_after removeExtra devices.sessions
    (fun state deviceId _ _ => removeExtra_after state deviceId) hnames.extra_nodup
    { devices := devices } fun _ _ => rfl
  have hkept (deviceId : ℕ) (hreg : deviceId ∈ account.registrations.keys) :
      (repair.extraDeviceIds.foldl removeExtra { devices := devices }).devices.sessions deviceId =
        devices.sessions deviceId := by
    rw [hextra.sessions, if_neg fun hmem => hnames.extra deviceId hmem hreg]
  have hstale := foldl_after (refreshStale account posted) devices.sessions
    (fun state deviceId hmem hcur =>
      refreshStale_after posted devices (hnames.stale deviceId hmem)
        hcur) hnames.stale_nodup _ fun deviceId hmem =>
          hkept deviceId (hnames.stale deviceId hmem)
  have hmiss := foldl_after (establishDevice account) devices.sessions
    (fun state deviceId hmem hcur =>
      establishDevice_after devices.sessions (hnames.missing deviceId hmem) hcur)
    hnames.missing_nodup (repair.staleDeviceIds.foldl (refreshStale account posted)
      (repair.extraDeviceIds.foldl removeExtra { devices := devices })) fun deviceId hmem => by
      rw [hstale.sessions, if_neg (hnames.apart deviceId hmem)]
      exact hkept deviceId (hnames.missing deviceId hmem)
  rw [repairRefusedDevices]
  simp only [Bool.false_eq_true, if_false, establish]
  refine ⟨?_, ?_, ?_, ?_, fun deviceId hreg => ?_⟩
  · rw [hmiss.removed, hstale.removed, hextra.removed]
    simp
  · rw [hmiss.ready, hstale.ready, hextra.ready]
    simp
  · rw [hmiss.bundleMissing, hstale.bundleMissing, hextra.bundleMissing]
  · rw [hmiss.pending, hstale.pending, hextra.pending]
  · rw [hmiss.sessions, hstale.sessions, hkept deviceId hreg, repairedSession]

end

theorem mem_sorted :
    deviceId ∈ sorted deviceIds ↔ deviceId ∈ deviceIds := by
  rw [sorted, mem_insertionSort, mem_dedup]

theorem sorted_nodup (deviceIds : List ℕ) : (sorted deviceIds).Nodup :=
  (perm_insertionSort _ _).nodup_iff.mpr (nodup_dedup _)

theorem mem_mergeDeviceSetRefusals (refusals : List DeviceSetRefusal) (deviceId : ℕ) :
    (deviceId ∈ (mergeDeviceSetRefusals refusals).missingDeviceIds ↔
        (∃ refusal ∈ refusals, deviceId ∈ refusal.missing) ∧
          ¬ ∃ refusal ∈ refusals, deviceId ∈ refusal.extra) ∧
      (deviceId ∈ (mergeDeviceSetRefusals refusals).extraDeviceIds ↔
        ∃ refusal ∈ refusals, deviceId ∈ refusal.extra) ∧
      (deviceId ∈ (mergeDeviceSetRefusals refusals).staleDeviceIds ↔
        (∃ refusal ∈ refusals, deviceId ∈ refusal.staleIds) ∧
          ¬ ∃ refusal ∈ refusals, deviceId ∈ refusal.extra) := by
  simp [mergeDeviceSetRefusals, mem_sorted]

/-- The message names the registration that the Relay holds, or none. -/
def DeclaredMessage.IsCurrent (account : RelayAccount) (message : DeclaredMessage) : Prop :=
  ∀ named, message.recipientRegistrationId = some named →
    account.registrations.get? message.recipientDeviceId = some named

def deviceIdsOf (messages : List DeclaredMessage) : List ℕ :=
  messages.map DeclaredMessage.recipientDeviceId

/-- The messages are to the registered devices. -/
def Addresses (account : RelayAccount) (messages : List DeclaredMessage) : Prop :=
  ∀ deviceId, deviceId ∈ deviceIdsOf messages ↔ deviceId ∈ account.registrations.keys

section

variable {send : DeclaredSend} {messages : List DeclaredMessage}

theorem answer_mismatch (hother : ¬ Addresses send.account messages) (message : DeclaredMessage) :
    send.account.answer ((deviceIdsOf messages).insertionSort (· ≤ ·)) message =
      .error (.mismatch (send.account.registrations.keys.filter
          (· ∉ (deviceIdsOf messages).insertionSort (· ≤ ·)))
        (((deviceIdsOf messages).insertionSort (· ≤ ·)).filter
          (· ∉ send.account.registrations.keys))) := by
  rw [RelayAccount.answer]
  refine if_pos ?_
  by_contra hnone
  obtain ⟨hmiss, hextra⟩ := not_or.mp hnone
  refine hother fun deviceId => ?_
  have hheld := filter_eq_nil_iff.mp (not_not.mp hmiss) deviceId
  have hnamed := filter_eq_nil_iff.mp (not_not.mp hextra) deviceId
  simp only [mem_insertionSort, decide_eq_true_eq, not_not] at hheld hnamed
  exact ⟨hnamed, hheld⟩

theorem answer_addresses (haddrs : Addresses send.account messages)
    (message : DeclaredMessage) :
    refusalOf (send.account.answer ((deviceIdsOf messages).insertionSort (· ≤ ·)) message) =
      none ↔ message.IsCurrent send.account := by
  have hmiss : send.account.registrations.keys.filter
      (· ∉ (deviceIdsOf messages).insertionSort (· ≤ ·)) = [] := by
    refine filter_eq_nil_iff.mpr fun deviceId hmem => ?_
    simpa using (haddrs deviceId).mpr hmem
  have hextra : ((deviceIdsOf messages).insertionSort (· ≤ ·)).filter
      (· ∉ send.account.registrations.keys) = [] := by
    refine filter_eq_nil_iff.mpr fun deviceId hmem => ?_
    simpa using (haddrs deviceId).mp ((mem_insertionSort _).mp hmem)
  rw [RelayAccount.answer, hmiss, hextra, if_neg (by simp), DeclaredMessage.IsCurrent]
  cases hnamed : message.recipientRegistrationId with
  | none => simp [refusalOf]
  | some named =>
    by_cases hcur : send.account.registrations.get? message.recipientDeviceId = some named
    · simp [refusalOf, hcur]
    · simp [refusalOf, hcur]

theorem refusalOf_addresses (haddrs : Addresses send.account messages)
    {message : DeclaredMessage} {refusal : DeviceSetRefusal}
    (hrefusal : refusalOf (send.account.answer
      ((deviceIdsOf messages).insertionSort (· ≤ ·)) message) = some refusal) :
    refusal = .stale [message.recipientDeviceId] ∧ ¬ message.IsCurrent send.account := by
  have hstale : ¬ message.IsCurrent send.account := by
    intro hcur
    rw [(answer_addresses haddrs message).mpr hcur] at hrefusal
    cases hrefusal
  refine ⟨?_, hstale⟩
  rw [RelayAccount.answer] at hrefusal
  split at hrefusal
  · rename_i hwrong
    exfalso
    rcases hwrong with hmiss | hextra
    · refine hmiss (filter_eq_nil_iff.mpr fun deviceId hmem => ?_)
      simpa using (haddrs deviceId).mpr hmem
    · refine hextra (filter_eq_nil_iff.mpr fun deviceId hmem => ?_)
      simpa using (haddrs deviceId).mp ((mem_insertionSort _).mp hmem)
  · split at hrefusal
    · exact (Option.some.inj hrefusal).symm
    · cases hrefusal

/-- What a pass names for its repair: missing and extra devices of a wrong declaration, and the
stale devices of a right one. -/
theorem mem_repair_of_pass (hdone : send.settled = []) (hposts : messages ≠ [])
    (unposted : List ℕ) (deviceId : ℕ) :
    (deviceId ∈ (mergeDeviceSetRefusals (send.pass messages unposted)).missingDeviceIds ↔
        deviceId ∈ send.account.registrations.keys ∧ deviceId ∉ deviceIdsOf messages) ∧
      (deviceId ∈ (mergeDeviceSetRefusals (send.pass messages unposted)).extraDeviceIds ↔
        deviceId ∈ deviceIdsOf messages ∧ deviceId ∉ send.account.registrations.keys) ∧
      (deviceId ∈ (mergeDeviceSetRefusals (send.pass messages unposted)).staleDeviceIds ↔
        Addresses send.account messages ∧ ∃ message ∈ messages,
          message.recipientDeviceId = deviceId ∧ ¬ message.IsCurrent send.account) := by
  obtain ⟨hmiss, hextra, hstale⟩ :=
    mem_mergeDeviceSetRefusals (send.pass messages unposted) deviceId
  have hpass (refusal : DeviceSetRefusal) : refusal ∈ send.pass messages unposted ↔
      ∃ message ∈ messages, refusalOf (send.account.answer
        ((deviceIdsOf messages).insertionSort (· ≤ ·)) message) = some refusal := by
    simp only [DeclaredSend.pass, if_neg hposts, DeclaredSend.posts, hdone, not_mem_nil,
      not_false_eq_true, decide_true, filter_true, mem_filterMap, deviceIdsOf]
  rw [hmiss, hextra, hstale]
  by_cases haddrs : Addresses send.account messages
  · have hshape (refusal : DeviceSetRefusal) (hmem : refusal ∈ send.pass messages unposted) :
        ∃ message ∈ messages, refusal = .stale [message.recipientDeviceId] ∧
          ¬ message.IsCurrent send.account := by
      obtain ⟨message, hmsg, hrefusal⟩ := (hpass refusal).mp hmem
      exact ⟨message, hmsg, refusalOf_addresses haddrs hrefusal⟩
    have hnoExtra : ¬ ∃ refusal ∈ send.pass messages unposted, deviceId ∈ refusal.extra := by
      rintro ⟨refusal, hmem, hdev⟩
      obtain ⟨message, -, rfl, -⟩ := hshape refusal hmem
      cases hdev
    refine ⟨?_, ?_, ?_⟩
    · refine ⟨fun hnamed => ?_, fun hboth => absurd ((haddrs deviceId).mpr hboth.1) hboth.2⟩
      obtain ⟨⟨refusal, hmem, hdev⟩, -⟩ := hnamed
      obtain ⟨message, -, rfl, -⟩ := hshape refusal hmem
      cases hdev
    · refine ⟨fun hnamed => absurd hnamed hnoExtra, fun hboth => ?_⟩
      exact absurd ((haddrs deviceId).mp hboth.1) hboth.2
    · refine ⟨fun hnamed => ⟨haddrs, ?_⟩, fun hnamed => ⟨?_, hnoExtra⟩⟩
      · obtain ⟨⟨refusal, hmem, hdev⟩, -⟩ := hnamed
        obtain ⟨message, hmsg, rfl, hother⟩ := hshape refusal hmem
        exact ⟨message, hmsg, (mem_singleton.mp hdev).symm, hother⟩
      · obtain ⟨-, message, hmsg, rfl, hother⟩ := hnamed
        cases hrefusal : refusalOf (send.account.answer
            ((deviceIdsOf messages).insertionSort (· ≤ ·)) message) with
        | none => exact absurd ((answer_addresses haddrs message).mp hrefusal) hother
        | some refusal =>
          refine ⟨refusal, (hpass refusal).mpr ⟨message, hmsg, hrefusal⟩, ?_⟩
          rw [(refusalOf_addresses haddrs hrefusal).1]
          exact mem_singleton.mpr rfl
  · obtain ⟨first, hfst⟩ := exists_mem_of_ne_nil messages hposts
    have hall (refusal : DeviceSetRefusal) : refusal ∈ send.pass messages unposted ↔
        refusal = .mismatch
          (send.account.registrations.keys.filter
            (· ∉ (deviceIdsOf messages).insertionSort (· ≤ ·)))
          (((deviceIdsOf messages).insertionSort (· ≤ ·)).filter
            (· ∉ send.account.registrations.keys)) := by
      rw [hpass]
      simp only [answer_mismatch haddrs, refusalOf, Option.some.injEq]
      exact ⟨fun ⟨_, _, heq⟩ => heq.symm, fun heq => ⟨first, hfst, heq.symm⟩⟩
    simp only [hall, exists_eq_left, DeviceSetRefusal.missing, DeviceSetRefusal.extra,
      DeviceSetRefusal.staleIds, mem_filter, mem_insertionSort, decide_eq_true_eq,
      not_mem_nil, false_and, haddrs, and_true]
    exact ⟨fun hnamed => hnamed.1, fun hboth => ⟨hboth, fun hother => hboth.2 hother.1⟩⟩

end

/-- The sessions with the registered devices can send. -/
def LocalDevices.CanSend (devices : LocalDevices) (account : RelayAccount) : Prop :=
  ∀ deviceId ∈ account.registrations.keys, deviceId ∉ devices.pendingVerification ∧
    ∀ session, devices.sessions deviceId = some session → session.canSend = true

theorem mapM_ok {α β : Type} {call : α → Except SendError β} {value : α → β} {entries : List α}
    (hcall : ∀ entry ∈ entries, call entry = .ok (value entry)) :
    entries.mapM call = .ok (entries.map value) := by
  induction entries with
  | nil => rfl
  | cons first rest ih =>
    rw [mapM_cons, hcall first mem_cons_self,
      ih fun entry hmem => hcall entry (mem_cons_of_mem _ hmem)]
    rfl

theorem appendMessages_ok {stored added : List DeclaredMessage}
    (hnodup : (deviceIdsOf (stored ++ added)).Nodup) :
    added.foldlM appendOutgoingDeviceMessage stored = .ok (stored ++ added) := by
  induction added generalizing stored with
  | nil => simp
  | cons message rest ih =>
    have hnone : stored.find? (·.recipientDeviceId = message.recipientDeviceId) = none := by
      refine find?_eq_none.mpr fun prior hprior hsame => ?_
      rw [deviceIdsOf, map_append, map_cons, nodup_append] at hnodup
      exact hnodup.2.2 _ (mem_map_of_mem hprior) _ mem_cons_self (by simpa using hsame)
    have happend : appendOutgoingDeviceMessage stored message = .ok (stored ++ [message]) := by
      rw [appendOutgoingDeviceMessage, hnone]
      rfl
    have hrest : stored ++ message :: rest = (stored ++ [message]) ++ rest := by simp
    rw [foldlM_cons, happend]
    rw [hrest] at hnodup ⊢
    exact ih hnodup

theorem find_message {messages : List DeclaredMessage} {message : DeclaredMessage}
    (hnodup : (deviceIdsOf messages).Nodup) (hmem : message ∈ messages) :
    messages.find? (·.recipientDeviceId = message.recipientDeviceId) = some message := by
  induction messages with
  | nil => cases hmem
  | cons first rest ih =>
    rw [deviceIdsOf, map_cons, nodup_cons] at hnodup
    rw [find?_cons]
    rcases mem_cons.mp hmem with rfl | hmem
    · simp
    · have hother : first.recipientDeviceId ≠ message.recipientDeviceId := by
        intro heq
        exact hnodup.1 (heq ▸ mem_map_of_mem hmem)
      simpa [hother] using ih hnodup.2 hmem

section

variable {account : RelayAccount} {posted : ℕ → Option ℕ} {devices : LocalDevices}
variable {repair : DeviceSetAccountRepair}

theorem bundleSession_canSend
    (hsess : bundleSession account deviceId = some session) : session.canSend = true := by
  obtain ⟨registration, -, rfl⟩ := Option.map_eq_some_iff.mp hsess
  rfl

theorem repairedSession_canSend (hsends : devices.CanSend account)
    (hreg : deviceId ∈ account.registrations.keys)
    (hsess : repairedSession account posted devices repair deviceId = some session) :
    session.canSend = true := by
  have hcur := (hsends deviceId hreg).2
  rw [repairedSession] at hsess
  split at hsess
  · rw [establishedSession, Option.or_eq_some_iff] at hsess
    rcases hsess with hold | ⟨-, hnew⟩
    · exact hcur session hold
    · exact bundleSession_canSend hnew
  · split at hsess
    · rw [refreshedSession] at hsess
      split at hsess
      · exact hcur session hsess
      · exact bundleSession_canSend hsess
    · exact hcur session hsess

theorem repairedSession_isSome (posted : ℕ → Option ℕ) (devices : LocalDevices)
    (hreg : deviceId ∈ account.registrations.keys)
    (hready : deviceId ∈ repair.staleDeviceIds ++ repair.missingDeviceIds) :
    (repairedSession account posted devices repair deviceId).isSome := by
  have hbundle := bundleSession_isSome hreg
  rw [repairedSession]
  split
  · rw [establishedSession, Option.isSome_or, hbundle, Bool.or_true]
  · rename_i hmiss
    rw [if_pos ((mem_append.mp hready).resolve_right hmiss), refreshedSession]
    split
    · rename_i hrefreshed
      rw [isRefreshed] at hrefreshed
      obtain ⟨-, hnamed, -⟩ := of_decide_eq_true hrefreshed
      obtain ⟨registration, hregistration⟩ := Option.isSome_iff_exists.mp hnamed
      obtain ⟨session, hsess, -⟩ := Option.bind_eq_some_iff.mp hregistration
      rw [hsess, Option.isSome_some]
    · exact hbundle

def renewed (account : RelayAccount) (posted : ℕ → Option ℕ) (devices : LocalDevices)
    (repair : DeviceSetAccountRepair) (encrypt : ℕ → ℕ → String) (restarts deviceId : ℕ) :
    DeclaredMessage :=
  ⟨deviceId, (repairedSession account posted devices repair deviceId).bind
    DeviceSession.remoteRegistrationId, encrypt restarts deviceId⟩

theorem sendMessage_renewed (hnames : repair.Names account) (hsends : devices.CanSend account)
    (encrypt : ℕ → ℕ → String) (restarts : ℕ)
    (hready : deviceId ∈ repair.staleDeviceIds ++ repair.missingDeviceIds) :
    sendMessage encrypt restarts
        (repairRefusedDevices account posted false devices repair).devices deviceId =
      .ok (renewed account posted devices repair encrypt restarts deviceId) := by
  have hreg : deviceId ∈ account.registrations.keys :=
    (mem_append.mp hready).elim (hnames.stale deviceId) (hnames.missing deviceId)
  obtain ⟨-, -, -, hpend, hsessions⟩ := repairRefusedDevices_after hnames posted devices
  obtain ⟨session, hsess⟩ := Option.isSome_iff_exists.mp
    (repairedSession_isSome posted devices hreg hready)
  rw [sendMessage, hpend, if_neg (hsends deviceId hreg).1, hsessions deviceId hreg, renewed, hsess]
  simp only [repairedSession_canSend hsends hreg hsess, if_true]
  rfl

end

namespace DeclaredSend

variable {send : DeclaredSend}

def messagesOf (send : DeclaredSend) (state : PhaseState) : List DeclaredMessage :=
  send.postable state.stored

/-- A state of a phase that has a message to post. -/
structure Sound (send : DeclaredSend) (state : PhaseState) : Prop where
  posts : send.messagesOf state ≠ []
  nodup : (deviceIdsOf state.stored).Nodup
  canSend : state.devices.CanSend send.account

theorem messagesOf_nodup {state : PhaseState} (hnodup : (deviceIdsOf state.stored).Nodup) :
    (deviceIdsOf (send.messagesOf state)).Nodup :=
  hnodup.sublist (filter_sublist.map _)

theorem mem_messagesOf {state : PhaseState} {message : DeclaredMessage} :
    message ∈ send.messagesOf state ↔
      message ∈ state.stored ∧ send.account.own ≠ some message.recipientDeviceId := by
  simp [messagesOf, postable]

def repairOf (send : DeclaredSend) (state : PhaseState) : DeviceSetAccountRepair :=
  mergeDeviceSetRefusals (send.pass (send.messagesOf state) state.unposted)

theorem repairOf_names {state : PhaseState} (hdone : send.settled = [])
    (hposts : send.messagesOf state ≠ []) : (send.repairOf state).Names send.account := by
  have hmem := mem_repair_of_pass hdone hposts state.unposted
  refine ⟨sorted_nodup _, sorted_nodup _, sorted_nodup _, ?_, ?_, ?_, ?_⟩
  · exact fun deviceId hmiss => ((hmem deviceId).1.mp hmiss).1
  · intro deviceId hstale
    obtain ⟨haddrs, message, hmsg, rfl, -⟩ := (hmem deviceId).2.2.mp hstale
    exact (haddrs _).mp (mem_map_of_mem hmsg)
  · exact fun deviceId hextra => ((hmem deviceId).2.1.mp hextra).2
  · intro deviceId hmiss hstale
    obtain ⟨-, message, hmsg, rfl, -⟩ := (hmem deviceId).2.2.mp hstale
    exact ((hmem _).1.mp hmiss).2 (mem_map_of_mem hmsg)

def renewedOf (send : DeclaredSend) (state : PhaseState) (restarts deviceId : ℕ) :
    DeclaredMessage :=
  renewed send.account (postedRegistration (send.messagesOf state)) state.devices
    (send.repairOf state) send.encrypt restarts deviceId

structure Repaired (send : DeclaredSend) (state next : PhaseState) (restarts : ℕ) : Prop where
  stored : next.stored = state.stored.filter (fun message =>
      message.recipientDeviceId ∉
        (send.repairOf state).extraDeviceIds ++ (send.repairOf state).staleDeviceIds) ++
    ((send.repairOf state).staleDeviceIds ++ (send.repairOf state).missingDeviceIds).map
      (send.renewedOf state restarts)
  nodup : (deviceIdsOf next.stored).Nodup
  canSend : next.devices.CanSend send.account
  sessions : ∀ deviceId ∈ send.account.registrations.keys,
    next.devices.sessions deviceId = repairedSession send.account
      (postedRegistration (send.messagesOf state)) state.devices (send.repairOf state) deviceId

theorem deviceIdsOf_renewed (state : PhaseState) (restarts : ℕ) (deviceIds : List ℕ) :
    deviceIdsOf (deviceIds.map (send.renewedOf state restarts)) = deviceIds := by
  rw [deviceIdsOf, map_map]
  exact map_id' deviceIds

theorem repaired_nodup {state : PhaseState} (hdone : send.settled = [])
    (hsound : send.Sound state) (restarts : ℕ) :
    (deviceIdsOf (state.stored.filter (fun message => message.recipientDeviceId ∉
        (send.repairOf state).extraDeviceIds ++ (send.repairOf state).staleDeviceIds) ++
      ((send.repairOf state).staleDeviceIds ++ (send.repairOf state).missingDeviceIds).map
        (send.renewedOf state restarts))).Nodup := by
  have hnames := repairOf_names hdone hsound.posts
  rw [deviceIdsOf, map_append, ← deviceIdsOf, ← deviceIdsOf, deviceIdsOf_renewed,
    nodup_append]
  refine ⟨hsound.nodup.sublist (filter_sublist.map _), ?_, ?_⟩
  · refine nodup_append.mpr ⟨hnames.stale_nodup, hnames.missing_nodup, ?_⟩
    rintro deviceId hstale _ hmiss rfl
    exact hnames.apart deviceId hmiss hstale
  · rintro _ hkept deviceId hready rfl
    obtain ⟨message, hmsg, rfl⟩ := mem_map.mp hkept
    obtain ⟨hstored, hstays⟩ := mem_filter.mp hmsg
    simp only [mem_append, not_or, decide_eq_true_eq] at hstays
    rcases mem_append.mp hready with hstale | hmiss
    · exact hstays.2 hstale
    · have hreg := hnames.missing _ hmiss
      refine ((mem_repair_of_pass hdone hsound.posts state.unposted _).1.mp hmiss).2 ?_
      exact mem_map_of_mem
        (mem_messagesOf.mpr ⟨hstored, send.account.own_left_out _ hreg⟩)

theorem repair_ok {state : PhaseState} (hdone : send.settled = []) (hsound : send.Sound state)
    (restarts : ℕ) : ∃ next,
      send.repair state restarts (send.pass (send.messagesOf state) state.unposted) = .ok next ∧
        send.Repaired state next restarts := by
  have hnames := repairOf_names hdone hsound.posts
  obtain ⟨hrem, hready, -, hpend, hsessions⟩ := repairRefusedDevices_after hnames
    (postedRegistration (send.messagesOf state)) state.devices
  set repaired := repairRefusedDevices send.account (postedRegistration (send.messagesOf state))
    false state.devices (send.repairOf state) with hrepaired
  have hadded : repaired.ready.mapM (sendMessage send.encrypt restarts repaired.devices) =
      .ok (((send.repairOf state).staleDeviceIds ++ (send.repairOf state).missingDeviceIds).map
        (send.renewedOf state restarts)) := by
    rw [hready]
    exact mapM_ok fun deviceId hmem =>
      sendMessage_renewed hnames hsound.canSend send.encrypt restarts hmem
  have hnodup := repaired_nodup hdone hsound restarts
  refine ⟨⟨_, repaired.bundleMissing, repaired.devices⟩, ?_, rfl, hnodup, ?_, hsessions⟩
  · have hposts : decide (send.postable state.stored = []) = false := decide_eq_false hsound.posts
    rw [DeclaredSend.repair]
    simp only [hposts]
    change (do
      let added ← repaired.ready.mapM (sendMessage send.encrypt restarts repaired.devices)
      let stored ← repairOutgoingDeviceSet state.stored repaired.removed added
      pure ⟨stored, repaired.bundleMissing, repaired.devices⟩ : Except SendError PhaseState) = _
    rw [hadded, hrem]
    change (do
      let stored ← repairOutgoingDeviceSet state.stored _ _
      pure ⟨stored, repaired.bundleMissing, repaired.devices⟩ : Except SendError PhaseState) = _
    rw [repairOutgoingDeviceSet, appendMessages_ok hnodup]
    rfl
  · intro deviceId hreg
    refine ⟨hpend ▸ (hsound.canSend deviceId hreg).1, fun session hsess => ?_⟩
    rw [hsessions deviceId hreg] at hsess
    exact repairedSession_canSend hsound.canSend hreg hsess

section

variable {state next : PhaseState} {restarts : ℕ} (hdone : send.settled = [])
variable (hsound : send.Sound state) (hrepaired : send.Repaired state next restarts)

include hdone hsound hrepaired

theorem mem_next (message : DeclaredMessage) : message ∈ send.messagesOf next ↔
    (message ∈ send.messagesOf state ∧
        message.recipientDeviceId ∉ (send.repairOf state).extraDeviceIds ∧
          message.recipientDeviceId ∉ (send.repairOf state).staleDeviceIds) ∨
      ∃ deviceId, (deviceId ∈ (send.repairOf state).staleDeviceIds ∨
          deviceId ∈ (send.repairOf state).missingDeviceIds) ∧
        message = send.renewedOf state restarts deviceId := by
  have hnames := repairOf_names hdone hsound.posts
  have hown (deviceId : ℕ) (hready : deviceId ∈ (send.repairOf state).staleDeviceIds ∨
      deviceId ∈ (send.repairOf state).missingDeviceIds) : send.account.own ≠ some deviceId :=
    send.account.own_left_out _ (hready.elim (hnames.stale _) (hnames.missing _))
  rw [mem_messagesOf, mem_messagesOf, hrepaired.stored, mem_append, mem_filter, mem_map]
  simp only [mem_append, not_or, decide_eq_true_eq]
  constructor
  · rintro ⟨⟨hstored, hstays⟩ | ⟨deviceId, hready, rfl⟩, hother⟩
    · exact .inl ⟨⟨hstored, hother⟩, hstays⟩
    · exact .inr ⟨deviceId, hready, rfl⟩
  · rintro (⟨⟨hstored, hother⟩, hstays⟩ | ⟨deviceId, hready, rfl⟩)
    · exact ⟨.inl ⟨hstored, hstays⟩, hother⟩
    · exact ⟨.inr ⟨deviceId, hready, rfl⟩, hown deviceId hready⟩

theorem next_addresses : Addresses send.account (send.messagesOf next) := by
  have hnames := repairOf_names hdone hsound.posts
  have hnext := mem_next hdone hsound hrepaired
  intro deviceId
  obtain ⟨hmiss, hextra, -⟩ := mem_repair_of_pass hdone hsound.posts state.unposted deviceId
  constructor
  · intro hmem
    obtain ⟨message, hmsg, rfl⟩ := mem_map.mp hmem
    rcases (hnext message).mp hmsg with ⟨hold, hstays, -⟩ | ⟨other, hready, rfl⟩
    · by_contra hother
      exact hstays (hextra.mpr ⟨mem_map_of_mem hold, hother⟩)
    · exact hready.elim (hnames.stale _) (hnames.missing _)
  · intro hreg
    have hrenewed (hready : deviceId ∈ (send.repairOf state).staleDeviceIds ∨
        deviceId ∈ (send.repairOf state).missingDeviceIds) :
        deviceId ∈ deviceIdsOf (send.messagesOf next) :=
      mem_map.mpr ⟨_, (hnext _).mpr (.inr ⟨deviceId, hready, rfl⟩), rfl⟩
    by_cases hheld : deviceId ∈ deviceIdsOf (send.messagesOf state)
    · by_cases hstale : deviceId ∈ (send.repairOf state).staleDeviceIds
      · exact hrenewed (.inl hstale)
      · obtain ⟨message, hmsg, rfl⟩ := mem_map.mp hheld
        exact mem_map_of_mem ((hnext message).mpr
          (.inl ⟨hmsg, fun hleaves => (hextra.mp hleaves).2 hreg, hstale⟩))
    · exact hrenewed (.inr (hmiss.mpr ⟨hreg, hheld⟩))

theorem next_sound (hdevs : send.account.registrations.keys ≠ []) : send.Sound next :=
  { hrepaired with
    posts hnone := by
      obtain ⟨deviceId, hreg⟩ := exists_mem_of_ne_nil _ hdevs
      have hmem := (next_addresses hdone hsound hrepaired deviceId).mpr hreg
      rw [hnone] at hmem
      cases hmem }

end

def Recent (send : DeclaredSend) (state : PhaseState) : Prop :=
  ∀ message ∈ send.messagesOf state, ¬ message.IsCurrent send.account →
    state.devices.getRemoteRegistrationId message.recipientDeviceId =
      message.recipientRegistrationId

section

variable {state next : PhaseState} {restarts : ℕ} (hdone : send.settled = [])
variable (hsound : send.Sound state) (hrepaired : send.Repaired state next restarts)
variable (haddrs : Addresses send.account (send.messagesOf state))

include hdone hsound hrepaired haddrs

theorem next_cases {message : DeclaredMessage} (hmsg : message ∈ send.messagesOf next) :
    message.IsCurrent send.account ∨ ∃ old ∈ send.messagesOf state,
      ¬ old.IsCurrent send.account ∧ old.recipientDeviceId ∈ (send.repairOf state).staleDeviceIds ∧
        old.recipientDeviceId ∉ (send.repairOf state).missingDeviceIds ∧
          message = send.renewedOf state restarts old.recipientDeviceId := by
  have hnames := repairOf_names hdone hsound.posts
  rcases (mem_next hdone hsound hrepaired message).mp hmsg with
    ⟨hold, -, hstays⟩ | ⟨deviceId, hready, rfl⟩
  · refine .inl (not_not.mp fun hother => hstays ?_)
    exact (mem_repair_of_pass hdone hsound.posts state.unposted _).2.2.mpr
      ⟨haddrs, message, hold, rfl, hother⟩
  · obtain ⟨hmiss, -, hstale⟩ := mem_repair_of_pass hdone hsound.posts state.unposted deviceId
    rcases hready with hready | hready
    · obtain ⟨-, old, hold, rfl, hother⟩ := hstale.mp hready
      exact .inr ⟨old, hold, hother, hready, fun hboth => hnames.apart _ hboth hready, rfl⟩
    · obtain ⟨hreg, hheld⟩ := hmiss.mp hready
      exact absurd ((haddrs deviceId).mpr hreg) hheld

theorem next_recent : send.Recent next := by
  intro message hmsg hother
  rcases next_cases hdone hsound hrepaired haddrs hmsg with
    hcur | ⟨old, hold, -, -, -, rfl⟩
  · exact absurd hcur hother
  · have hreg := (haddrs _).mp (mem_map_of_mem hold)
    rw [renewedOf, renewed, LocalDevices.getRemoteRegistrationId, hrepaired.sessions _ hreg]

/-- A message that was encrypted under the session of its stale device is encrypted under a new
session. -/
theorem next_current (hrecent : send.Recent state) {message : DeclaredMessage}
    (hmsg : message ∈ send.messagesOf next) : message.IsCurrent send.account := by
  rcases next_cases hdone hsound hrepaired haddrs hmsg with
    hcur | ⟨old, hold, hother, hstale, hmiss, rfl⟩
  · exact hcur
  have hposted : postedRegistration (send.messagesOf state) old.recipientDeviceId =
      old.recipientRegistrationId := by
    rw [postedRegistration, find_message (messagesOf_nodup hsound.nodup) hold, Option.bind_some]
  have hsess : repairedSession send.account (postedRegistration (send.messagesOf state))
      state.devices (send.repairOf state) old.recipientDeviceId =
        bundleSession send.account old.recipientDeviceId := by
    rw [repairedSession, if_neg hmiss, if_pos hstale, refreshedSession, if_neg]
    rw [isRefreshed, hposted, hrecent old hold hother]
    simp
  intro named hnamed
  rw [renewedOf, renewed, hsess, bundleSession] at hnamed
  obtain ⟨session, hnew, hreg⟩ := Option.bind_eq_some_iff.mp hnamed
  obtain ⟨registration, hheld, rfl⟩ := Option.map_eq_some_iff.mp hnew
  rw [renewedOf, renewed, hheld, ← hreg]

end

/-! ## Passes -/

structure Converged (send : DeclaredSend) (posted : List DeclaredMessage) : Prop where
  once : (deviceIdsOf posted).Nodup
  addresses : Addresses send.account posted
  current : ∀ message ∈ posted, message.IsCurrent send.account

variable {state : PhaseState}

theorem pass_nil (hdone : send.settled = []) (hsound : send.Sound state)
    (haddrs : Addresses send.account (send.messagesOf state))
    (hcur : ∀ message ∈ send.messagesOf state, message.IsCurrent send.account) :
    send.pass (send.messagesOf state) state.unposted = [] := by
  simp only [pass, if_neg hsound.posts, posts, hdone, not_mem_nil, not_false_eq_true,
    decide_true, filter_true]
  refine filterMap_eq_nil_iff.mpr fun message hmsg => ?_
  exact (answer_addresses haddrs message).mpr (hcur message hmsg)

theorem runPasses_accepted (hdone : send.settled = []) (hsound : send.Sound state) (left : ℕ)
    (hpass : send.pass (send.messagesOf state) state.unposted = []) :
    send.runPasses left state =
      .accepted (send.messagesOf state) (deviceSetRestartsMaximum - left) := by
  rw [messagesOf] at hpass
  rw [runPasses, if_neg fun hnone => hsound.posts hnone.1]
  simp [hpass, posts, hdone, messagesOf]

theorem runPasses_repaired {next : PhaseState} (hsound : send.Sound state) (left : ℕ)
    (hpass : send.pass (send.messagesOf state) state.unposted ≠ [])
    (hrepair : send.repair state (deviceSetRestartsMaximum - left)
      (send.pass (send.messagesOf state) state.unposted) = .ok next) :
    send.runPasses (left + 1) state = send.runPasses left next := by
  obtain ⟨refusal, refusals, hrefusals⟩ := exists_cons_of_ne_nil hpass
  rw [hrefusals] at hrepair
  rw [messagesOf] at hrefusals
  rw [runPasses, if_neg fun hnone => hsound.posts hnone.1]
  simp only [hrefusals, hrepair]

theorem converged_of_pass (hdone : send.settled = [])
    (hsound : send.Sound state) (hpass : send.pass (send.messagesOf state) state.unposted = []) :
    send.Converged (send.messagesOf state) := by
  have hmem := mem_repair_of_pass hdone hsound.posts state.unposted
  simp only [hpass, mergeDeviceSetRefusals, mem_sorted, flatMap_nil, filter_nil,
    not_mem_nil, false_iff, not_and, not_not] at hmem
  have haddrs : Addresses send.account (send.messagesOf state) :=
    fun deviceId => ⟨(hmem deviceId).2.1, (hmem deviceId).1⟩
  refine ⟨messagesOf_nodup hsound.nodup, haddrs, fun message hmsg => ?_⟩
  by_contra hother
  exact (hmem _).2.2 haddrs ⟨message, hmsg, rfl, hother⟩

def Converges (send : DeclaredSend) (left : ℕ) (phaseEnd : PhaseEnd) : Prop :=
  ∃ posted restarts, phaseEnd = .accepted posted restarts ∧
    restarts ≤ deviceSetRestartsMaximum - left ∧ send.Converged posted

/-- One pass: it is the last one, or its repair leads to the state that `hnext` is about. -/
theorem converges_step (hdone : send.settled = [])
    (hsound : send.Sound state) {bound left : ℕ} (hbound : bound ≤ left)
    (hnext : ∀ next restarts, send.Repaired state next restarts →
      send.Converges bound (send.runPasses left next)) :
    send.Converges bound (send.runPasses (left + 1) state) := by
  by_cases hpass : send.pass (send.messagesOf state) state.unposted = []
  · refine ⟨_, _, runPasses_accepted hdone hsound (left + 1) hpass, ?_,
      converged_of_pass hdone hsound hpass⟩
    exact Nat.sub_le_sub_left (Nat.le_succ_of_le hbound) _
  · obtain ⟨next, hrepair, hrepaired⟩ :=
      repair_ok hdone hsound (deviceSetRestartsMaximum - left)
    rw [runPasses_repaired hsound left hpass hrepair]
    exact hnext next _ hrepaired

section

variable (hdone : send.settled = []) (hdevs : send.account.registrations.keys ≠ [])

include hdone

variable {state : PhaseState}

theorem converges_current (hsound : send.Sound state)
    (haddrs : Addresses send.account (send.messagesOf state))
    (hcur : ∀ message ∈ send.messagesOf state, message.IsCurrent send.account) (left : ℕ) :
    send.Converges left (send.runPasses left state) :=
  ⟨_, _, runPasses_accepted hdone hsound left (pass_nil hdone hsound haddrs hcur),
    le_rfl, messagesOf_nodup hsound.nodup, haddrs, hcur⟩

include hdevs

theorem converges_recent (hsound : send.Sound state)
    (haddrs : Addresses send.account (send.messagesOf state)) (hrecent : send.Recent state)
    (left : ℕ) : send.Converges left (send.runPasses (left + 1) state) :=
  converges_step hdone hsound le_rfl fun _ _ hrepaired =>
    converges_current hdone (next_sound hdone hsound hrepaired hdevs)
      (next_addresses hdone hsound hrepaired)
      (fun _ => next_current hdone hsound hrepaired haddrs hrecent) left

theorem converges_addresses (hsound : send.Sound state)
    (haddrs : Addresses send.account (send.messagesOf state)) (left : ℕ) :
    send.Converges left (send.runPasses (left + 2) state) :=
  converges_step hdone hsound (Nat.le_succ left) fun _ _ hrepaired =>
    converges_recent hdone hdevs (next_sound hdone hsound hrepaired hdevs)
      (next_addresses hdone hsound hrepaired)
      (next_recent hdone hsound hrepaired haddrs) left

theorem converges (hsound : send.Sound state) (left : ℕ) :
    send.Converges left (send.runPasses (left + 3) state) :=
  converges_step hdone hsound (Nat.le_add_right left 2) fun _ _ hrepaired =>
    converges_addresses hdone hdevs (next_sound hdone hsound hrepaired hdevs)
      (next_addresses hdone hsound hrepaired) left

end

end DeclaredSend

/-- A phase with no settled destination and with sessions that can send ends after three repairs at
most, and its last pass posts one message to each registered device, under its registration. -/
theorem declared_phase_converges (account : RelayAccount) (encrypt : ℕ → ℕ → String)
    (intent : DeclaredIntent) (devices : LocalDevices)
    (hregistered : account.registrations.keys ≠ []) (hrestarts : intent.restarts = 0)
    (hrefused : intent.refused = []) (haccepted : intent.accepted = [])
    (hposts : ∃ message ∈ intent.deviceMessages, account.own ≠ some message.recipientDeviceId)
    (hsends : devices.CanSend account) :
    ∃ posted restarts,
      runDeclaredPhase account encrypt intent devices = .accepted posted restarts ∧
        restarts ≤ 3 ∧ (deviceIdsOf posted).Nodup ∧ Addresses account posted ∧
          ∀ message ∈ posted, message.IsCurrent account := by
  obtain ⟨message, hmessage, hother⟩ := hposts
  have hsound : DeclaredSend.Sound ⟨account, [], encrypt⟩
      ⟨intent.deviceMessages, intent.bundleMissing, devices⟩ := by
    refine ⟨ne_nil_of_mem (a := message) ?_, intent.nodup, hsends⟩
    exact DeclaredSend.mem_messagesOf.mpr ⟨hmessage, hother⟩
  obtain ⟨posted, restarts, hrun, hbound, honce, haddrs, hcurrent⟩ :=
    DeclaredSend.converges rfl hregistered hsound 7
  refine ⟨posted, restarts, ?_, hbound, honce, haddrs, hcurrent⟩
  rw [runDeclaredPhase, hrestarts, hrefused, haccepted]
  exact hrun

def plainCiphertext (restarts deviceId : ℕ) : String := toString restarts ++ toString deviceId

def oneDevice : RelayAccount :=
  ⟨(∅ : OrderedMap ℕ ℕ).set 1 7, none, fun _ _ => nofun⟩

def twoDevices : RelayAccount :=
  ⟨((∅ : OrderedMap ℕ ℕ).set 1 7).set 2 8, none, fun _ _ => nofun⟩

/-- The account of the sender, whose device is device 2. -/
def ownAccount : RelayAccount where
  registrations := (∅ : OrderedMap ℕ ℕ).set 1 7
  own := some 2
  own_left_out := by decide

/-- A phase that removes one device, refreshes a message of device 1 twice, and ends. -/
def refreshedIntent : DeclaredIntent where
  deviceMessages := [⟨1, some 5, "first"⟩, ⟨3, none, "third"⟩]
  nodup := by decide

def refreshedDevices : LocalDevices where
  sessions := Function.update (fun _ => none) 1 (some ⟨some 6, true⟩)
  listed := [1, 3]

theorem declared_phase_converges_oneDevice :
    ∃ posted restarts,
      runDeclaredPhase oneDevice plainCiphertext refreshedIntent refreshedDevices =
          .accepted posted restarts ∧
        restarts ≤ 3 ∧ (deviceIdsOf posted).Nodup ∧ Addresses oneDevice posted ∧
          ∀ message ∈ posted, message.IsCurrent oneDevice := by
  refine declared_phase_converges oneDevice plainCiphertext refreshedIntent refreshedDevices
    (by decide) rfl rfl rfl ⟨_, mem_cons_self, nofun⟩ ?_
  intro deviceId hregistered
  obtain rfl : deviceId = 1 := mem_singleton.mp hregistered
  exact ⟨not_mem_nil, fun session hsession => by cases hsession; rfl⟩

example : runDeclaredPhase oneDevice plainCiphertext refreshedIntent refreshedDevices =
    .accepted [⟨1, some 7, "31"⟩] 3 := by
  decide +kernel

def otherDeviceIntent : DeclaredIntent where
  deviceMessages := [⟨2, none, "second"⟩]
  nodup := by decide

def agedDevices : LocalDevices where
  sessions := Function.update (fun _ => none) 1 (some ⟨some 7, false⟩)
  listed := [1, 2]

/-- The message of device 1 was accepted before device 2 was registered. -/
def acceptedIntent : DeclaredIntent where
  deviceMessages := [⟨1, some 7, "first"⟩]
  nodup := by decide
  accepted := [1]

/-- A session that is too old to send on ends the send with its error. -/
theorem declared_phase_ends_early :
    (¬ ∀ (account : RelayAccount) (encrypt : ℕ → ℕ → String) (intent : DeclaredIntent)
      (devices : LocalDevices), account.registrations.keys ≠ [] → intent.deviceMessages ≠ [] →
        intent.restarts = 0 → intent.refused = [] → ∃ posted restarts,
          runDeclaredPhase account encrypt intent devices = .accepted posted restarts ∧
            restarts < deviceSetRestartsMaximum ∧ Addresses account posted) ∧
      runDeclaredPhase twoDevices plainCiphertext acceptedIntent refreshedDevices = .accepted [] 0 ∧
      runDeclaredPhase ownAccount plainCiphertext otherDeviceIntent refreshedDevices =
        .accepted [] 0 := by
  refine ⟨fun hends => ?_, by decide +kernel, by decide +kernel⟩
  have haged : runDeclaredPhase oneDevice plainCiphertext otherDeviceIntent agedDevices =
      .failed (.sessionTooOld 1) := by decide +kernel
  obtain ⟨posted, restarts, hrun, -⟩ :=
    hends oneDevice plainCiphertext otherDeviceIntent agedDevices (by decide) nofun rfl rfl
  rw [haged] at hrun
  cases hrun

end SignalProtocol.Outbox

import SignalProtocol.Proof.SendLogTables

/-! # Steps of the stores with tables

One lemma for each call that writes, over both stores where they write alike, and the step of each
store from them. -/

namespace SignalProtocol.SendLog

open Listing OrderedMap Option

namespace Send

theorem completed_settled_of_none {send : Send} (hnone : ∀ device, send.rows device = none) :
    send.completed.settled = none :=
  if_pos ⟨rfl, hnone⟩

theorem completed_settled_of_row {send : Send} {device : SendLogDevice} {responses : ℕ}
    (hrow : send.rows device = some responses) : send.completed.settled = some send.completed := by
  refine if_neg fun hfin => ?_
  have hnone : send.rows device = none := hfin.2 device
  rw [hnone] at hrow
  cases hrow

end Send

namespace TablesShow

variable {tables : Tables} {log : Log} (hshow : TablesShow tables log)
variable (id : String)
  (clientTimestamp : ℕ)

include hshow

/-! ## Sends -/

/-- The tables of a stored send, however its rows were put. -/
theorem started {changed : Tables} (payload : SendLogPayload) (devices : List SendLogDevice)
    (hpayloads : ∀ id, changed.payloads.get? id =
      if id = payload.clientMessageId then some payload else tables.payloads.get? id)
    (hrecips : ∀ id device, changed.recipients.get? (id, device) =
      if id = payload.clientMessageId then
        if device ∈ devices then
          some (newRow payload.clientMessageId payload.clientTimestamp device)
        else none
      else tables.recipients.get? (id, device)) (hjobs : changed.resendJobs = tables.resendJobs) :
    TablesShow changed (log.setSend payload.clientMessageId (some (Send.started payload devices))) := by
  refine hshow.of_send hpayloads ?_ hjobs
  intro id device
  rw [hrecips]
  congr 1
  by_cases hdev : device ∈ devices <;> simp [Send.started, Send.recipient, newRow, hdev]

omit hshow in
theorem get?_deleteRowsOf (id other : String) (device : SendLogDevice) :
    (tables.deleteRowsOf id).recipients.get? (other, device) =
      if other = id then none else tables.recipients.get? (other, device) := by
  refine (get?_filterKeys ..).trans ?_
  by_cases hother : other = id <;> simp [hother]

omit hshow in
theorem get?_foldl_putRow (devices : List SendLogDevice)
    (tables : Tables) (other : String) (device : SendLogDevice) :
    (devices.foldl (fun tables device =>
        tables.putRow (newRow id clientTimestamp device)) tables).recipients.get? (other, device) =
      if other = id ∧ device ∈ devices then some (newRow id clientTimestamp device)
      else tables.recipients.get? (other, device) := by
  induction devices generalizing tables with
  | nil => simp
  | cons first devices ih =>
    have hput : (tables.putRow (newRow id clientTimestamp first)).recipients.get? (other, device) =
        if (other, device) = (id, first) then some (newRow id clientTimestamp first)
        else tables.recipients.get? (other, device) := get?_set ..
    rw [List.foldl_cons, ih, hput]
    by_cases hother : other = id
    · by_cases hfst : device = first
      · simp [hother, hfst]
      · simp [hother, hfst]
    · simp [hother]

omit hshow in
theorem foldl_putRow_tables (devices : List SendLogDevice) (tables : Tables) :
    (devices.foldl (fun tables device =>
        tables.putRow (newRow id clientTimestamp device)) tables).payloads = tables.payloads ∧
      (devices.foldl (fun tables device =>
        tables.putRow (newRow id clientTimestamp device)) tables).resendJobs =
          tables.resendJobs := by
  induction devices generalizing tables with
  | nil => exact ⟨rfl, rfl⟩
  | cons first devices ih =>
    have hnext := ih (tables.putRow (newRow id clientTimestamp first))
    exact ⟨hnext.1, hnext.2⟩

theorem storeRows (now : ℕ) (payload : NewSendLogPayload) (devices : List SendLogDevice) :
    TablesShow (devices.foldl (fun tables device =>
        tables.putRow (newRow payload.clientMessageId payload.clientTimestamp device))
        ((tables.deleteRowsOf payload.clientMessageId).putPayload (payload.stored now)))
      (log.setSend payload.clientMessageId
        (some (Send.started (payload.stored now) devices))) := by
  obtain ⟨hpayloads, hjobs⟩ := foldl_putRow_tables payload.clientMessageId payload.clientTimestamp
    devices ((tables.deleteRowsOf payload.clientMessageId).putPayload (payload.stored now))
  refine hshow.started (payload.stored now) devices ?_ ?_ hjobs
  · intro id
    rw [hpayloads]
    exact get?_set ..
  · intro id device
    have hbase : ((tables.deleteRowsOf payload.clientMessageId).putPayload
        (payload.stored now)).recipients.get? (id, device) =
          if id = payload.clientMessageId then none else tables.recipients.get? (id, device) :=
      get?_deleteRowsOf ..
    rw [get?_foldl_putRow, hbase]
    by_cases hid : id = payload.clientMessageId <;> simp [hid, NewSendLogPayload.stored]

theorem storeMissing (now : ℕ) (payload : NewSendLogPayload) (devices : List SendLogDevice) :
    TablesShow (((tables.deleteSendLogPayload payload.clientMessageId).putPayload
        (payload.stored now)).insertMissing payload.clientMessageId payload.clientTimestamp devices)
      (log.setSend payload.clientMessageId
        (some (Send.started (payload.stored now) devices))) := by
  obtain ⟨hpayloads, hjobs⟩ := insertMissing_tables payload.clientMessageId payload.clientTimestamp
    devices ((tables.deleteSendLogPayload payload.clientMessageId).putPayload (payload.stored now))
  refine hshow.started (payload.stored now) devices ?_ ?_ hjobs
  · intro id
    rw [hpayloads]
    refine (get?_set ..).trans ?_
    have hsame : (payload.stored now).clientMessageId = payload.clientMessageId := rfl
    rw [hsame]
    by_cases hid : id = payload.clientMessageId
    · rw [if_pos hid, if_pos hid]
    · rw [if_neg hid, if_neg hid]
      exact (get?_erase ..).trans (if_neg hid)
  · intro id device
    have hbase : ((tables.deleteSendLogPayload payload.clientMessageId).putPayload
        (payload.stored now)).recipients.get? (id, device) =
          if id = payload.clientMessageId then none else tables.recipients.get? (id, device) :=
      get?_deleteRowsOf ..
    rw [get?_insertMissing, hbase]
    by_cases hid : id = payload.clientMessageId <;> simp [hid, NewSendLogPayload.stored]

theorem putJob {job : SendLogResendJob} :
    TablesShow (tables.putJob job) (log.setJob job.jobId (some job)) :=
  { hshow with
    jobs jobId := by
      refine (get?_set ..).trans ?_
      by_cases hid : jobId = job.jobId
      · subst hid
        rw [if_pos rfl, Log.setJob_self]
      · rw [if_neg hid, Log.setJob_of_ne _ _ hid, hshow.jobs] }

theorem completeSend {id : String} {send : Send} (hlog : log.Sound)
    (hsend : log.sends id = some send) :
    TablesShow (if (tables.rowsOf id).size = 0 then tables.deletePayload id
        else tables.putPayload { send.payload with sendComplete := true })
      (log.setSend id send.completed.settled) := by
  have hrecips : ∀ device, tables.recipients.get? (id, device) =
      (send.rows device).map (send.recipient device) := by
    intro device
    rw [hshow.recipients, hsend]
    rfl
  split
  case isTrue hsize =>
    have hnone : ∀ device, send.rows device = none := fun device =>
      hshow.rowsOf_size.mp hsize device send hsend
    rw [Send.completed_settled_of_none hnone]
    refine hshow.of_send ?_ ?_ rfl
    · intro other
      exact get?_erase ..
    · intro other device
      by_cases hother : other = id
      · rw [if_pos hother, hother]
        refine (hrecips device).trans ?_
        rw [hnone]
        rfl
      · rw [if_neg hother]
        rfl
  case isFalse hsize =>
    have hrow : ∃ device responses, send.rows device = some responses := by
      by_contra hrow
      apply hsize
      refine hshow.rowsOf_size.mpr fun device other hother => ?_
      obtain rfl : send = other := some_injective _ (hsend.symm.trans hother)
      exact eq_none_iff_forall_ne_some.mpr fun responses hwaits =>
        hrow ⟨device, responses, hwaits⟩
    obtain ⟨device, responses, hrow⟩ := hrow
    rw [Send.completed_settled_of_row hrow]
    exact hshow.putSend send.completed (hlog.id id send hsend) hrecips

end TablesShow

theorem indexedDbStep_shows {tables : Tables} {log : Log} (hlog : log.Sound)
    (hshow : TablesShow tables log) (now : ℕ) (call : Call) :
    log.Gives codeUnits now call (indexedDbStep tables now call).1 ∧
      TablesShow (indexedDbStep tables now call).2 (log.after now call) := by
  cases call with
  | storeSendLogEntry payload recipients =>
    refine ⟨rfl, ?_⟩
    rw [Log.after_store]
    exact hshow.storeRows now payload recipients
  | appendSendLogRecipients id recipients =>
    rw [Log.after_append]
    simp only [indexedDbStep, hshow.payloads]
    cases hsend : log.sends id with
    | none => exact ⟨rfl, hshow.of_eq (Log.setSend_of_eq hsend).symm⟩
    | some send => exact ⟨rfl, hshow.append (hlog.id id send hsend) hsend recipients⟩
  | markSendLogComplete id =>
    rw [Log.after_complete]
    simp only [indexedDbStep, hshow.payloads]
    cases hsend : log.sends id with
    | none => exact ⟨rfl, hshow.of_eq (Log.setSend_of_eq hsend).symm⟩
    | some send =>
      have hcompl := hshow.completeSend hlog hsend
      dsimp only [map_some]
      split
      case isTrue hsize =>
        rw [if_pos hsize] at hcompl
        exact ⟨rfl, hcompl⟩
      case isFalse hsize =>
        rw [if_neg hsize] at hcompl
        exact ⟨rfl, hcompl⟩
  | getSendLogEntry id recipient =>
    refine ⟨?_, hshow⟩
    simp only [Log.Gives, indexedDbStep, hshow.payloads, hshow.recipients]
    cases hsend : log.sends id with
    | none => rfl
    | some send =>
      cases hrow : send.rows recipient <;> simp [hrow, Send.entry]
  | findSendLogEntries recipient clientTimestamp =>
    exact ⟨⟨_, rfl, hshow.entries_listing hlog codeUnits_injective recipient clientTimestamp⟩,
      hshow⟩
  | getSendLogRecipients id =>
    exact ⟨⟨_, rfl, hshow.rows_listing hlog codeUnits_injective id⟩, hshow⟩
  | deleteSendLogRecipient id recipient =>
    rw [Log.after_confirm]
    have hhas : tables.recipients.has (id, recipient) =
        (log.sends id).any fun send => (send.rows recipient).isSome := by
      rw [OrderedMap.has, hshow.recipients]
      cases log.sends id <;> simp
    simp only [Log.Gives, indexedDbStep, hhas]
    cases hsend : log.sends id with
    | none => exact ⟨rfl, hshow.of_eq (Log.setSend_of_eq hsend).symm⟩
    | some send =>
      rw [any_some, bind_some]
      cases hrow : (send.rows recipient).isSome with
      | false =>
        have hnone : send.rows recipient = none := by simpa using hrow
        refine ⟨rfl, hshow.of_eq ?_⟩
        rw [Send.confirmed_of_none hnone]
        exact (Log.setSend_of_eq hsend).symm
      | true => exact ⟨rfl, hshow.confirm hsend hrow⟩
  | deleteSendLogRecipientsByTimestamp recipient clientTimestamps =>
    exact hshow.deleteRecipientsByTimestamp hlog now recipient clientTimestamps
  | incrementSendLogResendCount id recipient =>
    rw [Log.after_counted]
    simp only [Log.Gives, indexedDbStep, hshow.recipients]
    cases hsend : log.sends id with
    | none => exact ⟨rfl, hshow.of_eq (Log.setSend_of_eq hsend).symm⟩
    | some send =>
      cases hrow : send.rows recipient with
      | none =>
        simp only [bind_some, map_none, hrow]
        refine ⟨trivial, hshow.of_eq ?_⟩
        rw [map_some, Send.counted_of_none hrow]
        exact (Log.setSend_of_eq hsend).symm
      | some responses =>
        simp only [bind_some, map_some, hrow]
        exact ⟨rfl, hshow.putRow (hlog.id id send hsend) ⟨hsend, hrow⟩⟩
  | deleteSendLogEntry id =>
    rw [Log.after_deleted]
    refine ⟨?_, hshow.deleteSend id⟩
    simp [Log.Gives, indexedDbStep, OrderedMap.has, hshow.payloads]
  | deleteExpiredSendLog maxAgeMs =>
    exact ⟨⟨_, rfl, hshow.countOld now maxAgeMs⟩, hshow.deleteOld now maxAgeMs⟩
  | clearSendLog => exact ⟨⟨_, rfl, hshow.size_payloads⟩, TablesShow.empty⟩
  | storeResendJob job =>
    refine ⟨rfl, ?_⟩
    rw [Log.after_storeJob]
    simp only [indexedDbStep, hshow.jobs]
    exact hshow.putJob
  | getResendJob jobId =>
    refine ⟨?_, hshow⟩
    simp only [Log.Gives, indexedDbStep, hshow.jobs]
  | getPendingResendJobs => exact ⟨⟨_, rfl, hlog.jobs_listing hshow.jobs codeUnits_injective⟩, hshow⟩
  | completeResendJob jobId state =>
    rw [Log.after_completeJob]
    simp only [indexedDbStep, hshow.jobs]
    cases hjob : log.jobs jobId with
    | none => exact ⟨rfl, hshow.of_eq (Log.setJob_of_eq hjob).symm⟩
    | some job =>
      have hid : job.jobId = jobId := hlog.job jobId job hjob
      subst hid
      exact ⟨rfl, hshow.putJob⟩

theorem sqliteStep_shows {tables : Tables} {log : Log} (hlog : log.Sound)
    (hshow : TablesShow tables log) (now : ℕ) (call : Call) :
    log.Gives codePoints now call (sqliteStep tables now call).1 ∧
      TablesShow (sqliteStep tables now call).2 (log.after now call) := by
  -- Where SQLite runs what IndexedDB runs, the step is the same.
  have hsame := indexedDbStep_shows hlog hshow now
  cases call with
  | storeSendLogEntry payload recipients =>
    refine ⟨rfl, ?_⟩
    rw [Log.after_store]
    exact hshow.storeMissing now payload recipients
  | appendSendLogRecipients id recipients => exact hsame (.appendSendLogRecipients id recipients)
  | markSendLogComplete id =>
    rw [Log.after_complete]
    simp only [sqliteStep, hshow.payloads]
    cases hsend : log.sends id with
    | none => exact ⟨rfl, hshow.of_eq (Log.setSend_of_eq hsend).symm⟩
    | some send =>
      have hput : TablesShow (tables.setSendLogComplete send.payload)
          (log.setSend id (some send.completed)) := by
        refine hshow.putSend send.completed (hlog.id id send hsend) fun device => ?_
        rw [hshow.recipients, hsend]
        rfl
      have hdeleted := hput.deleteIfFinished (Log.setSend_self ..)
      rw [Log.setSend_setSend] at hdeleted
      exact ⟨rfl, hdeleted⟩
  | getSendLogEntry id recipient =>
    refine ⟨?_, hshow⟩
    simp only [Log.Gives, sqliteStep, hshow.recipients]
    cases hsend : log.sends id with
    | none => rfl
    | some send =>
      cases hrow : send.rows recipient with
      | none => simp [hrow, Tables.join]
      | some responses =>
        have hid : send.payload.clientMessageId = id := hlog.id id send hsend
        simp [hrow, Tables.join, Send.recipient, Send.entry, hid, hshow.payloads, hsend]
  | findSendLogEntries recipient clientTimestamp =>
    exact ⟨⟨_, rfl, hshow.entries_listing hlog codePoints_injective recipient clientTimestamp⟩,
      hshow⟩
  | getSendLogRecipients id =>
    exact ⟨⟨_, rfl, hshow.rows_listing hlog codePoints_injective id⟩, hshow⟩
  | deleteSendLogRecipient id recipient => exact hsame (.deleteSendLogRecipient id recipient)
  | deleteSendLogRecipientsByTimestamp recipient clientTimestamps =>
    have hrows := (TablesShow.deleteByTimestamps recipient clientTimestamps.dedup hlog hshow 0).1
    simp only [sqliteStep, hrows]
    exact hsame (.deleteSendLogRecipientsByTimestamp recipient clientTimestamps)
  | incrementSendLogResendCount id recipient =>
    have hindexed := hsame (.incrementSendLogResendCount id recipient)
    simp only [indexedDbStep] at hindexed
    simp only [sqliteStep]
    cases hrow : tables.recipients.get? (id, recipient) with
    | none =>
      simp only [hrow] at hindexed
      exact hindexed
    | some row =>
      simp only [hrow] at hindexed
      obtain ⟨send, responses, hwaits, rfl⟩ := hshow.row_iff.mp hrow
      have hid : send.payload.clientMessageId = id := hlog.id id send hwaits.1
      have hget : (tables.putRow (send.recipient recipient (responses + 1))).recipients.get?
          (id, recipient) = some (send.recipient recipient (responses + 1)) := by
        rw [← hid]
        exact get?_set_self ..
      refine ⟨?_, hindexed.2⟩
      change log.Gives codePoints now _ (.responses (Option.map _
        ((tables.putRow (send.recipient recipient (responses + 1))).recipients.get?
          (id, recipient))))
      rw [hget]
      exact hindexed.1
  | deleteSendLogEntry id => exact hsame (.deleteSendLogEntry id)
  | deleteExpiredSendLog maxAgeMs => exact hsame (.deleteExpiredSendLog maxAgeMs)
  | clearSendLog => exact hsame .clearSendLog
  | storeResendJob job =>
    have hindexed := hsame (.storeResendJob job)
    simp only [indexedDbStep] at hindexed
    simp only [sqliteStep]
    cases hjob : tables.resendJobs.get? job.jobId with
    | none =>
      rw [hjob] at hindexed
      exact hindexed
    | some existing =>
      rw [hjob] at hindexed
      exact hindexed
  | getResendJob jobId => exact hsame (.getResendJob jobId)
  | getPendingResendJobs => exact ⟨⟨_, rfl, hlog.jobs_listing hshow.jobs codePoints_injective⟩, hshow⟩
  | completeResendJob jobId state => exact hsame (.completeResendJob jobId state)

end SignalProtocol.SendLog

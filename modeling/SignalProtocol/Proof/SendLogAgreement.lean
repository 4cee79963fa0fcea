import SignalProtocol.Proof.SendLogBackend
import SignalProtocol.Proof.SendLogMemory

/-! # Steps of the key-value store

A read goes through the keys of the backend, and what it finds there is what the log holds. -/

namespace SignalProtocol.SendLog

open Listing List
open KeyValue

variable {now : ℕ} {maxAgeMs : ℤ}

namespace BackendShows

variable {backend : Backend} {log : Log} (hshow : BackendShows backend log)
include hshow

theorem entryOf (id : String) (device : SendLogDevice) (hlog : log.Sound) :
    backend.entryOf id device = (log.sends id).bind fun send =>
      (send.rows device).map (send.entry device) := by
  unfold Backend.entryOf
  rw [hshow.readPayload]
  cases hsend : log.sends id with
  | none => rfl
  | some send =>
    simp only [Option.map_some, Option.bind_eq_bind, Option.bind_some, hshow.readCount, hsend,
      if_true]
    have hid : send.payload.clientMessageId = id := hlog.id id send hsend
    cases hrow : send.rows device with
    | none => rfl
    | some responses => simp [Send.entry, Send.recipient, hid]

theorem deviceRows_pairwise (device : SendLogDevice) (clientTimestamp : ℕ) :
    (deviceRows backend.keys device clientTimestamp).Pairwise fun first second =>
      first.clientMessageId ≠ second.clientMessageId := by
  have hsublist : List.Sublist (deviceRows backend.keys device clientTimestamp)
      (backend.keys.filterMap parseRowKey) := filter_sublist.filterMap parseRowKey
  refine (hshow.parsed_pairwise.sublist hsublist).imp_of_mem ?_
  intro row other hrow hother hne heq
  obtain ⟨id, _, _, _, _, rfl⟩ := hshow.mem_deviceRows.mp hrow
  obtain ⟨name, _, _, _, _, rfl⟩ := hshow.mem_deviceRows.mp hother
  obtain rfl : id = name := heq
  exact hne rfl

theorem entries_listing (hlog : log.Sound) (device : SendLogDevice) (clientTimestamp : ℕ) :
    IsListing (entryKey codeUnits) (fun entry => ∃ id send responses,
        log.Waits id send device responses ∧ send.payload.clientTimestamp = clientTimestamp ∧
          send.entry device responses = entry)
      (sortBy (entryKey codeUnits) ((deviceRows backend.keys device clientTimestamp).filterMap
        fun row => backend.entryOf row.clientMessageId device)) := by
  refine isListing_sortBy (fun _ _ => (entryKey_inj codeUnits_injective).mp) ?_ ?_
  · refine (hshow.deviceRows_pairwise device clientTimestamp).filterMap _ ?_
    intro row other hne entry hentry second hsnd heq
    rw [hshow.entryOf _ _ hlog] at hentry hsnd
    obtain ⟨send, hsend, hrow⟩ := Option.bind_eq_some_iff.mp hentry
    obtain ⟨held, hheld, hheldRow⟩ := Option.bind_eq_some_iff.mp hsnd
    obtain ⟨_, _, rfl⟩ := Option.map_eq_some_iff.mp hrow
    obtain ⟨_, _, rfl⟩ := Option.map_eq_some_iff.mp hheldRow
    exact hne ((hlog.id _ send hsend).symm.trans (heq.trans (hlog.id _ held hheld)))
  · intro entry
    rw [mem_filterMap]
    constructor
    · rintro ⟨row, hrow, hentry⟩
      obtain ⟨id, send, responses, hwaits, htime, rfl⟩ := hshow.mem_deviceRows.mp hrow
      rw [hshow.entryOf _ _ hlog] at hentry
      obtain ⟨held, hheld, hentry⟩ := Option.bind_eq_some_iff.mp hentry
      obtain rfl : send = held := Option.some_injective _ (hwaits.1.symm.trans hheld)
      obtain ⟨count, hcount, rfl⟩ := Option.map_eq_some_iff.mp hentry
      exact ⟨id, send, count, ⟨hwaits.1, hcount⟩, htime, rfl⟩
    · rintro ⟨id, send, responses, hwaits, rfl, rfl⟩
      refine ⟨_, hshow.mem_deviceRows.mpr ⟨id, send, responses, hwaits, rfl, rfl⟩, ?_⟩
      rw [hshow.entryOf _ _ hlog]
      change (log.sends id).bind _ = _
      rw [hwaits.1, Option.bind_some, hwaits.2]
      rfl

theorem rows_listing (hlog : log.Sound) (id : String) :
    IsListing (deviceKey codeUnits) (fun row => ∃ send device responses,
        log.Waits id send device responses ∧ send.recipient device responses = row)
      (sortBy (deviceKey codeUnits) ((rowKeysOf backend.keys id).filterMap fun row =>
        (backend.readCount row.key).map fun responses =>
          { clientMessageId := id
            device := row.device
            clientTimestamp := row.clientTimestamp
            responses })) := by
  have hcount : ∀ send device responses, log.Waits id send device responses →
      backend.readCount (recipientKey device send.payload.clientTimestamp id) = some responses := by
    rintro send device responses ⟨hsend, hrow⟩
    rw [hshow.readCount, hsend, Option.bind_some, if_pos rfl, hrow]
  refine isListing_sortBy (fun _ _ => (deviceKey_inj codeUnits_injective).mp) ?_ ?_
  · have hpairwise : (rowKeysOf backend.keys id).Pairwise fun first second =>
        first.device ≠ second.device := by
      refine (hshow.parsed_pairwise.filter _).imp_of_mem ?_
      intro row other hrow hother hne heq
      obtain ⟨send, device, _, ⟨hsend, _⟩, rfl⟩ := hshow.mem_rowKeysOf.mp hrow
      obtain ⟨held, holder, _, ⟨hheld, _⟩, rfl⟩ := hshow.mem_rowKeysOf.mp hother
      obtain rfl : send = held := Option.some_injective _ (hsend.symm.trans hheld)
      obtain rfl : device = holder := heq
      exact hne rfl
    refine hpairwise.filterMap _ ?_
    intro row other hne first hfst second hsnd heq
    obtain ⟨_, _, rfl⟩ := Option.map_eq_some_iff.mp hfst
    obtain ⟨_, _, rfl⟩ := Option.map_eq_some_iff.mp hsnd
    exact hne heq
  · intro row
    rw [mem_filterMap]
    constructor
    · rintro ⟨rowKey, hkey, hrow⟩
      obtain ⟨send, device, responses, hwaits, rfl⟩ := hshow.mem_rowKeysOf.mp hkey
      have hid : send.payload.clientMessageId = id := hlog.id id send hwaits.1
      have hread := hcount send device responses hwaits
      simp only [SendLogKey.rowKey, hread, Option.map_some, Option.some.injEq] at hrow
      refine ⟨send, device, responses, hwaits, ?_⟩
      rw [← hrow, Send.recipient, hid]
    · rintro ⟨send, device, responses, hwaits, rfl⟩
      have hid : send.payload.clientMessageId = id := hlog.id id send hwaits.1
      refine ⟨_, hshow.mem_rowKeysOf.mpr ⟨send, device, responses, hwaits, rfl⟩, ?_⟩
      simp only [SendLogKey.rowKey, hcount send device responses hwaits, Option.map_some,
        Send.recipient, hid]

theorem mem_jobs {job : SendLogResendJob} :
    job ∈ backend.jobs ↔ ∃ jobId, log.jobs jobId = some job := by
  rw [Backend.jobs, mem_filterMap]
  constructor
  · rintro ⟨text, htext, hjob⟩
    obtain ⟨hkeys, hstart⟩ := mem_filter.mp htext
    obtain ⟨key, _, rfl, _⟩ := hshow.mem_keys.mp hkeys
    obtain ⟨jobId, rfl⟩ := SendLogKey.eq_job ((SendLogKey.startsWith_start .job key).mp hstart)
    exact ⟨jobId, (hshow.readJob jobId).symm.trans hjob⟩
  · rintro ⟨jobId, hjob⟩
    refine ⟨resendJobKey jobId, mem_filter.mpr ⟨?_, ?_⟩, (hshow.readJob jobId).trans hjob⟩
    · exact hshow.mem_keys.mpr ⟨.job jobId, .job job, rfl, by simp [Log.stored, hjob]⟩
    · exact (SendLogKey.startsWith_start .job (.job jobId)).mpr rfl

theorem jobs_listing (hlog : log.Sound) :
    IsListing (jobKey codeUnits) (fun job => ∃ jobId, log.jobs jobId = some job ∧
        job.state = .pending)
      (sortBy (jobKey codeUnits)
        (backend.jobs.filter fun job => decide (job.state = .pending))) := by
  have hpairwise : backend.jobs.Pairwise fun first second => first.jobId ≠ second.jobId := by
    have hkeys : (backend.keys.filter (startsWith jobPrefix)).Pairwise (· ≠ ·) :=
      List.Pairwise.filter _ backend.keys_nodup
    refine (List.Pairwise.imp_of_mem ?_ hkeys).filterMap _ fun _ _ hne => hne
    intro text other htext hother hne job hjob second hsnd heq
    have hread : ∀ text ∈ backend.keys.filter (startsWith jobPrefix), ∀ job,
        backend.readJob text = some job → text = resendJobKey job.jobId := by
      intro text htext job hjob
      obtain ⟨hmem, hstart⟩ := mem_filter.mp htext
      obtain ⟨key, _, rfl, _⟩ := hshow.mem_keys.mp hmem
      obtain ⟨jobId, rfl⟩ := SendLogKey.eq_job ((SendLogKey.startsWith_start .job key).mp hstart)
      have hheld : log.jobs jobId = some job := (hshow.readJob jobId).symm.trans hjob
      rw [hlog.job jobId job hheld]
      rfl
    apply hne
    rw [hread text htext job hjob, hread other hother second hsnd, heq]
  refine isListing_sortBy (fun _ _ => jobKey_inj codeUnits_injective) (hpairwise.filter _) ?_
  intro job
  rw [mem_filter, hshow.mem_jobs, decide_eq_true_eq, ← exists_and_right]

/-! ## Deletes -/

theorem deleteRecipientsByTimestamp (hlog : log.Sound) (now : ℕ) (device : SendLogDevice)
    (clientTimestamps : List ℕ) :
    log.Gives codeUnits now (.deleteSendLogRecipientsByTimestamp device clientTimestamps)
        (backend.step now (.deleteSendLogRecipientsByTimestamp device clientTimestamps)).1 ∧
      BackendShows
        (backend.step now (.deleteSendLogRecipientsByTimestamp device clientTimestamps)).2
        (log.after now (.deleteSendLogRecipientsByTimestamp device clientTimestamps)) := by
  let rows := backend.rowsAt device clientTimestamps
  let ids := (rows.map (·.clientMessageId)).dedup
  let keys := (rows.map (·.key)).dedup
  have hrows : ∀ row, row ∈ rows ↔ ∃ id send responses, log.Waits id send device responses ∧
      send.payload.clientTimestamp ∈ clientTimestamps ∧
        SendLogKey.rowKey device send.payload.clientTimestamp id = row := by
    intro row
    simp only [rows, Backend.rowsAt, mem_flatMap, mem_dedup, hshow.mem_deviceRows]
    constructor
    · rintro ⟨_, htime, id, send, responses, hwaits, rfl, rfl⟩
      exact ⟨id, send, responses, hwaits, htime, rfl⟩
    · rintro ⟨id, send, responses, hwaits, htime, rfl⟩
      exact ⟨_, htime, id, send, responses, hwaits, rfl, rfl⟩
  have hids : ∀ id, id ∈ ids ↔ ∃ send responses, log.Waits id send device responses ∧
      send.payload.clientTimestamp ∈ clientTimestamps := by
    intro id
    simp only [ids, mem_dedup, mem_map, hrows]
    constructor
    · rintro ⟨_, ⟨other, send, responses, hwaits, htime, rfl⟩, rfl⟩
      exact ⟨send, responses, hwaits, htime⟩
    · rintro ⟨send, responses, hwaits, htime⟩
      exact ⟨_, ⟨id, send, responses, hwaits, htime, rfl⟩, rfl⟩
  have hkeys : ∀ text, text ∈ keys ↔ ∃ id ∈ ids, ∃ send, log.sends id = some send ∧
      (SendLogKey.recipient device send.payload.clientTimestamp id).text = text := by
    intro text
    simp only [keys, mem_dedup, mem_map, hrows]
    constructor
    · rintro ⟨_, ⟨id, send, responses, hwaits, htime, rfl⟩, rfl⟩
      exact ⟨id, (hids id).mpr ⟨send, responses, hwaits, htime⟩, send, hwaits.1,
        SendLogKey.text_recipient ..⟩
    · rintro ⟨id, hid, send, hsend, rfl⟩
      obtain ⟨held, responses, hwaits, htime⟩ := (hids id).mp hid
      obtain rfl : send = held := Option.some_injective _ (hsend.symm.trans hwaits.1)
      exact ⟨_, ⟨id, send, responses, hwaits, htime, rfl⟩, (SendLogKey.text_recipient ..).symm⟩
  have hwaits : ∀ id ∈ ids, ∃ send responses, log.Waits id send device responses := by
    intro id hid
    obtain ⟨send, responses, hwaits, _⟩ := (hids id).mp hid
    exact ⟨send, responses, hwaits⟩
  have hpayloads : ∀ payload, payload ∈ ids.filterMap backend.readPayload ↔ ∃ id ∈ ids, ∃ send,
      log.sends id = some send ∧ send.payload = payload := by
    intro payload
    simp only [mem_filterMap, hshow.readPayload, Option.map_eq_some_iff]
  have hconf := hshow.confirm hlog hwaits hkeys hpayloads
  rw [log.confirmAll_eq_after now hids] at hconf
  refine ⟨⟨keys.length, rfl, ?_⟩, hconf⟩
  -- Each send has one timestamp, so the removed keys count the sends.
  refine IsCount.of_image (fun id => (SendLogKey.recipient device
    (((log.sends id).map fun send => send.payload.clientTimestamp).getD 0) id).text) ?_
    (nodup_dedup _) ?_
  · intro id other heq
    exact (SendLogKey.recipient.inj (SendLogKey.text_injective heq)).2.2
  · intro text
    rw [hkeys]
    constructor
    · rintro ⟨id, hid, send, hsend, rfl⟩
      exact ⟨id, (hids id).mp hid, by simp [hsend]⟩
    · rintro ⟨id, hid, rfl⟩
      obtain ⟨send, responses, hrow, htime⟩ := hid
      exact ⟨id, (hids id).mpr ⟨send, responses, hrow, htime⟩, send, hrow.1, by simp [hrow.1]⟩

theorem mem_expiredSends {id : String} :
    id ∈ backend.expiredSends now maxAgeMs ↔ ∃ send, log.sends id = some send ∧
      expired now maxAgeMs send.payload.createdAt = true := by
  rw [Backend.expiredSends, mem_dedup, mem_filterMap]
  constructor
  · rintro ⟨⟨createdAt, other⟩, hcreated, hid⟩
    obtain ⟨text, htext, hparse⟩ := mem_filterMap.mp hcreated
    obtain ⟨key, value, rfl, hval⟩ := hshow.mem_keys.mp htext
    obtain rfl := SendLogKey.parseCreatedKey_eq_some_iff.mp hparse
    obtain ⟨send, hsend, rfl, _⟩ := stored_created_iff.mp hval
    dsimp only at hid
    split at hid
    case isTrue hold =>
      cases hid
      exact ⟨send, hsend, hold⟩
    case isFalse => cases hid
  · rintro ⟨send, hsend, hold⟩
    refine ⟨(send.payload.createdAt, id), mem_filterMap.mpr ⟨_, hshow.mem_keys.mpr
      ⟨_, _, rfl, stored_created_iff.mpr ⟨send, hsend, rfl, rfl⟩⟩,
      SendLogKey.parseCreatedKey_created ..⟩, if_pos hold⟩

theorem mem_expiredJobs {text : KeyText} :
    text ∈ (backend.keys.filter (startsWith jobPrefix)).filter (fun key =>
        (backend.readJob key).any fun job => expired now maxAgeMs job.createdAt) ↔
      ∃ jobId job, log.jobs jobId = some job ∧ expired now maxAgeMs job.createdAt = true ∧
        (SendLogKey.job jobId).text = text := by
  rw [mem_filter, mem_filter]
  constructor
  · rintro ⟨⟨hkeys, hstart⟩, hold⟩
    obtain ⟨key, _, rfl, _⟩ := hshow.mem_keys.mp hkeys
    obtain ⟨jobId, rfl⟩ := SendLogKey.eq_job ((SendLogKey.startsWith_start .job key).mp hstart)
    have hread : backend.readJob (SendLogKey.job jobId).text = log.jobs jobId :=
      hshow.readJob jobId
    rw [hread, Option.any_eq_true] at hold
    obtain ⟨job, hjob, hold⟩ := hold
    exact ⟨jobId, job, hjob, hold, rfl⟩
  · rintro ⟨jobId, job, hjob, hold, rfl⟩
    have hread : backend.readJob (SendLogKey.job jobId).text = log.jobs jobId :=
      hshow.readJob jobId
    refine ⟨⟨hshow.mem_keys.mpr ⟨.job jobId, .job job, rfl, by simp [Log.stored, hjob]⟩,
      (SendLogKey.startsWith_start .job (.job jobId)).mpr rfl⟩, ?_⟩
    rw [hread, hjob, Option.any_some]
    exact hold

theorem deleteExpired (now : ℕ) (maxAgeMs : ℤ) :
    log.Gives codeUnits now (.deleteExpiredSendLog maxAgeMs)
        (backend.step now (.deleteExpiredSendLog maxAgeMs)).1 ∧
      BackendShows (backend.step now (.deleteExpiredSendLog maxAgeMs)).2
        (log.after now (.deleteExpiredSendLog maxAgeMs)) := by
  classical
  let sends := backend.expiredSends now maxAgeMs
  have hsends : ∀ id, id ∈ sends ↔ ∃ send, log.sends id = some send ∧
      expired now maxAgeMs send.payload.createdAt = true := fun _ => hshow.mem_expiredSends
  constructor
  · have hnodup : sends.Nodup := nodup_dedup _
    refine ⟨_, rfl, _, hnodup.filter _, fun id => ?_, rfl⟩
    rw [mem_filter, hsends, and_iff_left_of_imp]
    rintro ⟨send, hsend, _⟩
    have hget : backend.get? (payloadKey id) =
        (log.sends id).map fun send => .payload send.payload := hshow.get (.payload id)
    rw [OrderedMap.has, hget, hsend]
    rfl
  refine (hshow.remove (log.Old now maxAgeMs) ?_ ?_ ?_).of_eq fun key =>
    (Log.stored_expired now maxAgeMs key).symm
  · intro entry hentry
    obtain hentry | hentry := mem_append.mp hentry
    · obtain ⟨id, _, hentry⟩ := mem_flatMap.mp hentry
      exact removeEntry_none id entry hentry
    · obtain ⟨_, _, rfl⟩ := mem_map.mp hentry
      rfl
  · intro key hkey
    rw [map_append, mem_append, map_flatMap, map_map] at hkey
    obtain hkey | hkey := hkey
    · obtain ⟨id, hid, hkey⟩ := mem_flatMap.mp hkey
      exact .inl ⟨id, hshow.removeEntry_gone hkey, (hsends id).mp hid⟩
    · obtain ⟨text, htext, heq⟩ := mem_map.mp hkey
      obtain ⟨jobId, job, hjob, hold, rfl⟩ := hshow.mem_expiredJobs.mp htext
      exact .inr ⟨jobId, job, (SendLogKey.text_injective heq).symm, hjob, hold⟩
  · rintro key value hval (⟨id, hkey, hid⟩ | ⟨jobId, job, rfl, hjob, hold⟩)
    · rw [map_append, mem_append, map_flatMap]
      exact .inl (mem_flatMap.mpr ⟨id, (hsends id).mpr hid, hshow.removeEntry_all hval hkey⟩)
    · rw [map_append, mem_append, map_map]
      exact .inr (mem_map.mpr ⟨_, hshow.mem_expiredJobs.mpr ⟨jobId, job, hjob, hold, rfl⟩, rfl⟩)

theorem clear (now : ℕ) :
    log.Gives codeUnits now .clearSendLog (backend.step now .clearSendLog).1 ∧
      BackendShows (backend.step now .clearSendLog).2 (log.after now .clearSendLog) := by
  have hall : backend.keys.filter (startsWith sendLogPrefix) = backend.keys := by
    rw [filter_eq_self]
    intro text htext
    obtain ⟨key, _, rfl, _⟩ := hshow.mem_keys.mp htext
    exact SendLogKey.startsWith_sendLogPrefix key
  simp only [Backend.step, hall]
  constructor
  · refine ⟨_, rfl, IsCount.of_image (fun id => (SendLogKey.payload id).text) ?_
      (List.Nodup.filter _ backend.keys_nodup) ?_⟩
    · intro id other heq
      exact SendLogKey.payload.inj (SendLogKey.text_injective heq)
    · intro text
      rw [mem_filter]
      constructor
      · rintro ⟨hkeys, hstart⟩
        obtain ⟨key, value, rfl, hval⟩ := hshow.mem_keys.mp hkeys
        obtain ⟨id, rfl⟩ :=
          SendLogKey.eq_payload ((SendLogKey.startsWith_start .payload key).mp hstart)
        exact ⟨id, Log.send_of_stored rfl hval, rfl⟩
      · rintro ⟨id, ⟨send, hsend⟩, rfl⟩
        exact ⟨hshow.mem_keys.mpr ⟨.payload id, .payload send.payload, rfl,
          by simp [Log.stored, hsend]⟩, (SendLogKey.startsWith_start .payload _).mpr rfl⟩
  · refine (hshow.remove (fun _ => True) ?_ (fun _ _ => trivial) ?_).of_eq ?_
    · intro entry hentry
      obtain ⟨_, _, rfl⟩ := mem_map.mp hentry
      rfl
    · intro key value hval _
      rw [map_map]
      exact mem_map.mpr ⟨key.text, hshow.mem_keys.mpr ⟨key, value, rfl, hval⟩, rfl⟩
    · intro key
      rw [if_pos trivial]
      cases key <;> rfl

end BackendShows

theorem BackendShows.of_log {backend : Backend} {log changed : Log}
    (hshow : BackendShows backend log) (heq : log = changed) : BackendShows backend changed :=
  heq ▸ hshow

theorem Backend.step_shows {backend : Backend} {log : Log} (hlog : log.Sound)
    (hshow : BackendShows backend log) (now : ℕ) (call : Call) :
    log.Gives codeUnits now call (backend.step now call).1 ∧
      BackendShows (backend.step now call).2 (log.after now call) := by
  cases call with
  | storeSendLogEntry payload recipients =>
    refine ⟨rfl, ?_⟩
    rw [Log.after_store]
    exact hshow.store (payload.stored now) recipients
  | appendSendLogRecipients id recipients =>
    rw [Log.after_append]
    simp only [Backend.step, hshow.readPayload]
    cases hsend : log.sends id with
    | none => exact ⟨rfl, hshow.of_log (Log.setSend_of_eq hsend).symm⟩
    | some send => exact ⟨rfl, hshow.putMissing hsend recipients⟩
  | markSendLogComplete id =>
    rw [Log.after_complete]
    simp only [Backend.step, hshow.readPayload]
    cases hsend : log.sends id with
    | none => exact ⟨rfl, hshow.of_log (Log.setSend_of_eq hsend).symm⟩
    | some send =>
      dsimp only [Option.map_some]
      split
      case isTrue hrows =>
        have hnone : ∀ device, send.rows device = none := by
          intro device
          by_contra hrow
          obtain ⟨responses, hrow⟩ := Option.ne_none_iff_exists'.mp hrow
          have hmem := hshow.mem_rowKeysOf.mpr
            ⟨send, device, responses, ⟨hsend, hrow⟩, rfl⟩
          rw [hrows] at hmem
          cases hmem
        rw [Option.bind_some, Send.completed_settled_of_none hnone]
        exact ⟨rfl, hshow.removeEntry id⟩
      case isFalse hrows =>
        obtain ⟨row, hrow⟩ := exists_mem_of_ne_nil _ hrows
        obtain ⟨held, device, responses, ⟨hheld, hwaits⟩, _⟩ :=
          hshow.mem_rowKeysOf.mp hrow
        obtain rfl : send = held := Option.some_injective _ (hsend.symm.trans hheld)
        rw [Option.bind_some, Send.completed_settled_of_row hwaits]
        exact ⟨rfl, hshow.setPayload hsend⟩
  | getSendLogEntry id recipient =>
    exact ⟨congrArg Answer.entry (hshow.entryOf id recipient hlog), hshow⟩
  | findSendLogEntries recipient clientTimestamp =>
    exact ⟨⟨_, rfl, hshow.entries_listing hlog recipient clientTimestamp⟩, hshow⟩
  | getSendLogRecipients id =>
    exact ⟨⟨_, rfl, hshow.rows_listing hlog id⟩, hshow⟩
  | deleteSendLogRecipient id recipient =>
    rw [Log.after_confirm]
    simp only [Log.Gives, Backend.step, hshow.readPayload]
    cases hsend : log.sends id with
    | none => exact ⟨rfl, hshow.of_log (Log.setSend_of_eq hsend).symm⟩
    | some send =>
      have hhas : backend.has (recipientKey recipient send.payload.clientTimestamp id) =
          (send.rows recipient).isSome := by
        rw [OrderedMap.has, hshow.get?_recipientKey, hsend, Option.bind_some,
          if_pos rfl, Option.isSome_map]
      dsimp only [Option.map_some, Option.bind_some, Option.any_some]
      rw [hhas]
      cases hrow : send.rows recipient with
      | none =>
        refine ⟨rfl, hshow.of_log ?_⟩
        rw [Send.confirmed_of_none hrow]
        exact (Log.setSend_of_eq hsend).symm
      | some responses =>
        refine ⟨rfl, ?_⟩
        exact hshow.confirmOne hlog ⟨hsend, hrow⟩
  | deleteSendLogRecipientsByTimestamp recipient clientTimestamps =>
    exact hshow.deleteRecipientsByTimestamp hlog now recipient clientTimestamps
  | incrementSendLogResendCount id recipient =>
    rw [Log.after_counted]
    simp only [Log.Gives, Backend.step, hshow.readPayload, hshow.readCount]
    cases hsend : log.sends id with
    | none => exact ⟨rfl, hshow.of_log (Log.setSend_of_eq hsend).symm⟩
    | some send =>
      simp only [Option.map_some, Option.bind_some, if_true]
      cases hrow : send.rows recipient with
      | none =>
        refine ⟨rfl, hshow.of_log ?_⟩
        rw [Send.counted_of_none hrow]
        exact (Log.setSend_of_eq hsend).symm
      | some responses => exact ⟨rfl, hshow.setCount ⟨hsend, hrow⟩⟩
  | deleteSendLogEntry id =>
    rw [Log.after_deleted]
    have hhas : backend.has (payloadKey id) = (log.sends id).isSome := by
      have hget : backend.get? (payloadKey id) =
          (log.sends id).map fun send => .payload send.payload := hshow.get (.payload id)
      rw [OrderedMap.has, hget, Option.isSome_map]
    simp only [Log.Gives, Backend.step, hhas]
    cases hsend : log.sends id with
    | none => exact ⟨rfl, hshow.of_log (Log.setSend_of_eq hsend).symm⟩
    | some send => exact ⟨rfl, hshow.removeEntry id⟩
  | deleteExpiredSendLog maxAgeMs => exact hshow.deleteExpired now maxAgeMs
  | clearSendLog => exact hshow.clear now
  | storeResendJob job =>
    refine ⟨rfl, ?_⟩
    rw [Log.after_storeJob]
    simp only [Backend.step, hshow.readJob]
    exact hshow.setJob
      { job with createdAt := ((log.jobs job.jobId).map (·.createdAt)).getD now }
  | getResendJob jobId => exact ⟨congrArg Answer.job (hshow.readJob jobId), hshow⟩
  | getPendingResendJobs => exact ⟨⟨_, rfl, hshow.jobs_listing hlog⟩, hshow⟩
  | completeResendJob jobId state =>
    rw [Log.after_completeJob]
    simp only [Backend.step, hshow.readJob]
    cases hjob : log.jobs jobId with
    | none => exact ⟨rfl, hshow.of_log (Log.setJob_of_eq hjob).symm⟩
    | some job =>
      have hid : job.jobId = jobId := hlog.job jobId job hjob
      subst hid
      exact ⟨rfl, hshow.setJob { job with state := state.state }⟩

/-! ## The send logs agree

The four stores run the same calls. -/

open Listing List Option
open KeyValue

variable {payload : String → Option SendLogPayload}

structure Stores where
  memory : MemorySendLog
  keyValue : Backend
  indexedDb : Tables
  sqlite : Tables

namespace Stores

def empty : Stores := ⟨MemorySendLog.empty, ∅, Tables.empty, Tables.empty⟩

variable (stores : Stores)

/-- One call at a time of the clock, on each store. -/
def after (now : ℕ) (call : Call) : Stores where
  memory := (stores.memory.step now call).2
  keyValue := (stores.keyValue.step now call).2
  indexedDb := (indexedDbStep stores.indexedDb now call).2
  sqlite := (sqliteStep stores.sqlite now call).2

def run (calls : List (ℕ × Call)) : Stores :=
  calls.foldl (fun stores call => stores.after call.1 call.2) stores

/-- The four stores return the same result. -/
def Agree (now : ℕ) (call : Call) : Prop :=
  (stores.keyValue.step now call).1 = (stores.memory.step now call).1 ∧
    (indexedDbStep stores.indexedDb now call).1 = (stores.memory.step now call).1 ∧
      (sqliteStep stores.sqlite now call).1 = (stores.memory.step now call).1

end Stores

def KeysAlike {α κ : Type} [LinearOrder κ] (key : TextOrder → α → κ) (values : List α) : Prop :=
  ∀ first ∈ values, ∀ second ∈ values,
    (key codeUnits first < key codeUnits second ↔ key codePoints first < key codePoints second)

/-- The values that a read sorts are ordered alike. -/
def Tables.ReadsAlike (tables : Tables) : Call → Prop
  | .findSendLogEntries recipient clientTimestamp =>
    KeysAlike entryKey (tables.join (tables.byDevice recipient clientTimestamp))
  | .getSendLogRecipients clientMessageId =>
    KeysAlike deviceKey (tables.rowsOf clientMessageId).values
  | .getPendingResendJobs =>
    KeysAlike jobKey (tables.resendJobs.values.filter fun job => job.state = .pending)
  | _ => True

theorem sortBy_eq_iff {α κ : Type} [LinearOrder κ] {key : TextOrder → α → κ} {holds : α → Prop}
    {values others : List α}
    (hvals : IsListing (key codeUnits) holds (sortBy (key codeUnits) values))
    (hothers : IsListing (key codePoints) holds (sortBy (key codePoints) others)) :
    sortBy (key codePoints) others = sortBy (key codeUnits) values ↔ KeysAlike key values := by
  have hmem : ∀ value, value ∈ values ↔ holds value := by
    intro value
    rw [← hvals.mem_iff]
    exact (mem_insertionSort _).symm
  constructor
  · intro heq first hfst second hsnd
    rw [heq] at hothers
    exact hvals.alike hothers ((hmem first).mp hfst) ((hmem second).mp hsnd)
  · intro halike
    refine hothers.unique (hvals.of_alike ?_)
    intro first second hfst hsnd
    exact halike first ((hmem first).mpr hfst) second ((hmem second).mpr hsnd)

structure Kept (payload : String → Option SendLogPayload) (row : String → SendLogDevice → Prop) :
    Prop where
  rows : ∀ id device, row id device → (payload id).isSome
  complete : ∀ id content, payload id = some content → content.sendComplete = true →
    ∃ device, row id device

/-- No payload of an age is left. -/
def NoneExpired (now : ℕ) (maxAgeMs : ℤ) (payload : String → Option SendLogPayload) : Prop :=
  ∀ id content, payload id = some content → expired now maxAgeMs content.createdAt = false

theorem row_isSome_iff {log : Log} {id : String} {device : SendLogDevice} :
    ((log.sends id).bind fun send => (send.rows device).map (send.recipient device)).isSome = true ↔
      ∃ send responses, log.Waits id send device responses := by
  unfold Log.Waits
  cases hsend : log.sends id with
  | none => simp
  | some send => simp [isSome_iff_exists]

theorem Kept.of_log {log : Log} (hlog : log.Sound) {row : String → SendLogDevice → Prop}
    (hpayload : ∀ id, payload id = (log.sends id).map (·.payload))
    (hrow : ∀ id device, row id device ↔ ∃ send responses, log.Waits id send device responses) :
    Kept payload row where
  rows id device h := by
    obtain ⟨send, responses, hsend, _⟩ := (hrow id device).mp h
    rw [hpayload, hsend]
    rfl
  complete id content hcontent hcompl := by
    rw [hpayload] at hcontent
    obtain ⟨send, hsend, rfl⟩ := map_eq_some_iff.mp hcontent
    obtain ⟨device, responses, hwaits⟩ := hlog.waits id send hsend hcompl
    exact ⟨device, (hrow id device).mpr ⟨send, responses, hsend, hwaits⟩⟩

theorem NoneExpired.of_log {log : Log} {now : ℕ} {maxAgeMs : ℤ} (hpayload : ∀ id, payload id =
      ((log.after now (.deleteExpiredSendLog maxAgeMs)).sends id).map (·.payload)) :
    NoneExpired now maxAgeMs payload := by
  intro id content hcontent
  rw [hpayload] at hcontent
  obtain ⟨send, hsend, rfl⟩ := map_eq_some_iff.mp hcontent
  have hkept := (filter_eq_some_iff.mp hsend).2
  simpa using hkept

namespace Stores

/-- The rows, the completion and the creation indexes of each store. -/
structure Sound (stores : Stores) : Prop where
  memory : Kept stores.memory.payloads.get?
    fun id device => (stores.memory.row? id device).isSome
  keyValue : Kept stores.keyValue.readPayload
    fun id device => ∃ clientTimestamp,
      stores.keyValue.has (recipientKey device clientTimestamp id) = true
  indexedDb : Kept stores.indexedDb.payloads.get?
    fun id device => stores.indexedDb.recipients.has (id, device)
  sqlite : Kept stores.sqlite.payloads.get?
    fun id device => stores.sqlite.recipients.has (id, device)
  created : ∀ id payload, stores.keyValue.readPayload id = some payload →
    createdKeysOf stores.keyValue.keys id = [createdKey payload.createdAt id]

structure Show (stores : Stores) (log : Log) : Prop where
  sound : log.Sound
  memory : MemoryShows stores.memory log
  keyValue : BackendShows stores.keyValue log
  indexedDb : TablesShow stores.indexedDb log
  sqlite : TablesShow stores.sqlite log

theorem Show.empty : Show Stores.empty Log.empty :=
  ⟨Log.Sound.empty, MemoryShows.empty, Holds.empty, TablesShow.empty, TablesShow.empty⟩

variable {stores : Stores} {log : Log}

section

variable (hshow : stores.Show log)
  (now : ℕ)

include hshow

theorem Show.after (call : Call) : (stores.after now call).Show (log.after now call) where
  sound := hshow.sound.after now call
  memory := (MemorySendLog.step_shows hshow.sound hshow.memory now call).2
  keyValue := (Backend.step_shows hshow.sound hshow.keyValue now call).2
  indexedDb := (indexedDbStep_shows hshow.sound hshow.indexedDb now call).2
  sqlite := (sqliteStep_shows hshow.sound hshow.sqlite now call).2

theorem Show.run (calls : List (ℕ × Call)) : ∃ reached, (stores.run calls).Show reached := by
  induction calls generalizing stores log with
  | nil => exact ⟨log, hshow⟩
  | cons call calls ih => exact ih (hshow.after call.1 call.2)

theorem Show.agree_iff (call : Call) :
    stores.Agree now call ↔ stores.indexedDb.ReadsAlike call := by
  have hmemory := (MemorySendLog.step_shows hshow.sound hshow.memory now call).1
  have hkeyValue := (Backend.step_shows hshow.sound hshow.keyValue now call).1
  have hindexedDb := (indexedDbStep_shows hshow.sound hshow.indexedDb now call).1
  have hsqlite := (sqliteStep_shows hshow.sound hshow.sqlite now call).1
  have hsame := hindexedDb.unique hmemory
  unfold Agree
  rw [and_iff_right (hkeyValue.unique hmemory), and_iff_right hsame, ← hsame]
  cases call with
  | findSendLogEntries recipient clientTimestamp =>
    refine Iff.trans ?_ (sortBy_eq_iff
      (hshow.indexedDb.entries_listing hshow.sound codeUnits_injective recipient clientTimestamp)
      (hshow.sqlite.entries_listing hshow.sound codePoints_injective recipient clientTimestamp))
    exact Answer.entries.injEq .. ▸ Iff.rfl
  | getSendLogRecipients id =>
    refine Iff.trans ?_ (sortBy_eq_iff
      (hshow.indexedDb.rows_listing hshow.sound codeUnits_injective id)
      (hshow.sqlite.rows_listing hshow.sound codePoints_injective id))
    exact Answer.recipients.injEq .. ▸ Iff.rfl
  | getPendingResendJobs =>
    refine Iff.trans ?_ (sortBy_eq_iff
      (hshow.sound.jobs_listing hshow.indexedDb.jobs codeUnits_injective)
      (hshow.sound.jobs_listing hshow.sqlite.jobs codePoints_injective))
    exact Answer.jobs.injEq .. ▸ Iff.rfl
  | getSendLogEntry => exact iff_of_true (Log.Gives.unique hsqlite hindexedDb) trivial
  | deleteSendLogRecipient => exact iff_of_true (Log.Gives.unique hsqlite hindexedDb) trivial
  | deleteSendLogRecipientsByTimestamp =>
    exact iff_of_true (Log.Gives.unique hsqlite hindexedDb) trivial
  | incrementSendLogResendCount => exact iff_of_true (Log.Gives.unique hsqlite hindexedDb) trivial
  | deleteSendLogEntry => exact iff_of_true (Log.Gives.unique hsqlite hindexedDb) trivial
  | deleteExpiredSendLog => exact iff_of_true (Log.Gives.unique hsqlite hindexedDb) trivial
  | clearSendLog => exact iff_of_true (Log.Gives.unique hsqlite hindexedDb) trivial
  | getResendJob => exact iff_of_true (Log.Gives.unique hsqlite hindexedDb) trivial
  | storeSendLogEntry => exact iff_of_true (Log.Gives.unique hsqlite hindexedDb) trivial
  | appendSendLogRecipients => exact iff_of_true (Log.Gives.unique hsqlite hindexedDb) trivial
  | markSendLogComplete => exact iff_of_true (Log.Gives.unique hsqlite hindexedDb) trivial
  | storeResendJob => exact iff_of_true (Log.Gives.unique hsqlite hindexedDb) trivial
  | completeResendJob => exact iff_of_true (Log.Gives.unique hsqlite hindexedDb) trivial

theorem Show.kept : stores.Sound where
  memory := by
    refine Kept.of_log hshow.sound hshow.memory.payloads fun id device => ?_
    rw [hshow.memory.recipients]
    exact row_isSome_iff
  keyValue := by
    refine Kept.of_log hshow.sound hshow.keyValue.readPayload fun id device => ?_
    simp only [OrderedMap.has, isSome_iff_exists, ← SendLogKey.text_recipient,
      hshow.keyValue.get, BackendShows.stored_recipient_iff]
    constructor
    · rintro ⟨_, _, send, responses, hwaits, _⟩
      exact ⟨send, responses, hwaits⟩
    · rintro ⟨send, responses, hwaits⟩
      exact ⟨_, _, send, responses, hwaits, rfl, rfl⟩
  indexedDb := by
    refine Kept.of_log hshow.sound hshow.indexedDb.payloads fun id device => ?_
    rw [OrderedMap.has, hshow.indexedDb.recipients]
    exact row_isSome_iff
  sqlite := by
    refine Kept.of_log hshow.sound hshow.sqlite.payloads fun id device => ?_
    rw [OrderedMap.has, hshow.sqlite.recipients]
    exact row_isSome_iff
  created id payload hpayload := by
    rw [hshow.keyValue.readPayload] at hpayload
    obtain ⟨send, hsend, rfl⟩ := map_eq_some_iff.mp hpayload
    have hnodup : (createdKeysOf stores.keyValue.keys id).Nodup :=
      List.Nodup.filter _ stores.keyValue.keys_nodup
    refine perm_singleton.mp ((perm_ext_iff_of_nodup hnodup
      (nodup_singleton _)).mpr fun text => ?_)
    rw [hshow.keyValue.mem_createdKeysOf, mem_singleton]
    simp only [hsend, Option.some.injEq, exists_eq_left']
    exact eq_comm

end

def twoScripts : List (ℕ × Call) :=
  [(1000, .storeSendLogEntry
    { clientMessageId := "send", groupId := "group", clientTimestamp := 1000,
      contentHint := .resendable, plaintext := [] } [⟨"\uFFFD", 1⟩, ⟨"😀", 1⟩])]

end Stores

end SignalProtocol.SendLog

import SignalProtocol.Proof.SendLogTableCalls

/-! # The in-memory store shows the log

The in-memory store keeps a map of rows for each send, and goes through its payloads where the
stores with tables ask an index. -/

namespace SignalProtocol.SendLog

open Listing List OrderedMap Option

variable {id : String}

namespace MemorySendLog

variable (memory : MemorySendLog)

def rowsOf (clientMessageId : String) : OrderedMap SendLogDevice SendLogRecipient :=
  (memory.recipients.get? clientMessageId).getD ∅

theorem row?_eq (clientMessageId : String) (device : SendLogDevice) :
    memory.row? clientMessageId device = (memory.rowsOf clientMessageId).get? device := by
  unfold row? rowsOf
  cases memory.recipients.get? clientMessageId <;> rfl

end MemorySendLog

structure MemoryShows (memory : MemorySendLog) (log : Log) : Prop where
  payloads : ∀ id, memory.payloads.get? id = (log.sends id).map (·.payload)
  recipients : ∀ id device, memory.row? id device =
    (log.sends id).bind fun send => (send.rows device).map (send.recipient device)
  jobs : ∀ jobId, memory.resendJobs.get? jobId = log.jobs jobId

namespace MemoryShows

theorem empty : MemoryShows MemorySendLog.empty Log.empty :=
  ⟨fun _ => rfl, fun _ _ => rfl, fun _ => rfl⟩

variable {memory : MemorySendLog} {log : Log}

theorem of_eq {changed : Log} (hshow : MemoryShows memory log) (heq : log = changed) :
    MemoryShows memory changed :=
  heq ▸ hshow

theorem of_send (hshow : MemoryShows memory log) {clientMessageId : String} {send : Option Send}
    {changed : MemorySendLog}
    (hpayloads : ∀ id, changed.payloads.get? id =
      if id = clientMessageId then send.map (·.payload) else memory.payloads.get? id)
    (hrows : ∀ device, (changed.rowsOf clientMessageId).get? device =
      send.bind fun send => (send.rows device).map (send.recipient device))
    (hothers : ∀ id, id ≠ clientMessageId → changed.rowsOf id = memory.rowsOf id)
    (hjobs : changed.resendJobs = memory.resendJobs) :
    MemoryShows changed (log.setSend clientMessageId send) where
  payloads id := by
    rw [hpayloads]
    by_cases hid : id = clientMessageId
    · rw [if_pos hid, hid, Log.setSend_self]
    · rw [if_neg hid, Log.setSend_of_ne _ _ hid, hshow.payloads]
  recipients id device := by
    rw [MemorySendLog.row?_eq]
    by_cases hid : id = clientMessageId
    · rw [hid, hrows, Log.setSend_self]
    · rw [hothers id hid, Log.setSend_of_ne _ _ hid, ← MemorySendLog.row?_eq, hshow.recipients]
  jobs jobId := by
    rw [hjobs]
    exact hshow.jobs jobId

theorem rowsOf_set (memory : MemorySendLog) (id other : String)
    (rows : OrderedMap SendLogDevice SendLogRecipient) :
    MemorySendLog.rowsOf { memory with recipients := memory.recipients.set id rows } other =
      if other = id then rows else memory.rowsOf other := by
  unfold MemorySendLog.rowsOf
  rw [get?_set]
  split <;> rfl

theorem rowsOf_erase (memory : MemorySendLog) (id other : String) :
    MemorySendLog.rowsOf { memory with recipients := memory.recipients.erase id } other =
      if other = id then ∅ else memory.rowsOf other := by
  unfold MemorySendLog.rowsOf
  rw [get?_erase]
  split <;> rfl

variable (hshow : MemoryShows memory log)
include hshow

theorem rowsOf {send : Send} (hsend : log.sends id = some send) (device : SendLogDevice) :
    (memory.rowsOf id).get? device = (send.rows device).map (send.recipient device) := by
  rw [← MemorySendLog.row?_eq, hshow.recipients, hsend]
  rfl

theorem payload_of_send {send : Send} (hsend : log.sends id = some send) :
    memory.payloads.get? id = some send.payload := by
  rw [hshow.payloads, hsend]
  rfl

theorem rowsOf_size {send : Send} (hsend : log.sends id = some send) :
    (memory.rowsOf id).size = 0 ↔ ∀ device, send.rows device = none := by
  constructor
  · intro hsize device
    have hget := hshow.rowsOf hsend device
    rw [eq_empty_of_size hsize] at hget
    exact map_eq_none_iff.mp hget.symm
  · intro hnone
    rw [← length_keys, length_eq_zero_iff, eq_nil_iff_forall_not_mem]
    intro device hkey
    obtain ⟨row, hrow⟩ := (mem_keys_iff _ _).mp hkey
    rw [hshow.rowsOf hsend, hnone] at hrow
    cases hrow

/-! ## Changes of one send -/

theorem removePayload (id : String) :
    MemoryShows (memory.removePayload id) (log.setSend id none) := by
  refine hshow.of_send ?_ ?_ ?_ rfl
  · intro other
    exact get?_erase ..
  · intro device
    have hrows : (memory.removePayload id).rowsOf id = ∅ := (rowsOf_erase ..).trans (if_pos rfl)
    rw [hrows]
    rfl
  · intro other hother
    exact (rowsOf_erase ..).trans (if_neg hother)

theorem removeFinishedPayload {send : Send} (hsend : log.sends id = some send) :
    MemoryShows (memory.removeFinishedPayload id) (log.setSend id send.settled) := by
  have hsame : ¬ send.Finished → MemoryShows memory (log.setSend id send.settled) := by
    intro hfin
    refine hshow.of_eq ?_
    rw [Send.settled, if_neg hfin]
    exact (Log.setSend_of_eq hsend).symm
  have hsize : ((memory.recipients.get? id).map (·.size)).getD 0 = (memory.rowsOf id).size := by
    unfold MemorySendLog.rowsOf
    cases memory.recipients.get? id <;> rfl
  unfold MemorySendLog.removeFinishedPayload
  rw [hshow.payload_of_send hsend, hsize, any_some]
  split
  case isTrue hopen =>
    apply hsame
    rintro ⟨hcompl, _⟩
    simp [hcompl] at hopen
  case isFalse hcompl =>
    rw [Bool.not_eq_true, Bool.not_eq_false'] at hcompl
    split
    case isTrue hwaits =>
      apply hsame
      rintro ⟨_, hnone⟩
      exact hwaits.ne' ((hshow.rowsOf_size hsend).mpr hnone)
    case isFalse hempty =>
      have hnone := (hshow.rowsOf_size hsend).mp (Nat.eq_zero_of_not_pos hempty)
      rw [Send.settled, if_pos ⟨hcompl, hnone⟩]
      exact hshow.removePayload id

theorem removeRecipient {send : Send} (hsend : log.sends id = some send) (device : SendLogDevice) :
    (memory.removeRecipient id device).1 = (send.rows device).isSome ∧
      MemoryShows (memory.removeRecipient id device).2
        (log.setSend id (send.confirmed device)) := by
  have hhas : (memory.rowsOf id).has device = (send.rows device).isSome := by
    rw [OrderedMap.has, hshow.rowsOf hsend, isSome_map]
  have hnothing : send.rows device = none →
      MemoryShows memory (log.setSend id (send.confirmed device)) := by
    intro hnone
    rw [Send.confirmed_of_none hnone]
    exact hshow.of_eq (Log.setSend_of_eq hsend).symm
  unfold MemorySendLog.removeRecipient
  cases hrows : memory.recipients.get? id with
  | none =>
    have hempty : memory.rowsOf id = ∅ := by simp [MemorySendLog.rowsOf, hrows]
    rw [hempty] at hhas
    have hnone : send.rows device = none :=
      not_isSome_iff_eq_none.mp (by simp [← hhas, OrderedMap.has])
    exact ⟨hhas, hnothing hnone⟩
  | some rows =>
    have hheld : memory.rowsOf id = rows := by simp [MemorySendLog.rowsOf, hrows]
    rw [hheld] at hhas
    dsimp only
    rw [hhas]
    cases hrow : (send.rows device).isSome with
    | false => exact ⟨rfl, hnothing (by simpa using hrow)⟩
    | true =>
      refine ⟨rfl, ?_⟩
      rw [Send.confirmed, if_pos hrow]
      simp only [Bool.not_true, Bool.false_eq_true, if_false]
      have hleft : ∀ changed : MemorySendLog, changed.payloads = memory.payloads →
          changed.resendJobs = memory.resendJobs →
          (∀ other, changed.rowsOf other =
            if other = id then rows.erase device else memory.rowsOf other) →
          MemoryShows changed (log.setSend id (some (send.without device))) := by
        intro changed hpayloads hjobs hchange
        refine hshow.of_send ?_ ?_ ?_ hjobs
        · intro other
          rw [hpayloads]
          by_cases hother : other = id
          · rw [if_pos hother, hother, hshow.payload_of_send hsend]
            rfl
          · rw [if_neg hother]
        · intro held
          rw [hchange, if_pos rfl, get?_erase, ← hheld, hshow.rowsOf hsend]
          by_cases hsame : held = device
          · simp [hsame, Send.without]
          · rw [if_neg hsame]
            simp only [bind_some, Send.without, Function.update_of_ne hsame]
            rfl
        · intro other hother
          rw [hchange, if_neg hother]
      have hrem : ∀ changed : MemorySendLog,
          MemoryShows changed (log.setSend id (some (send.without device))) →
          MemoryShows (changed.removeFinishedPayload id)
            (log.setSend id (send.without device).settled) := by
        intro changed hchange
        have hsettled := hchange.removeFinishedPayload (Log.setSend_self ..)
        rw [Log.setSend_setSend] at hsettled
        exact hsettled
      apply hrem
      split
      case isTrue hsize =>
        refine hleft _ rfl rfl fun other => (rowsOf_erase ..).trans ?_
        rw [eq_empty_of_size hsize]
      case isFalse => exact hleft _ rfl rfl fun other => rowsOf_set ..

omit hshow in
theorem get?_addRows (payload : SendLogPayload) (devices : List SendLogDevice)
    (rows : OrderedMap SendLogDevice SendLogRecipient) (device : SendLogDevice) :
    (devices.foldl (fun rows device =>
        if rows.has device then rows
        else rows.set device (newRow payload.clientMessageId payload.clientTimestamp device))
        rows).get? device =
      (rows.get? device).or
        (if device ∈ devices then
          some (newRow payload.clientMessageId payload.clientTimestamp device)
        else none) := by
  induction devices generalizing rows with
  | nil => simp
  | cons first devices ih =>
    rw [foldl_cons, ih]
    split
    case isTrue hhas =>
      by_cases hsame : device = first
      · subst hsame
        obtain ⟨row, hrow⟩ := isSome_iff_exists.mp hhas
        simp [hrow]
      · simp [hsame]
    case isFalse hhas =>
      rw [get?_set]
      by_cases hsame : device = first
      · subst hsame
        have hnone : rows.get? device = none := by simpa [OrderedMap.has] using hhas
        simp [hnone]
      · simp [hsame]

theorem addRecipients (send : Send) (hid : send.payload.clientMessageId = id)
    (hsend : log.sends id = some send) (devices : List SendLogDevice) :
    MemoryShows (memory.addRecipients send.payload devices)
      (log.setSend id (some (send.append devices))) := by
  subst hid
  refine hshow.of_send ?_ ?_ ?_ rfl
  · intro other
    by_cases hother : other = send.payload.clientMessageId
    · rw [if_pos hother, hother]
      exact (hshow.payload_of_send hsend).trans rfl
    · rw [if_neg hother]
      rfl
  · intro device
    have hrows := (rowsOf_set memory send.payload.clientMessageId
      send.payload.clientMessageId (devices.foldl (fun rows device =>
        if rows.has device then rows
        else rows.set device
          (newRow send.payload.clientMessageId send.payload.clientTimestamp device))
        (memory.rowsOf send.payload.clientMessageId))).trans (if_pos rfl)
    refine (congrArg (·.get? device) hrows).trans ?_
    refine (get?_addRows ..).trans ?_
    rw [hshow.rowsOf hsend]
    cases hrow : send.rows device with
    | some responses => simp [hrow, Send.append, Send.recipient]
    | none =>
      by_cases hdev : device ∈ devices <;>
        simp [hrow, hdev, Send.append, Send.recipient, newRow]
  · intro other hother
    exact (rowsOf_set ..).trans (if_neg hother)

theorem setPayload (id : String) (send : Send)
    (hrows : ∀ device, (memory.rowsOf id).get? device =
      (send.rows device).map (send.recipient device)) :
    MemoryShows { memory with payloads := memory.payloads.set id send.payload }
      (log.setSend id (some send)) := by
  refine hshow.of_send ?_ ?_ ?_ rfl
  · intro other
    exact get?_set ..
  · intro device
    exact hrows device
  · intro other _
    rfl

theorem setRow {send : Send} {device : SendLogDevice} {responses : ℕ}
    (hwaits : log.Waits id send device responses) :
    MemoryShows { memory with
        recipients := memory.recipients.set id
          ((memory.rowsOf id).set device (send.recipient device (responses + 1))) }
      (log.setSend id (some (send.counted device))) := by
  refine hshow.of_send ?_ ?_ ?_ rfl
  · intro other
    by_cases hother : other = id
    · rw [if_pos hother, hother]
      exact (hshow.payload_of_send hwaits.1).trans rfl
    · rw [if_neg hother]
  · intro held
    have hrows := (rowsOf_set memory id id
      ((memory.rowsOf id).set device (send.recipient device (responses + 1)))).trans (if_pos rfl)
    refine (congrArg (·.get? held) hrows).trans ?_
    rw [get?_set, hshow.rowsOf hwaits.1]
    by_cases hheld : held = device
    · simp [hheld, Send.counted, Send.recipient, hwaits.2]
    · rw [if_neg hheld]
      simp only [bind_some, Send.counted, Function.update_of_ne hheld]
      rfl
  · intro other hother
    exact (rowsOf_set ..).trans (if_neg hother)

theorem setJob (job : SendLogResendJob) :
    MemoryShows { memory with resendJobs := memory.resendJobs.set job.jobId job }
      (log.setJob job.jobId (some job)) :=
  { hshow with
    jobs jobId := by
      refine (get?_set ..).trans ?_
      by_cases hid : jobId = job.jobId
      · subst hid
        rw [if_pos rfl, Log.setJob_self]
      · rw [if_neg hid, Log.setJob_of_ne _ _ hid, hshow.jobs] }

end MemoryShows

/-! ## Steps of the in-memory store

The store goes through a copy of its payloads. -/

variable {entries : List (String × SendLogPayload)} {id : String}

def Log.dropAll (log : Log) (ids : List String) : Log :=
  { log with sends := fun id => if id ∈ ids then none else log.sends id }

theorem Log.dropAll_dropAll (log : Log) (first second : List String) :
    (log.dropAll first).dropAll second = log.dropAll (first ++ second) := by
  unfold dropAll
  congr 1
  funext id
  by_cases hfst : id ∈ first <;> by_cases hsnd : id ∈ second <;> simp [hfst, hsnd]

theorem Log.dropAll_nil (log : Log) : log.dropAll [] = log := by
  simp [dropAll]

theorem Log.setSend_none_eq_dropAll (log : Log) (id : String) :
    log.setSend id none = log.dropAll [id] := by
  unfold setSend dropAll
  congr 1
  funext other
  by_cases hother : other = id <;> simp [hother]

namespace MemoryShows

variable (now : ℕ) (maxAgeMs : ℤ)

def Copied (log : Log) (entries : List (String × SendLogPayload)) : Prop :=
  (entries.map Prod.fst).Nodup ∧
    ∀ entry ∈ entries, ∃ send, log.sends entry.1 = some send ∧ send.payload = entry.2

theorem Copied.tail {log : Log} (changed : Log) {payload : SendLogPayload}
    (hcopied : Copied log ((id, payload) :: entries))
    (hchange : ∀ other, other ≠ id → changed.sends other = log.sends other) :
    Copied changed entries := by
  obtain ⟨hnodup, hentries⟩ := hcopied
  obtain ⟨hid, hrest⟩ := nodup_cons.mp hnodup
  refine ⟨hrest, fun entry hentry => ?_⟩
  have hmem : entry.1 ∈ entries.map Prod.fst := mem_map_of_mem hentry
  have hne : entry.1 ≠ id := fun heq => hid (heq ▸ hmem)
  rw [hchange _ hne]
  exact hentries entry (mem_cons_of_mem _ hentry)

variable {memory : MemorySendLog} {log : Log}

theorem copied (hshow : MemoryShows memory log) : Copied log memory.payloads.entries := by
  refine ⟨memory.payloads.nodup, fun entry hentry => ?_⟩
  have hget := (memory.payloads.get?_eq_some_iff entry.1 entry.2).mpr hentry
  rw [hshow.payloads] at hget
  exact Option.map_eq_some_iff.mp hget

/-- A pass over a copy of the payloads: it changes the log at the sends it hits, and counts them. -/
structure Pass (pass : List (String × SendLogPayload) → ℕ × MemorySendLog → ℕ × MemorySendLog)
    (change : Log → List String → Log) (Hit : Send → Prop) : Prop where
  pass_nil : ∀ state, pass [] state = state
  change_nil : ∀ log, change log [] = log
  change_change : ∀ log id ids, change (change log [id]) ids = change log (id :: ids)
  change_other : ∀ log id other, other ≠ id → (change log [id]).sends other = log.sends other
  pass_cons : ∀ {memory log} id send entries deleted, MemoryShows memory log →
    log.sends id = some send →
    ∃ reached, pass ((id, send.payload) :: entries) (deleted, memory) = pass entries reached ∧
      (Hit send ∧ reached.1 = deleted + 1 ∧ MemoryShows reached.2 (change log [id]) ∨
        ¬ Hit send ∧ reached.1 = deleted ∧ MemoryShows reached.2 log)

theorem Pass.run {pass : List (String × SendLogPayload) → ℕ × MemorySendLog → ℕ × MemorySendLog}
    {change : Log → List String → Log} {Hit : Send → Prop} (hpass : Pass pass change Hit)
    {memory : MemorySendLog} {log : Log} (hcopied : Copied log entries)
    (hshow : MemoryShows memory log) (deleted : ℕ) :
    ∃ ids : List String, ids.Nodup ∧
      (∀ id, id ∈ ids ↔
        id ∈ entries.map Prod.fst ∧ ∃ send, log.sends id = some send ∧ Hit send) ∧
      (pass entries (deleted, memory)).1 = deleted + ids.length ∧
      MemoryShows (pass entries (deleted, memory)).2 (change log ids) := by
  induction entries generalizing memory log deleted with
  | nil =>
    rw [hpass.pass_nil]
    exact ⟨[], nodup_nil, by simp, rfl, hshow.of_eq (hpass.change_nil log).symm⟩
  | cons entry entries ih =>
    obtain ⟨id, payload⟩ := entry
    obtain ⟨send, hsend, rfl⟩ := hcopied.2 _ mem_cons_self
    have hid : id ∉ entries.map Prod.fst := (nodup_cons.mp hcopied.1).1
    obtain ⟨⟨count, next⟩, hcons, hreached⟩ := hpass.pass_cons id send entries deleted hshow hsend
    rw [hcons]
    obtain ⟨hhit, rfl, hnext⟩ | ⟨hmiss, rfl, hnext⟩ := hreached
    · have hothers := hpass.change_other log id
      obtain ⟨ids, hnodup, hiff, hcount, hafter⟩ :=
        ih (hcopied.tail _ hothers) hnext (deleted + 1)
      rw [hpass.change_change] at hafter
      refine ⟨id :: ids, ?_, fun other => ?_, ?_, hafter⟩
      · refine nodup_cons.mpr ⟨fun hmem => ?_, hnodup⟩
        exact hid ((hiff id).mp hmem).1
      · rw [mem_cons, hiff, map_cons, mem_cons]
        by_cases hother : other = id
        · subst hother
          simp [hsend, hhit]
        · simp [hother, hothers other hother]
      · rw [hcount, length_cons]
        omega
    · obtain ⟨ids, hnodup, hiff, hcount, hafter⟩ :=
        ih (hcopied.tail log fun _ _ => rfl) hnext count
      refine ⟨ids, hnodup, fun other => ?_, hcount, hafter⟩
      rw [hiff, map_cons, mem_cons]
      by_cases hother : other = id
      · subst hother
        simp [hsend, hmiss, hid]
      · simp [hother]

theorem removeRecipients_pass (device : SendLogDevice) (clientTimestamps : List ℕ) :
    Pass (MemorySendLog.removeRecipients device clientTimestamps)
      (fun log ids => log.confirmAll device ids)
      fun send => ∃ responses, send.rows device = some responses ∧
        send.payload.clientTimestamp ∈ clientTimestamps where
  pass_nil _ := rfl
  change_nil _ := Log.confirmAll_nil device
  change_change _ _ _ := Log.confirmAll_append ..
  change_other _ _ _ hne := by simp [Log.confirmAll, hne]
  pass_cons := by
    intro memory log id send entries deleted hshow hsend
    by_cases htime : send.payload.clientTimestamp ∈ clientTimestamps
    · obtain ⟨hfound, hconf⟩ := hshow.removeRecipient hsend device
      refine ⟨_, if_pos htime, ?_⟩
      rw [hfound]
      cases hrow : send.rows device with
      | none =>
        rw [Send.confirmed_of_none hrow, Log.setSend_of_eq hsend] at hconf
        exact .inr ⟨by simp, rfl, hconf⟩
      | some responses =>
        rw [Log.setSend_eq_confirmAll hsend] at hconf
        exact .inl ⟨⟨responses, rfl, htime⟩, rfl, hconf⟩
    · refine ⟨_, if_neg htime, .inr ⟨?_, rfl, hshow⟩⟩
      rintro ⟨_, _, hhit⟩
      exact htime hhit

theorem removeExpired_pass :
    Pass (MemorySendLog.removeExpired now maxAgeMs) Log.dropAll
      fun send => expired now maxAgeMs send.payload.createdAt = true where
  pass_nil _ := rfl
  change_nil := Log.dropAll_nil
  change_change _ _ _ := Log.dropAll_dropAll ..
  change_other _ _ _ hne := by simp [Log.dropAll, hne]
  pass_cons := by
    intro memory log id send entries deleted hshow hsend
    by_cases hold : expired now maxAgeMs send.payload.createdAt = true
    · have hrem := hshow.removePayload id
      rw [Log.setSend_none_eq_dropAll] at hrem
      exact ⟨_, if_pos hold, .inl ⟨hold, rfl, hrem⟩⟩
    · exact ⟨_, if_neg hold, .inr ⟨hold, rfl, hshow⟩⟩

variable (hshow : MemoryShows memory log)
include hshow

theorem mem_ids {send : Send} (hsend : log.sends id = some send) :
    id ∈ memory.payloads.entries.map Prod.fst :=
  (memory.payloads.mem_keys_iff id).mpr ⟨send.payload, hshow.payload_of_send hsend⟩

theorem deleteRecipientsByTimestamp (device : SendLogDevice) (clientTimestamps : List ℕ) :
    log.Gives codeUnits now (.deleteSendLogRecipientsByTimestamp device clientTimestamps)
        (.count (MemorySendLog.removeRecipients device clientTimestamps memory.payloads.entries
          (0, memory)).1) ∧
      MemoryShows (MemorySendLog.removeRecipients device clientTimestamps memory.payloads.entries
          (0, memory)).2
        (log.after now (.deleteSendLogRecipientsByTimestamp device clientTimestamps)) := by
  obtain ⟨ids, hnodup, hiff, hcount, hafter⟩ :=
    (removeRecipients_pass device clientTimestamps).run hshow.copied hshow 0
  have hids : ∀ id, id ∈ ids ↔ ∃ send responses, log.Waits id send device responses ∧
      send.payload.clientTimestamp ∈ clientTimestamps := by
    intro id
    rw [hiff]
    constructor
    · rintro ⟨_, send, hsend, responses, hrow, htime⟩
      exact ⟨send, responses, ⟨hsend, hrow⟩, htime⟩
    · rintro ⟨send, responses, hwaits, htime⟩
      exact ⟨hshow.mem_ids hwaits.1, send, hwaits.1, responses, hwaits.2, htime⟩
  refine ⟨⟨_, rfl, ids, hnodup, hids, ?_⟩, hafter.of_eq (log.confirmAll_eq_after now hids)⟩
  rw [hcount, Nat.zero_add]

theorem deleteExpired :
    log.Gives codeUnits now (.deleteExpiredSendLog maxAgeMs)
        (memory.step now (.deleteExpiredSendLog maxAgeMs)).1 ∧
      MemoryShows (memory.step now (.deleteExpiredSendLog maxAgeMs)).2
        (log.after now (.deleteExpiredSendLog maxAgeMs)) := by
  obtain ⟨ids, hnodup, hiff, hcount, hafter⟩ :=
    (removeExpired_pass now maxAgeMs).run hshow.copied hshow 0
  have hids : ∀ id, id ∈ ids ↔ ∃ send, log.sends id = some send ∧
      expired now maxAgeMs send.payload.createdAt = true := by
    intro id
    rw [hiff]
    refine and_iff_right_of_imp ?_
    rintro ⟨send, hsend, _⟩
    exact hshow.mem_ids hsend
  have hsends : ∀ id, (log.dropAll ids).sends id =
      (log.after now (.deleteExpiredSendLog maxAgeMs)).sends id := by
    intro id
    change (if id ∈ ids then none else log.sends id) = (log.sends id).filter _
    rw [if_congr (hids id) rfl rfl]
    cases log.sends id with
    | none => simp
    | some send =>
      cases hold : expired now maxAgeMs send.payload.createdAt <;> simp [Option.filter, hold]
  refine ⟨⟨_, rfl, ids, hnodup, hids, ?_⟩, ?_, ?_, ?_⟩
  · rw [hcount, Nat.zero_add]
  · intro id
    rw [← hsends]
    exact hafter.payloads id
  · intro id device
    rw [← hsends]
    exact hafter.recipients id device
  · intro jobId
    refine (get?_filterEntries ..).trans ?_
    rw [hafter.jobs]
    rfl

theorem size_payloads :
    IsCount (fun id => ∃ send, log.sends id = some send) memory.payloads.size := by
  refine isCount_size _ fun id => ?_
  rw [hshow.payloads]
  cases log.sends id <;> simp

/-! ## Listings -/

theorem entry_eq (id : String) (device : SendLogDevice) :
    memory.entry id device = (log.sends id).bind fun send =>
      (send.rows device).map (send.entry device) := by
  unfold MemorySendLog.entry
  rw [hshow.payloads, hshow.recipients]
  cases log.sends id with
  | none => rfl
  | some send => cases hrow : send.rows device <;> simp [hrow, Send.entry]

variable (hlog : log.Sound)
include hlog

theorem entries_listing (device : SendLogDevice) (clientTimestamp : ℕ) :
    IsListing (entryKey codeUnits) (fun entry => ∃ id send responses,
        log.Waits id send device responses ∧ send.payload.clientTimestamp = clientTimestamp ∧
          send.entry device responses = entry)
      (sortBy (entryKey codeUnits) (memory.payloads.entries.filterMap fun entry =>
        if entry.2.clientTimestamp = clientTimestamp then memory.entry entry.1 device
        else none)) := by
  have hheld : ∀ id payload, (id, payload) ∈ memory.payloads.entries →
      ∃ send, log.sends id = some send ∧ send.payload = payload := fun id payload hentry =>
    hshow.copied.2 (id, payload) hentry
  refine isListing_sortBy (fun _ _ => (entryKey_inj codeUnits_injective).mp) ?_ ?_
  · have hids : memory.payloads.entries.Pairwise fun first second => first.1 ≠ second.1 :=
      pairwise_map.mp memory.payloads.nodup
    refine hids.filterMap _ ?_
    rintro ⟨id, payload⟩ ⟨other, content⟩ hne entry hentry second hsnd heq
    dsimp only at hne hentry hsnd
    split at hentry
    case isFalse => cases hentry
    split at hsnd
    case isFalse => cases hsnd
    rw [hshow.entry_eq] at hentry hsnd
    obtain ⟨send, hsend, hrow⟩ := Option.bind_eq_some_iff.mp hentry
    obtain ⟨held, hheld, hheldRow⟩ := Option.bind_eq_some_iff.mp hsnd
    obtain ⟨_, _, rfl⟩ := Option.map_eq_some_iff.mp hrow
    obtain ⟨_, _, rfl⟩ := Option.map_eq_some_iff.mp hheldRow
    exact hne ((hlog.id id send hsend).symm.trans (heq.trans (hlog.id other held hheld)))
  · intro entry
    rw [mem_filterMap]
    constructor
    · rintro ⟨⟨id, payload⟩, hmem, hentry⟩
      obtain ⟨send, hsend, rfl⟩ := hheld id payload hmem
      dsimp only at hentry
      split at hentry
      case isTrue htime =>
        rw [hshow.entry_eq, hsend, Option.bind_some] at hentry
        obtain ⟨responses, hrow, rfl⟩ := Option.map_eq_some_iff.mp hentry
        exact ⟨id, send, responses, ⟨hsend, hrow⟩, htime, rfl⟩
      case isFalse => cases hentry
    · rintro ⟨id, send, responses, hwaits, rfl, rfl⟩
      refine ⟨(id, send.payload),
        (memory.payloads.get?_eq_some_iff ..).mp (hshow.payload_of_send hwaits.1), ?_⟩
      rw [if_pos rfl, hshow.entry_eq, hwaits.1, Option.bind_some, hwaits.2]
      rfl

omit hlog in
theorem rows_listing (id : String) :
    IsListing (deviceKey codeUnits) (fun row => ∃ send device responses,
        log.Waits id send device responses ∧ send.recipient device responses = row)
      (sortBy (deviceKey codeUnits) (memory.rowsOf id).values) := by
  have hget : ∀ device row, (memory.rowsOf id).get? device = some row ↔ ∃ send responses,
      log.Waits id send device responses ∧ send.recipient device responses = row := by
    intro device row
    rw [← MemorySendLog.row?_eq, hshow.recipients, Option.bind_eq_some_iff]
    simp only [Option.map_eq_some_iff, Log.Waits, and_assoc, exists_and_left]
  have hdevs : (memory.rowsOf id).values.map (·.device) = (memory.rowsOf id).keys := by
    unfold OrderedMap.values OrderedMap.keys
    rw [List.map_map]
    refine map_congr_left ?_
    rintro ⟨device, row⟩ hentry
    obtain ⟨send, responses, _, rfl⟩ := (hget device row).mp
      ((get?_eq_some_iff ..).mpr hentry)
    rfl
  have hpairwise : (memory.rowsOf id).values.Pairwise fun first second =>
      first.device ≠ second.device :=
    pairwise_map.mp (hdevs ▸ (memory.rowsOf id).keys_nodup)
  refine isListing_sortBy (fun _ _ => (deviceKey_inj codeUnits_injective).mp) hpairwise ?_
  intro row
  rw [mem_values_iff]
  simp only [hget]
  exact exists_comm

end MemoryShows

theorem MemorySendLog.step_shows {memory : MemorySendLog} {log : Log} (hlog : log.Sound)
    (hshow : MemoryShows memory log) (now : ℕ) (call : Call) :
    log.Gives codeUnits now call (memory.step now call).1 ∧
      MemoryShows (memory.step now call).2 (log.after now call) := by
  cases call with
  | storeSendLogEntry payload recipients =>
    refine ⟨rfl, ?_⟩
    rw [Log.after_store]
    have hrem := hshow.removePayload payload.clientMessageId
    have hput := hrem.setPayload payload.clientMessageId
      (Send.started (payload.stored now) []) fun device => by
        rw [← MemorySendLog.row?_eq, hrem.recipients, Log.setSend_self]
        simp [Send.started]
    have hid : (Send.started (payload.stored now) []).payload.clientMessageId =
        payload.clientMessageId := rfl
    have hadded := hput.addRecipients _ hid (Log.setSend_self ..) recipients
    rw [Log.setSend_setSend, Log.setSend_setSend] at hadded
    have hstart : (Send.started (payload.stored now) []).append recipients =
        Send.started (payload.stored now) recipients := by
      simp [Send.started, Send.append]
    rw [hstart] at hadded
    exact hadded
  | appendSendLogRecipients id recipients =>
    rw [Log.after_append]
    simp only [MemorySendLog.step, hshow.payloads]
    cases hsend : log.sends id with
    | none => exact ⟨rfl, hshow.of_eq (Log.setSend_of_eq hsend).symm⟩
    | some send => exact ⟨rfl, hshow.addRecipients send (hlog.id id send hsend) hsend recipients⟩
  | markSendLogComplete id =>
    rw [Log.after_complete]
    simp only [MemorySendLog.step, hshow.payloads]
    cases hsend : log.sends id with
    | none => exact ⟨rfl, hshow.of_eq (Log.setSend_of_eq hsend).symm⟩
    | some send =>
      have hput := hshow.setPayload id send.completed fun device =>
        (hshow.rowsOf hsend device).trans rfl
      have hrem := hput.removeFinishedPayload (Log.setSend_self ..)
      rw [Log.setSend_setSend] at hrem
      exact ⟨rfl, hrem⟩
  | getSendLogEntry id recipient =>
    exact ⟨congrArg Answer.entry (hshow.entry_eq id recipient), hshow⟩
  | findSendLogEntries recipient clientTimestamp =>
    exact ⟨⟨_, rfl, hshow.entries_listing hlog recipient clientTimestamp⟩, hshow⟩
  | getSendLogRecipients id => exact ⟨⟨_, rfl, hshow.rows_listing id⟩, hshow⟩
  | deleteSendLogRecipient id recipient =>
    rw [Log.after_confirm]
    simp only [Log.Gives]
    cases hsend : log.sends id with
    | none =>
      have hrow : (memory.rowsOf id).has recipient = false := by
        rw [OrderedMap.has, ← MemorySendLog.row?_eq, hshow.recipients, hsend]
        rfl
      have hrem : memory.removeRecipient id recipient = (false, memory) := by
        unfold MemorySendLog.removeRecipient
        unfold MemorySendLog.rowsOf at hrow
        cases hrows : memory.recipients.get? id with
        | none => rfl
        | some rows =>
          rw [hrows, Option.getD_some] at hrow
          simp [hrow]
      simp only [MemorySendLog.step, hrem]
      exact ⟨rfl, hshow.of_eq (Log.setSend_of_eq hsend).symm⟩
    | some send =>
      obtain ⟨hfound, hconf⟩ := hshow.removeRecipient hsend recipient
      exact ⟨congrArg Answer.deleted hfound, hconf⟩
  | deleteSendLogRecipientsByTimestamp recipient clientTimestamps =>
    exact hshow.deleteRecipientsByTimestamp now recipient clientTimestamps
  | incrementSendLogResendCount id recipient =>
    rw [Log.after_counted]
    have hrow : (memory.rowsOf id).get? recipient =
        (log.sends id).bind fun send => (send.rows recipient).map (send.recipient recipient) := by
      rw [← MemorySendLog.row?_eq, hshow.recipients]
    have hnothing : (log.sends id).bind (fun send => send.rows recipient) = none →
        log.Gives codeUnits now (.incrementSendLogResendCount id recipient)
            (.responses none) ∧
          MemoryShows memory (log.setSend id ((log.sends id).map (·.counted recipient))) := by
      intro hnone
      cases hsend : log.sends id with
      | none => exact ⟨by simp [Log.Gives, hsend], hshow.of_eq (Log.setSend_of_eq hsend).symm⟩
      | some send =>
        rw [hsend, Option.bind_some] at hnone
        refine ⟨by simp [Log.Gives, hsend, hnone], hshow.of_eq ?_⟩
        rw [Option.map_some, Send.counted_of_none hnone]
        exact (Log.setSend_of_eq hsend).symm
    simp only [MemorySendLog.step]
    cases hrows : memory.recipients.get? id with
    | none =>
      apply hnothing
      simp only [MemorySendLog.rowsOf, hrows] at hrow
      cases hsend : log.sends id with
      | none => rfl
      | some send =>
        rw [hsend] at hrow
        exact Option.map_eq_none_iff.mp hrow.symm
    | some rows =>
      have hheld : memory.rowsOf id = rows := by simp [MemorySendLog.rowsOf, hrows]
      rw [hheld] at hrow
      dsimp only
      cases hget : rows.get? recipient with
      | none =>
        apply hnothing
        rw [hget] at hrow
        cases hsend : log.sends id with
        | none => rfl
        | some send =>
          rw [hsend] at hrow
          exact Option.map_eq_none_iff.mp hrow.symm
      | some row =>
        rw [hget] at hrow
        obtain ⟨send, hsend, hsome⟩ := Option.bind_eq_some_iff.mp hrow.symm
        obtain ⟨responses, hresponses, rfl⟩ := Option.map_eq_some_iff.mp hsome
        have hwaits : log.Waits id send recipient responses := ⟨hsend, hresponses⟩
        have hset := hshow.setRow hwaits
        rw [hheld] at hset
        rw [hsend]
        refine ⟨?_, hset⟩
        simp [Log.Gives, hsend, hresponses, Send.recipient]
  | deleteSendLogEntry id =>
    rw [Log.after_deleted]
    refine ⟨?_, hshow.removePayload id⟩
    simp [Log.Gives, MemorySendLog.step, OrderedMap.has, hshow.payloads]
  | deleteExpiredSendLog maxAgeMs => exact hshow.deleteExpired now maxAgeMs
  | clearSendLog => exact ⟨⟨_, rfl, hshow.size_payloads⟩, MemoryShows.empty⟩
  | storeResendJob job =>
    refine ⟨rfl, ?_⟩
    rw [Log.after_storeJob]
    simp only [MemorySendLog.step, hshow.jobs]
    exact hshow.setJob
      { job with createdAt := ((log.jobs job.jobId).map (·.createdAt)).getD now }
  | getResendJob jobId =>
    refine ⟨?_, hshow⟩
    simp only [Log.Gives, MemorySendLog.step, hshow.jobs]
  | getPendingResendJobs =>
    exact ⟨⟨_, rfl, hlog.jobs_listing hshow.jobs codeUnits_injective⟩, hshow⟩
  | completeResendJob jobId state =>
    rw [Log.after_completeJob]
    simp only [MemorySendLog.step, hshow.jobs]
    cases hjob : log.jobs jobId with
    | none => exact ⟨rfl, hshow.of_eq (Log.setJob_of_eq hjob).symm⟩
    | some job =>
      have hid : job.jobId = jobId := hlog.job jobId job hjob
      subst hid
      exact ⟨rfl, hshow.setJob { job with state := state.state }⟩

end SignalProtocol.SendLog

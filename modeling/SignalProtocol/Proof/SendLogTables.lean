import SignalProtocol.SendLog.Records

/-! # What a send log is for

A log of sends, each with its content and the devices that have not confirmed it, and of resend
jobs. -/

namespace SignalProtocol.SendLog

open Listing List Option

variable {clientMessageId : String} {now : ℕ}

structure Send where
  payload : SendLogPayload
  rows : SendLogDevice → Option ℕ

namespace Send

variable (send : Send)

def recipient (device : SendLogDevice) (responses : ℕ) : SendLogRecipient where
  clientMessageId := send.payload.clientMessageId
  device := device
  clientTimestamp := send.payload.clientTimestamp
  responses := responses

def entry (device : SendLogDevice) (responses : ℕ) : SendLogEntry where
  payload := send.payload
  recipient := send.recipient device responses

def Finished : Prop := send.payload.sendComplete = true ∧ ∀ device, send.rows device = none

open Classical in
noncomputable def settled : Option Send := if send.Finished then none else some send

def started (payload : SendLogPayload) (devices : List SendLogDevice) : Send where
  payload := payload
  rows device := if device ∈ devices then some 0 else none

def append (devices : List SendLogDevice) : Send :=
  { send with
    rows := fun device =>
      (send.rows device).or (if device ∈ devices then some 0 else none) }

def completed : Send := { send with payload := { send.payload with sendComplete := true } }

def without (device : SendLogDevice) : Send :=
  { send with rows := Function.update send.rows device none }

noncomputable def confirmed (device : SendLogDevice) : Option Send :=
  if (send.rows device).isSome then (send.without device).settled else some send

def counted (device : SendLogDevice) : Send :=
  { send with rows := Function.update send.rows device ((send.rows device).map (· + 1)) }

end Send

structure Log where
  sends : String → Option Send
  jobs : String → Option SendLogResendJob

namespace Log

def empty : Log := ⟨fun _ => none, fun _ => none⟩

variable (log : Log)

def Waits (clientMessageId : String) (send : Send) (device : SendLogDevice) (responses : ℕ) :
    Prop :=
  log.sends clientMessageId = some send ∧ send.rows device = some responses

noncomputable def sendAfter (now : ℕ) (clientMessageId : String) (send : Option Send) :
    Call → Option Send
  | .storeSendLogEntry payload recipients =>
    if payload.clientMessageId = clientMessageId then
      some (Send.started (payload.stored now) recipients)
    else send
  | .appendSendLogRecipients id recipients =>
    if id = clientMessageId then send.map (·.append recipients) else send
  | .markSendLogComplete id =>
    if id = clientMessageId then send.bind (·.completed.settled) else send
  | .deleteSendLogRecipient id recipient =>
    if id = clientMessageId then send.bind (·.confirmed recipient) else send
  | .deleteSendLogRecipientsByTimestamp recipient clientTimestamps =>
    send.bind fun send =>
      if send.payload.clientTimestamp ∈ clientTimestamps then send.confirmed recipient
      else some send
  | .incrementSendLogResendCount id recipient =>
    if id = clientMessageId then send.map (·.counted recipient) else send
  | .deleteSendLogEntry id => if id = clientMessageId then none else send
  | .deleteExpiredSendLog maxAgeMs =>
    send.filter fun send => !expired now maxAgeMs send.payload.createdAt
  | .clearSendLog => none
  | .getSendLogEntry _ _ => send
  | .findSendLogEntries _ _ => send
  | .getSendLogRecipients _ => send
  | .storeResendJob _ => send
  | .getResendJob _ => send
  | .getPendingResendJobs => send
  | .completeResendJob _ _ => send

def jobAfter (now : ℕ) (jobId : String) (job : Option SendLogResendJob) :
    Call → Option SendLogResendJob
  | .deleteExpiredSendLog maxAgeMs => job.filter fun job => !expired now maxAgeMs job.createdAt
  | .clearSendLog => none
  | .storeResendJob stored =>
    if stored.jobId = jobId then
      some { stored with createdAt := (job.map (·.createdAt)).getD now }
    else job
  | .completeResendJob id state =>
    if id = jobId then job.map fun job => { job with state := state.state } else job
  | .storeSendLogEntry _ _ => job
  | .appendSendLogRecipients _ _ => job
  | .markSendLogComplete _ => job
  | .getSendLogEntry _ _ => job
  | .findSendLogEntries _ _ => job
  | .getSendLogRecipients _ => job
  | .deleteSendLogRecipient _ _ => job
  | .deleteSendLogRecipientsByTimestamp _ _ => job
  | .incrementSendLogResendCount _ _ => job
  | .deleteSendLogEntry _ => job
  | .getResendJob _ => job
  | .getPendingResendJobs => job

noncomputable def after (now : ℕ) (call : Call) : Log where
  sends clientMessageId := sendAfter now clientMessageId (log.sends clientMessageId) call
  jobs jobId := jobAfter now jobId (log.jobs jobId) call

def Gives (order : TextOrder) (now : ℕ) : Call → Answer → Prop
  | .getSendLogEntry id recipient, answer =>
    answer = .entry ((log.sends id).bind fun send =>
      (send.rows recipient).map (send.entry recipient))
  | .findSendLogEntries recipient clientTimestamp, answer =>
    ∃ entries, answer = .entries entries ∧
      IsListing (entryKey order) (fun entry => ∃ id send responses,
        log.Waits id send recipient responses ∧
          send.payload.clientTimestamp = clientTimestamp ∧
          send.entry recipient responses = entry) entries
  | .getSendLogRecipients id, answer =>
    ∃ rows, answer = .recipients rows ∧
      IsListing (deviceKey order) (fun row => ∃ send device responses,
        log.Waits id send device responses ∧ send.recipient device responses = row) rows
  | .deleteSendLogRecipient id recipient, answer =>
    answer = .deleted ((log.sends id).any fun send => (send.rows recipient).isSome)
  | .deleteSendLogRecipientsByTimestamp recipient clientTimestamps, answer =>
    ∃ count, answer = .count count ∧
      IsCount (fun id => ∃ send responses, log.Waits id send recipient responses ∧
        send.payload.clientTimestamp ∈ clientTimestamps) count
  | .incrementSendLogResendCount id recipient, answer =>
    answer = .responses ((log.sends id).bind fun send =>
      (send.rows recipient).map (· + 1))
  | .deleteSendLogEntry id, answer => answer = .deleted (log.sends id).isSome
  | .deleteExpiredSendLog maxAgeMs, answer =>
    ∃ count, answer = .count count ∧
      IsCount (fun id => ∃ send, log.sends id = some send ∧
        expired now maxAgeMs send.payload.createdAt = true) count
  | .clearSendLog, answer =>
    ∃ count, answer = .count count ∧ IsCount (fun id => ∃ send, log.sends id = some send) count
  | .getResendJob jobId, answer => answer = .job (log.jobs jobId)
  | .getPendingResendJobs, answer =>
    ∃ jobs, answer = .jobs jobs ∧
      IsListing (jobKey order) (fun job => ∃ jobId, log.jobs jobId = some job ∧
        job.state = .pending) jobs
  | .storeSendLogEntry _ _, answer => answer = .done
  | .appendSendLogRecipients _ _, answer => answer = .done
  | .markSendLogComplete _, answer => answer = .done
  | .storeResendJob _, answer => answer = .done
  | .completeResendJob _ _, answer => answer = .done

variable {log}

theorem Gives.unique {order : TextOrder} {call : Call} {answer other : Answer}
    (hanswer : log.Gives order now call answer) (hother : log.Gives order now call other) :
    answer = other := by
  cases call with
  | getSendLogEntry => exact Eq.trans hanswer (Eq.symm hother)
  | deleteSendLogRecipient => exact Eq.trans hanswer (Eq.symm hother)
  | incrementSendLogResendCount => exact Eq.trans hanswer (Eq.symm hother)
  | deleteSendLogEntry => exact Eq.trans hanswer (Eq.symm hother)
  | getResendJob => exact Eq.trans hanswer (Eq.symm hother)
  | storeSendLogEntry => exact Eq.trans hanswer (Eq.symm hother)
  | appendSendLogRecipients => exact Eq.trans hanswer (Eq.symm hother)
  | markSendLogComplete => exact Eq.trans hanswer (Eq.symm hother)
  | storeResendJob => exact Eq.trans hanswer (Eq.symm hother)
  | completeResendJob => exact Eq.trans hanswer (Eq.symm hother)
  | findSendLogEntries =>
    obtain ⟨entries, rfl, hentries⟩ := hanswer
    obtain ⟨others, rfl, hothers⟩ := hother
    rw [hentries.unique hothers]
  | getSendLogRecipients =>
    obtain ⟨rows, rfl, hrows⟩ := hanswer
    obtain ⟨others, rfl, hothers⟩ := hother
    rw [hrows.unique hothers]
  | getPendingResendJobs =>
    obtain ⟨jobs, rfl, hjobs⟩ := hanswer
    obtain ⟨others, rfl, hothers⟩ := hother
    rw [hjobs.unique hothers]
  | deleteSendLogRecipientsByTimestamp =>
    obtain ⟨count, rfl, hcount⟩ := hanswer
    obtain ⟨deleted, rfl, hdeleted⟩ := hother
    rw [hcount.unique hdeleted]
  | deleteExpiredSendLog =>
    obtain ⟨count, rfl, hcount⟩ := hanswer
    obtain ⟨deleted, rfl, hdeleted⟩ := hother
    rw [hcount.unique hdeleted]
  | clearSendLog =>
    obtain ⟨count, rfl, hcount⟩ := hanswer
    obtain ⟨deleted, rfl, hdeleted⟩ := hother
    rw [hcount.unique hdeleted]

/-- A send that is complete still waits for a device. -/
structure Sound (log : Log) : Prop where
  id : ∀ clientMessageId send, log.sends clientMessageId = some send →
    send.payload.clientMessageId = clientMessageId
  waits : ∀ clientMessageId send, log.sends clientMessageId = some send →
    send.payload.sendComplete = true → ∃ device responses, send.rows device = some responses
  job : ∀ jobId job, log.jobs jobId = some job → job.jobId = jobId

theorem Sound.empty : Sound Log.empty where
  id := by rintro clientMessageId send ⟨⟩
  waits := by rintro clientMessageId send ⟨⟩
  job := by rintro jobId job ⟨⟩

end Log

/-- A send that a log may hold under an ID. -/
def Send.Sound (send : Send) (clientMessageId : String) : Prop :=
  send.payload.clientMessageId = clientMessageId ∧
    (send.payload.sendComplete = true → ∃ device responses, send.rows device = some responses)

theorem Send.not_finished_iff (send : Send) :
    ¬ send.Finished ↔
      (send.payload.sendComplete = true → ∃ device responses, send.rows device = some responses) := by
  simp only [Finished, not_and, not_forall, ← ne_eq, ne_none_iff_exists']

theorem Send.settled_eq_some_iff {send kept : Send} :
    send.settled = some kept ↔ ¬ send.Finished ∧ send = kept := by
  unfold settled
  split
  case isTrue hfin => simp [hfin]
  case isFalse hfin => simp [hfin]

theorem Send.settled_sound {send kept : Send}
    (hid : send.payload.clientMessageId = clientMessageId) (hkept : send.settled = some kept) :
    kept.Sound clientMessageId := by
  obtain ⟨hfin, rfl⟩ := settled_eq_some_iff.mp hkept
  exact ⟨hid, send.not_finished_iff.mp hfin⟩

theorem Send.confirmed_sound {send kept : Send}
    {device : SendLogDevice} (hsound : send.Sound clientMessageId)
    (hkept : send.confirmed device = some kept) : kept.Sound clientMessageId := by
  have hid : (send.without device).payload.clientMessageId = clientMessageId := hsound.1
  unfold confirmed at hkept
  split at hkept
  · exact settled_sound hid hkept
  · cases hkept
    exact hsound

theorem Log.Sound.send {log : Log} (hlog : log.Sound) {send : Send}
    (hsend : log.sends clientMessageId = some send) : send.Sound clientMessageId :=
  ⟨hlog.id clientMessageId send hsend, hlog.waits clientMessageId send hsend⟩

theorem Log.sendAfter_sound {before : Option Send} {call : Call} {send : Send}
    (hbefore : ∀ send, before = some send → send.Sound clientMessageId)
    (hsend : sendAfter now clientMessageId before call = some send) :
    send.Sound clientMessageId := by
  cases call with
  | storeSendLogEntry payload recipients =>
    simp only [sendAfter] at hsend
    split at hsend
    case isTrue hid =>
      cases hsend
      exact ⟨hid, by rintro ⟨⟩⟩
    case isFalse => exact hbefore send hsend
  | appendSendLogRecipients id recipients =>
    simp only [sendAfter] at hsend
    split at hsend
    · obtain ⟨earlier, hprev, rfl⟩ := map_eq_some_iff.mp hsend
      obtain ⟨hid, hwaits⟩ := hbefore earlier hprev
      refine ⟨hid, fun hcompl => ?_⟩
      obtain ⟨device, responses, hrow⟩ := hwaits hcompl
      exact ⟨device, responses, by simp [Send.append, hrow]⟩
    · exact hbefore send hsend
  | markSendLogComplete id =>
    simp only [sendAfter] at hsend
    split at hsend
    · obtain ⟨earlier, hprev, hkept⟩ := bind_eq_some_iff.mp hsend
      have hid : earlier.completed.payload.clientMessageId = clientMessageId :=
        (hbefore earlier hprev).1
      exact Send.settled_sound hid hkept
    · exact hbefore send hsend
  | deleteSendLogRecipient id recipient =>
    simp only [sendAfter] at hsend
    split at hsend
    · obtain ⟨earlier, hprev, hkept⟩ := bind_eq_some_iff.mp hsend
      exact Send.confirmed_sound (hbefore earlier hprev) hkept
    · exact hbefore send hsend
  | deleteSendLogRecipientsByTimestamp recipient clientTimestamps =>
    simp only [sendAfter] at hsend
    obtain ⟨earlier, hprev, hkept⟩ := bind_eq_some_iff.mp hsend
    split at hkept
    · exact Send.confirmed_sound (hbefore earlier hprev) hkept
    · cases hkept
      exact hbefore send hprev
  | incrementSendLogResendCount id recipient =>
    simp only [sendAfter] at hsend
    split at hsend
    · obtain ⟨earlier, hprev, rfl⟩ := map_eq_some_iff.mp hsend
      obtain ⟨hid, hwaits⟩ := hbefore earlier hprev
      refine ⟨hid, fun hcompl => ?_⟩
      obtain ⟨device, responses, hrow⟩ := hwaits hcompl
      by_cases hdev : device = recipient
      · subst hdev
        exact ⟨device, responses + 1, by simp [Send.counted, hrow]⟩
      · exact ⟨device, responses, by simp [Send.counted, hdev, hrow]⟩
    · exact hbefore send hsend
  | deleteSendLogEntry id =>
    simp only [sendAfter] at hsend
    split at hsend
    · cases hsend
    · exact hbefore send hsend
  | deleteExpiredSendLog maxAgeMs =>
    exact hbefore send (filter_eq_some_iff.mp hsend).1
  | clearSendLog => cases hsend
  | getSendLogEntry => exact hbefore send hsend
  | findSendLogEntries => exact hbefore send hsend
  | getSendLogRecipients => exact hbefore send hsend
  | storeResendJob => exact hbefore send hsend
  | getResendJob => exact hbefore send hsend
  | getPendingResendJobs => exact hbefore send hsend
  | completeResendJob => exact hbefore send hsend

theorem Log.jobAfter_sound {jobId : String} {before : Option SendLogResendJob} {call : Call}
    {job : SendLogResendJob} (hbefore : ∀ job, before = some job → job.jobId = jobId)
    (hjob : jobAfter now jobId before call = some job) : job.jobId = jobId := by
  cases call with
  | deleteExpiredSendLog maxAgeMs => exact hbefore job (filter_eq_some_iff.mp hjob).1
  | clearSendLog => cases hjob
  | storeResendJob stored =>
    simp only [jobAfter] at hjob
    split at hjob
    case isTrue hid =>
      cases hjob
      exact hid
    case isFalse => exact hbefore job hjob
  | completeResendJob id state =>
    simp only [jobAfter] at hjob
    split at hjob
    · obtain ⟨earlier, hprev, rfl⟩ := map_eq_some_iff.mp hjob
      exact hbefore earlier hprev
    · exact hbefore job hjob
  | storeSendLogEntry => exact hbefore job hjob
  | appendSendLogRecipients => exact hbefore job hjob
  | markSendLogComplete => exact hbefore job hjob
  | getSendLogEntry => exact hbefore job hjob
  | findSendLogEntries => exact hbefore job hjob
  | getSendLogRecipients => exact hbefore job hjob
  | deleteSendLogRecipient => exact hbefore job hjob
  | deleteSendLogRecipientsByTimestamp => exact hbefore job hjob
  | incrementSendLogResendCount => exact hbefore job hjob
  | deleteSendLogEntry => exact hbefore job hjob
  | getResendJob => exact hbefore job hjob
  | getPendingResendJobs => exact hbefore job hjob

theorem Log.Sound.after {log : Log} (hlog : log.Sound) (now : ℕ) (call : Call) :
    (log.after now call).Sound where
  id _ _ hsend := (sendAfter_sound (fun _ => hlog.send) hsend).1
  waits _ _ hsend := (sendAfter_sound (fun _ => hlog.send) hsend).2
  job jobId _ hjob := jobAfter_sound (hlog.job jobId) hjob

/-! ## The orders of the texts

Both orders tell two texts apart, so a listing has one order and no two entries of it are alike. -/

variable {order : TextOrder}

theorem charUnits_cases (char : Char) :
    (char.toNat < 0x10000 ∧ charUnits char = [char.toNat] ∧
      (char.toNat < 0xd800 ∨ 0xdfff < char.toNat)) ∨
    (0x10000 ≤ char.toNat ∧ char.toNat < 0x110000 ∧
      charUnits char = [0xd800 + (char.toNat - 0x10000) / 0x400,
        0xdc00 + (char.toNat - 0x10000) % 0x400]) := by
  have hvalid : char.toNat < 0xd800 ∨ 0xdfff < char.toNat ∧ char.toNat < 0x110000 := char.valid
  by_cases hsmall : char.toNat < 0x10000
  · refine .inl ⟨hsmall, if_pos hsmall, ?_⟩
    omega
  · refine .inr ⟨by omega, by omega, if_neg hsmall⟩

theorem charUnits_append_inj {char other : Char} {rest following : List ℕ}
    (heq : charUnits char ++ rest = charUnits other ++ following) :
    char = other ∧ rest = following := by
  have hchar : char.toNat = other.toNat → char = other := fun hnat => Char.toNat_inj.mp hnat
  obtain ⟨_, hunits, hrange⟩ | ⟨hlarge, hbound, hunits⟩ := charUnits_cases char <;>
    obtain ⟨_, hothers, horange⟩ | ⟨holarge, hobound, hothers⟩ := charUnits_cases other <;>
    rw [hunits, hothers] at heq <;>
    simp only [cons_append, nil_append, List.cons.injEq] at heq
  · exact ⟨hchar heq.1, heq.2⟩
  · omega
  · omega
  · refine ⟨hchar ?_, heq.2.2⟩
    omega

theorem codeUnits_injective : Function.Injective codeUnits := by
  intro text other heq
  apply String.toList_injective
  unfold codeUnits at heq
  generalize text.toList = chars at heq ⊢
  generalize other.toList = others at heq ⊢
  have hne : ∀ char, charUnits char ≠ [] := by
    intro char hnil
    unfold charUnits at hnil
    split at hnil <;> cases hnil
  induction chars generalizing others with
  | nil =>
    cases others with
    | nil => rfl
    | cons first others => simp [hne] at heq
  | cons char chars ih =>
    cases others with
    | nil => simp [hne] at heq
    | cons first others =>
      rw [flatMap_cons, flatMap_cons] at heq
      obtain ⟨rfl, hrest⟩ := charUnits_append_inj heq
      rw [ih others hrest]

theorem codePoints_injective : Function.Injective codePoints := by
  intro text other heq
  apply String.toList_injective
  exact map_injective_iff.mpr (fun _ _ => Char.toNat_inj.mp) heq

section

variable (horder : Function.Injective order)

include horder

theorem deviceKey_inj {row other : SendLogRecipient} :
    deviceKey order row = deviceKey order other ↔ row.device = other.device := by
  obtain ⟨_, ⟨userId, deviceId⟩, _, _⟩ := row
  obtain ⟨_, ⟨otherUserId, otherDeviceId⟩, _, _⟩ := other
  simp [deviceKey, horder.eq_iff]

theorem entryKey_inj {entry other : SendLogEntry} :
    entryKey order entry = entryKey order other ↔
      entry.payload.clientMessageId = other.payload.clientMessageId :=
  horder.eq_iff

theorem jobKey_inj {job other : SendLogResendJob}
    (heq : jobKey order job = jobKey order other) : job.jobId = other.jobId :=
  horder (congrArg (fun key => (ofLex key).2) heq)

end

theorem isListing_sortBy {α β κ : Type} [LinearOrder κ] {key : α → κ} {name : α → β}
    {holds : α → Prop} {values : List α}
    (hkey : ∀ value other, key value = key other → name value = name other)
    (hnames : values.Pairwise fun first second => name first ≠ name second)
    (hmem : ∀ value, value ∈ values ↔ holds value) : IsListing key holds (sortBy key values) := by
  refine IsListing.sortBy (pairwise_map.mpr ?_) hmem
  exact hnames.imp fun hne heq => hne (hkey _ _ heq)

end SignalProtocol.SendLog

/-! ## The tables show the log

The payload table and the recipient table hold the sends of a log, row by row. -/

namespace SignalProtocol.SendLog

open Listing List OrderedMap

variable {id : String} {clientMessageId : String}

namespace Log

variable (log : Log)

def setSend (clientMessageId : String) (send : Option Send) : Log :=
  { log with sends := Function.update log.sends clientMessageId send }

def setJob (jobId : String) (job : Option SendLogResendJob) : Log :=
  { log with jobs := Function.update log.jobs jobId job }

noncomputable def confirmAll (device : SendLogDevice) (ids : List String) : Log :=
  { log with
    sends := fun id => if id ∈ ids then (log.sends id).bind (·.confirmed device) else log.sends id }

@[simp] theorem setSend_self (clientMessageId : String) (send : Option Send) :
    (log.setSend clientMessageId send).sends clientMessageId = send :=
  Function.update_self ..

theorem setSend_of_ne {other : String} (send : Option Send) (hne : other ≠ clientMessageId) :
    (log.setSend clientMessageId send).sends other = log.sends other :=
  Function.update_of_ne hne ..

@[simp] theorem setJob_self (jobId : String) (job : Option SendLogResendJob) :
    (log.setJob jobId job).jobs jobId = job :=
  Function.update_self ..

theorem setJob_of_ne {jobId other : String} (job : Option SendLogResendJob)
    (hne : other ≠ jobId) : (log.setJob jobId job).jobs other = log.jobs other :=
  Function.update_of_ne hne ..

end Log

theorem Send.counted_of_none {send : Send} {device : SendLogDevice}
    (hrow : send.rows device = none) : send.counted device = send := by
  unfold counted
  rw [hrow, Option.map_none, ← hrow, Function.update_eq_self]

theorem Send.confirmed_waits {send kept : Send} {device : SendLogDevice}
    (hkept : send.confirmed device = some kept) :
    kept.rows device = none ∧ kept.payload = send.payload := by
  unfold confirmed at hkept
  split at hkept
  · obtain ⟨_, rfl⟩ := settled_eq_some_iff.mp hkept
    exact ⟨by simp [without], rfl⟩
  case isFalse hrow =>
    cases hkept
    exact ⟨by simpa using hrow, rfl⟩

theorem Send.confirmed_of_none {send : Send} {device : SendLogDevice}
    (hrow : send.rows device = none) : send.confirmed device = some send := by
  simp [confirmed, hrow]

theorem Log.confirmAll_append (log : Log) (device : SendLogDevice) (first second : List String) :
    (log.confirmAll device first).confirmAll device second =
      log.confirmAll device (first ++ second) := by
  unfold confirmAll
  congr 1
  funext id
  by_cases hfst : id ∈ first
  · by_cases hsnd : id ∈ second
    · simp only [hfst, hsnd, if_true, mem_append, or_self]
      cases hsend : log.sends id with
      | none => rfl
      | some send =>
        cases hkept : send.confirmed device with
        | none => simp [hkept]
        | some kept =>
          simp [hkept, Send.confirmed_of_none (Send.confirmed_waits hkept).1]
    · simp [hfst, hsnd]
  · by_cases hsnd : id ∈ second <;> simp [hfst, hsnd]

theorem Log.confirmAll_eq_after (log : Log) (now : ℕ) {device : SendLogDevice}
    {clientTimestamps : List ℕ} {ids : List String}
    (hids : ∀ id, id ∈ ids ↔ ∃ send responses, log.Waits id send device responses ∧
      send.payload.clientTimestamp ∈ clientTimestamps) :
    log.confirmAll device ids =
      log.after now (.deleteSendLogRecipientsByTimestamp device clientTimestamps) := by
  unfold confirmAll after
  congr 1
  funext id
  simp only [sendAfter]
  cases hsend : log.sends id with
  | none => simp
  | some send =>
    by_cases hmem : id ∈ ids
    · obtain ⟨held, responses, hwaits, htime⟩ := (hids id).mp hmem
      obtain rfl : send = held := Option.some_injective _ (hsend.symm.trans hwaits.1)
      simp [hmem, htime]
    · by_cases htime : send.payload.clientTimestamp ∈ clientTimestamps
      · have hrow : send.rows device = none := by
          cases hrow : send.rows device with
          | none => rfl
          | some responses =>
            exact absurd ((hids id).mpr ⟨send, responses, ⟨hsend, hrow⟩, htime⟩) hmem
        simp [hmem, htime, Send.confirmed_of_none hrow]
      · simp [hmem, htime]

theorem Log.after_of_jobs {log other : Log} {now : ℕ} {call : Call}
    (hsends : ∀ id, other.sends id = sendAfter now id (log.sends id) call)
    (hjobs : ∀ jobId, other.jobs jobId = jobAfter now jobId (log.jobs jobId) call) :
    other = log.after now call := by
  obtain ⟨sends, jobs⟩ := other
  unfold after
  congr 1
  · funext id
    exact hsends id
  · funext jobId
    exact hjobs jobId

structure TablesShow (tables : Tables) (log : Log) : Prop where
  payloads : ∀ id, tables.payloads.get? id = (log.sends id).map (·.payload)
  recipients : ∀ id device, tables.recipients.get? (id, device) =
    (log.sends id).bind fun send => (send.rows device).map (send.recipient device)
  jobs : ∀ jobId, tables.resendJobs.get? jobId = log.jobs jobId

theorem TablesShow.empty : TablesShow Tables.empty Log.empty := ⟨fun _ => rfl, fun _ _ => rfl, fun _ => rfl⟩

namespace TablesShow

variable {tables : Tables} {log : Log}

theorem of_send (hshow : TablesShow tables log) {send : Option Send} {changed : Tables}
    (hpayloads : ∀ id, changed.payloads.get? id =
      if id = clientMessageId then send.map (·.payload) else tables.payloads.get? id)
    (hrecips : ∀ id device, changed.recipients.get? (id, device) =
      if id = clientMessageId then send.bind fun send => (send.rows device).map (send.recipient device)
      else tables.recipients.get? (id, device))
    (hjobs : changed.resendJobs = tables.resendJobs) :
    TablesShow changed (log.setSend clientMessageId send) where
  payloads id := by
    rw [hpayloads]
    by_cases hid : id = clientMessageId
    · rw [if_pos hid, hid, Log.setSend_self]
    · rw [if_neg hid, Log.setSend_of_ne _ _ hid, hshow.payloads]
  recipients id device := by
    rw [hrecips]
    by_cases hid : id = clientMessageId
    · rw [if_pos hid, hid, Log.setSend_self]
    · rw [if_neg hid, Log.setSend_of_ne _ _ hid, hshow.recipients]
  jobs jobId := by
    rw [hjobs]
    exact hshow.jobs jobId

variable (hshow : TablesShow tables log)
include hshow

theorem payload_of_send {send : Send} (hsend : log.sends id = some send) :
    tables.payloads.get? id = some send.payload := by
  rw [hshow.payloads, hsend]
  rfl

theorem send_of_payload {payload : SendLogPayload}
    (hpayload : tables.payloads.get? id = some payload) :
    ∃ send, log.sends id = some send ∧ send.payload = payload := by
  rw [hshow.payloads] at hpayload
  exact Option.map_eq_some_iff.mp hpayload

theorem row_iff {device : SendLogDevice} {row : SendLogRecipient} :
    tables.recipients.get? (id, device) = some row ↔
      ∃ send responses, log.Waits id send device responses ∧ send.recipient device responses = row := by
  rw [hshow.recipients, Option.bind_eq_some_iff]
  constructor
  · rintro ⟨send, hsend, hrow⟩
    obtain ⟨responses, hresponses, rfl⟩ := Option.map_eq_some_iff.mp hrow
    exact ⟨send, responses, ⟨hsend, hresponses⟩, rfl⟩
  · rintro ⟨send, responses, ⟨hsend, hresponses⟩, rfl⟩
    exact ⟨send, hsend, by rw [hresponses]; rfl⟩

theorem rowsOf_size : (tables.rowsOf id).size = 0 ↔
      ∀ device send, log.sends id = some send → send.rows device = none := by
  constructor
  · intro hsize device send hsend
    cases hrow : send.rows device with
    | none => rfl
    | some responses =>
      have hget : (tables.rowsOf id).get? (id, device) = some (send.recipient device responses) := by
        rw [Tables.rowsOf, get?_filterKeys, if_pos (by simp)]
        exact hshow.row_iff.mpr ⟨send, responses, ⟨hsend, hrow⟩, rfl⟩
      rw [eq_empty_of_size hsize] at hget
      cases hget
  · intro hnone
    rw [← length_keys, length_eq_zero_iff, eq_nil_iff_forall_not_mem]
    rintro ⟨other, device⟩ hkey
    obtain ⟨row, hrow⟩ := (mem_keys_iff _ _).mp hkey
    rw [Tables.rowsOf, get?_filterKeys] at hrow
    split at hrow
    case isTrue hother =>
      obtain rfl : other = id := by simpa using hother
      obtain ⟨send, responses, ⟨hsend, hwaits⟩, _⟩ := hshow.row_iff.mp hrow
      rw [hnone device send hsend] at hwaits
      cases hwaits
    case isFalse => cases hrow

/-! ## Changes of one send -/

theorem deleteSend (id : String) :
    TablesShow ((tables.deleteRowsOf id).deletePayload id) (log.setSend id none) := by
  refine hshow.of_send ?_ ?_ rfl
  · intro other
    exact get?_erase ..
  · intro other device
    refine (get?_filterKeys ..).trans ?_
    by_cases hother : other = id <;> simp [hother]

theorem putSend (send : Send) (hid : send.payload.clientMessageId = id)
    (hrows : ∀ device, tables.recipients.get? (id, device) =
      (send.rows device).map (send.recipient device)) :
    TablesShow (tables.putPayload send.payload) (log.setSend id (some send)) := by
  refine hshow.of_send ?_ ?_ rfl
  · intro other
    rw [← hid]
    exact get?_set ..
  · intro other device
    by_cases hother : other = id
    · rw [if_pos hother, hother]
      exact hrows device
    · rw [if_neg hother]
      rfl

theorem deleteIfFinished {send : Send} (hsend : log.sends id = some send) :
    TablesShow (tables.deleteIfFinished id) (log.setSend id send.settled) := by
  have hsame : send.settled = some send → TablesShow tables (log.setSend id send.settled) := by
    intro hsettled
    refine hshow.of_send ?_ ?_ rfl
    · intro other
      by_cases hother : other = id
      · rw [if_pos hother, hother, hsettled, hshow.payload_of_send hsend]
        rfl
      · rw [if_neg hother]
    · intro other device
      by_cases hother : other = id
      · rw [if_pos hother, hother, hsettled, hshow.recipients, hsend]
      · rw [if_neg hother]
  unfold Tables.deleteIfFinished
  rw [hshow.payload_of_send hsend]
  dsimp only
  split
  case isTrue hopen =>
    apply hsame
    rw [Send.settled, if_neg]
    rintro ⟨hcompl, _⟩
    simp [hcompl] at hopen
  case isFalse hcompl =>
    rw [Bool.not_eq_true, Bool.not_eq_false'] at hcompl
    split
    case isTrue hsize =>
      apply hsame
      rw [Send.settled, if_neg]
      rintro ⟨_, hnone⟩
      apply hsize.ne'
      refine hshow.rowsOf_size.mpr fun device other hother => ?_
      obtain rfl : send = other := Option.some_injective _ (hsend.symm.trans hother)
      exact hnone device
    case isFalse hsize =>
      have hnone : ∀ device, send.rows device = none := fun device =>
        hshow.rowsOf_size.mp (Nat.eq_zero_of_not_pos hsize) device send hsend
      rw [Send.settled, if_pos ⟨hcompl, hnone⟩]
      refine hshow.of_send ?_ ?_ rfl
      · intro other
        exact get?_erase ..
      · intro other device
        by_cases hother : other = id
        · rw [if_pos hother, hother]
          change tables.recipients.get? (id, device) = none
          rw [hshow.recipients, hsend]
          simp [hnone device]
        · rw [if_neg hother]
          rfl

theorem deleteRow {send : Send} (hsend : log.sends id = some send) (device : SendLogDevice) :
    TablesShow (tables.deleteRow id device) (log.setSend id (some (send.without device))) := by
  refine hshow.of_send ?_ ?_ rfl
  · intro other
    by_cases hother : other = id
    · rw [if_pos hother, hother]
      change tables.payloads.get? id = some send.payload
      exact hshow.payload_of_send hsend
    · rw [if_neg hother]
      rfl
  · intro other held
    refine (get?_erase ..).trans ?_
    by_cases hother : other = id
    · subst hother
      by_cases hheld : held = device
      · simp [hheld, Send.without]
      · rw [if_neg (by simp [hheld]), if_pos rfl, hshow.recipients, hsend]
        simp only [Option.bind_some, Send.without, Function.update_of_ne hheld]
        rfl
    · rw [if_neg (by simp [hother]), if_neg hother]

theorem confirm {send : Send} {device : SendLogDevice}
    (hsend : log.sends id = some send) (hrow : (send.rows device).isSome) :
    TablesShow ((tables.deleteRow id device).deleteIfFinished id)
      (log.setSend id (send.confirmed device)) := by
  have hdeleted := hshow.deleteRow hsend device
  have hsettled := hdeleted.deleteIfFinished (Log.setSend_self ..)
  rw [Send.confirmed, if_pos hrow]
  have htwice : ((log.setSend id (some (send.without device))).setSend id
      (send.without device).settled) = log.setSend id (send.without device).settled := by
    unfold Log.setSend
    congr 1
    exact Function.update_idem ..
  rw [← htwice]
  exact hsettled

omit hshow in
theorem get?_insertMissing (id : String) (clientTimestamp : ℕ) (devices : List SendLogDevice)
    (tables : Tables) (other : String) (device : SendLogDevice) :
    (tables.insertMissing id clientTimestamp devices).recipients.get? (other, device) =
      (tables.recipients.get? (other, device)).or
        (if other = id ∧ device ∈ devices then some (newRow id clientTimestamp device) else none) := by
  induction devices generalizing tables with
  | nil => simp [Tables.insertMissing]
  | cons first devices ih =>
    have hcons : tables.insertMissing id clientTimestamp (first :: devices) =
        (if tables.recipients.has (id, first) then tables
          else tables.putRow (newRow id clientTimestamp first)).insertMissing id clientTimestamp
            devices := rfl
    rw [hcons, ih]
    split
    case isTrue hhas =>
      by_cases hsame : other = id ∧ device = first
      · obtain ⟨rfl, rfl⟩ := hsame
        obtain ⟨row, hrow⟩ := Option.isSome_iff_exists.mp hhas
        simp [hrow]
      · congr 1
        simp only [mem_cons]
        by_cases hid : other = id
        · have hdev : device ≠ first := fun heq => hsame ⟨hid, heq⟩
          simp [hdev]
        · simp [hid]
    case isFalse hhas =>
      have hput : (tables.putRow (newRow id clientTimestamp first)).recipients.get? (other, device) =
          if (other, device) = (id, first) then some (newRow id clientTimestamp first)
          else tables.recipients.get? (other, device) := get?_set ..
      rw [hput]
      by_cases hsame : other = id ∧ device = first
      · obtain ⟨rfl, rfl⟩ := hsame
        have hnone : tables.recipients.get? (other, device) = none := by
          simpa [OrderedMap.has] using hhas
        simp [hnone]
      · have hne : (other, device) ≠ (id, first) := fun heq =>
          hsame ⟨congrArg Prod.fst heq, congrArg Prod.snd heq⟩
        rw [if_neg hne]
        congr 1
        by_cases hid : other = id
        · have hdev : device ≠ first := fun heq => hsame ⟨hid, heq⟩
          simp [hdev]
        · simp [hid]

omit hshow in
theorem insertMissing_tables (id : String) (clientTimestamp : ℕ) (devices : List SendLogDevice)
    (tables : Tables) :
    (tables.insertMissing id clientTimestamp devices).payloads = tables.payloads ∧
      (tables.insertMissing id clientTimestamp devices).resendJobs = tables.resendJobs := by
  induction devices generalizing tables with
  | nil => exact ⟨rfl, rfl⟩
  | cons first devices ih =>
    have hnext := ih (if tables.recipients.has (id, first) then tables
      else tables.putRow (newRow id clientTimestamp first))
    refine ⟨hnext.1.trans ?_, hnext.2.trans ?_⟩ <;> split <;> rfl

theorem append {send : Send} (hid : send.payload.clientMessageId = id)
    (hsend : log.sends id = some send) (devices : List SendLogDevice) :
    TablesShow (tables.insertMissing id send.payload.clientTimestamp devices)
      (log.setSend id (some (send.append devices))) := by
  obtain ⟨hpayloads, hjobs⟩ := insertMissing_tables id send.payload.clientTimestamp devices tables
  refine hshow.of_send ?_ ?_ hjobs
  · intro other
    rw [hpayloads]
    by_cases hother : other = id
    · rw [if_pos hother, hother, hshow.payload_of_send hsend]
      rfl
    · rw [if_neg hother]
  · intro other device
    rw [get?_insertMissing]
    by_cases hother : other = id
    · rw [if_pos hother, hother, hshow.recipients, hsend]
      cases hrow : send.rows device with
      | some responses => simp [hrow, Send.append, Send.recipient]
      | none =>
        by_cases hdev : device ∈ devices <;>
          simp [hrow, hdev, Send.append, Send.recipient, newRow, hid]
    · rw [if_neg hother]
      simp [hother]

theorem putRow {send : Send} {device : SendLogDevice} {responses : ℕ}
    (hid : send.payload.clientMessageId = id) (hwaits : log.Waits id send device responses) :
    TablesShow (tables.putRow (send.recipient device (responses + 1)))
      (log.setSend id (some (send.counted device))) := by
  refine hshow.of_send ?_ ?_ rfl
  · intro other
    by_cases hother : other = id
    · rw [if_pos hother, hother]
      change tables.payloads.get? id = some send.payload
      exact hshow.payload_of_send hwaits.1
    · rw [if_neg hother]
      rfl
  · intro other held
    refine (get?_set ..).trans ?_
    by_cases hother : other = id
    · subst hother
      by_cases hheld : held = device
      · simp [hheld, Send.counted, Send.recipient, hid, hwaits.2]
      · rw [if_neg (by simp [Send.recipient, hheld]), if_pos rfl, hshow.recipients, hwaits.1]
        simp only [Option.bind_some, Send.counted, Function.update_of_ne hheld]
        rfl
    · rw [if_neg (by simp [Send.recipient, hid, hother]), if_neg hother]

theorem mem_byDevice {device : SendLogDevice} {clientTimestamp : ℕ} (hlog : log.Sound) :
    id ∈ (tables.byDevice device clientTimestamp).map (·.clientMessageId) ↔
      ∃ send responses, log.Waits id send device responses ∧
        send.payload.clientTimestamp = clientTimestamp := by
  simp only [Tables.byDevice, mem_map, mem_filter, mem_values_iff]
  constructor
  · rintro ⟨row, ⟨⟨⟨other, held⟩, hrow⟩, hfound⟩, rfl⟩
    obtain ⟨send, responses, hwaits, rfl⟩ := hshow.row_iff.mp hrow
    obtain ⟨hdev, htime⟩ := Bool.and_eq_true_iff.mp hfound
    obtain rfl : held = device := of_decide_eq_true hdev
    obtain rfl : send.payload.clientTimestamp = clientTimestamp := of_decide_eq_true htime
    have hother : send.payload.clientMessageId = other := hlog.id other send hwaits.1
    subst hother
    exact ⟨send, responses, hwaits, rfl⟩
  · rintro ⟨send, responses, hwaits, rfl⟩
    refine ⟨send.recipient device responses, ⟨⟨(id, device), ?_⟩, by simp [Send.recipient]⟩,
      hlog.id id send hwaits.1⟩
    exact hshow.row_iff.mpr ⟨send, responses, hwaits, rfl⟩

theorem values_pairwise (hlog : log.Sound) :
    tables.recipients.values.Pairwise fun first second =>
      (first.clientMessageId, first.device) ≠ (second.clientMessageId, second.device) := by
  have hkeys : tables.recipients.values.map (fun row => (row.clientMessageId, row.device)) =
      tables.recipients.keys := by
    unfold OrderedMap.values OrderedMap.keys
    rw [map_map]
    refine map_congr_left ?_
    rintro ⟨⟨id, device⟩, row⟩ hentry
    obtain ⟨send, responses, hwaits, rfl⟩ :=
      hshow.row_iff.mp ((get?_eq_some_iff ..).mpr hentry)
    have hid : send.payload.clientMessageId = id := hlog.id id send hwaits.1
    simp [Send.recipient, hid]
  exact pairwise_map.mp (hkeys ▸ tables.recipients.keys_nodup)

theorem byDevice_pairwise (hlog : log.Sound) (device : SendLogDevice) (clientTimestamp : ℕ) :
    (tables.byDevice device clientTimestamp).Pairwise fun first second =>
      first.clientMessageId ≠ second.clientMessageId := by
  refine ((hshow.values_pairwise hlog).filter _).imp_of_mem ?_
  intro first second hfst hsnd hne heq
  have hdev : ∀ row ∈ tables.byDevice device clientTimestamp, row.device = device := by
    intro row hrow
    exact of_decide_eq_true (Bool.and_eq_true_iff.mp (mem_filter.mp hrow).2).1
  exact hne (Prod.ext heq ((hdev first hfst).trans (hdev second hsnd).symm))

end TablesShow

/-! ## The calls of the stores with tables

Each call of the IndexedDB store and of the SQLite store answers what the log gives, in the order
of its texts, and leaves tables that show the log after the call. -/

variable {id : String} {order : TextOrder} {now : ℕ}

theorem isCount_size {α β : Type} [DecidableEq α] (map : OrderedMap α β) {holds : α → Prop}
    (hholds : ∀ key, (∃ value, map.get? key = some value) ↔ holds key) : IsCount holds map.size :=
  ⟨map.keys, map.keys_nodup, fun key => (map.mem_keys_iff key).trans (hholds key), map.length_keys⟩

/-! ## Logs after a call -/

namespace Log

variable {log : Log}

theorem Sound.confirmAll (hlog : log.Sound) (device : SendLogDevice) (ids : List String) :
    (log.confirmAll device ids).Sound := by
  have hsend : ∀ id send, (log.confirmAll device ids).sends id = some send → send.Sound id := by
    intro id send hsend
    simp only [Log.confirmAll] at hsend
    split at hsend
    · obtain ⟨earlier, hprev, hkept⟩ := Option.bind_eq_some_iff.mp hsend
      exact Send.confirmed_sound (hlog.send hprev) hkept
    · exact hlog.send hsend
  exact ⟨fun id send h => (hsend id send h).1, fun id send h => (hsend id send h).2, hlog.job⟩

theorem confirmAll_waits {device : SendLogDevice} {ids : List String} {send : Send}
    {responses : ℕ} :
    (log.confirmAll device ids).Waits id send device responses ↔
      log.Waits id send device responses ∧ id ∉ ids := by
  unfold Waits confirmAll
  by_cases hid : id ∈ ids
  · simp only [hid, if_true, not_true_eq_false, and_false, iff_false, not_and]
    intro hsend hrow
    obtain ⟨earlier, _, hkept⟩ := Option.bind_eq_some_iff.mp hsend
    rw [(Send.confirmed_waits hkept).1] at hrow
    cases hrow
  · simp [hid]

theorem confirmAll_nil (device : SendLogDevice) : log.confirmAll device [] = log := by
  simp [confirmAll]

theorem setSend_eq_confirmAll {send : Send} (hsend : log.sends id = some send)
    (device : SendLogDevice) :
    log.setSend id (send.confirmed device) = log.confirmAll device [id] := by
  unfold setSend confirmAll
  congr 1
  funext other
  by_cases hother : other = id
  · subst hother
    simp [hsend]
  · simp [hother]

theorem after_eq_setSend {call : Call} (change : Option Send → Option Send) (hsends : ∀ other send,
      sendAfter now other send call = if id = other then change send else send)
    (hjobs : ∀ jobId job, jobAfter now jobId job call = job) :
    log.after now call = log.setSend id (change (log.sends id)) := by
  refine Eq.symm (after_of_jobs ?_ fun jobId => (hjobs ..).symm)
  intro other
  rw [hsends]
  by_cases hother : other = id
  · subst hother
    rw [setSend_self, if_pos rfl]
  · rw [setSend_of_ne _ _ hother, if_neg (Ne.symm hother)]

theorem after_eq_setJob {call : Call} (change : Option SendLogResendJob → Option SendLogResendJob)
    (hjobs : ∀ other job, jobAfter now other job call = if id = other then change job else job)
    (hsends : ∀ id send, sendAfter now id send call = send) :
    log.after now call = log.setJob id (change (log.jobs id)) := by
  refine Eq.symm (after_of_jobs (fun _ => (hsends ..).symm) ?_)
  intro other
  rw [hjobs]
  by_cases hother : other = id
  · subst hother
    exact (Function.update_self ..).trans (if_pos rfl).symm
  · exact (Function.update_of_ne hother ..).trans (if_neg (Ne.symm hother)).symm

theorem setSend_of_eq {send : Option Send} (hsend : log.sends id = send) :
    log.setSend id send = log := by
  rw [setSend, ← hsend, Function.update_eq_self]

theorem setJob_of_eq {job : Option SendLogResendJob} (hjob : log.jobs id = job) :
    log.setJob id job = log := by
  rw [setJob, ← hjob, Function.update_eq_self]

theorem setSend_setSend (id : String) (send kept : Option Send) :
    (log.setSend id send).setSend id kept = log.setSend id kept := by
  unfold setSend
  congr 1
  exact Function.update_idem ..

theorem after_store (now : ℕ) (payload : NewSendLogPayload) (recipients : List SendLogDevice) :
    log.after now (.storeSendLogEntry payload recipients) =
      log.setSend payload.clientMessageId
        (some (Send.started (payload.stored now) recipients)) :=
  after_eq_setSend (fun _ => _) (fun _ _ => rfl) fun _ _ => rfl

theorem after_append (now : ℕ) (id : String) (recipients : List SendLogDevice) :
    log.after now (.appendSendLogRecipients id recipients) =
      log.setSend id ((log.sends id).map (·.append recipients)) :=
  after_eq_setSend (fun send => send.map (·.append recipients)) (fun _ _ => rfl) fun _ _ => rfl

theorem after_complete (now : ℕ) (id : String) :
    log.after now (.markSendLogComplete id) =
      log.setSend id ((log.sends id).bind (·.completed.settled)) :=
  after_eq_setSend (fun send => send.bind (·.completed.settled)) (fun _ _ => rfl) fun _ _ => rfl

theorem after_confirm (now : ℕ) (id : String) (recipient : SendLogDevice) :
    log.after now (.deleteSendLogRecipient id recipient) =
      log.setSend id ((log.sends id).bind (·.confirmed recipient)) :=
  after_eq_setSend (fun send => send.bind (·.confirmed recipient)) (fun _ _ => rfl) fun _ _ => rfl

theorem after_counted (now : ℕ) (id : String) (recipient : SendLogDevice) :
    log.after now (.incrementSendLogResendCount id recipient) =
      log.setSend id ((log.sends id).map (·.counted recipient)) :=
  after_eq_setSend (fun send => send.map (·.counted recipient)) (fun _ _ => rfl) fun _ _ => rfl

theorem after_deleted (now : ℕ) (id : String) :
    log.after now (.deleteSendLogEntry id) = log.setSend id none :=
  after_eq_setSend (fun _ => none) (fun _ _ => rfl) fun _ _ => rfl

theorem after_storeJob (now : ℕ) (job : SendLogResendJob) :
    log.after now (.storeResendJob job) = log.setJob job.jobId
      (some { job with createdAt := ((log.jobs job.jobId).map (·.createdAt)).getD now }) :=
  after_eq_setJob (fun stored =>
    some { job with createdAt := (stored.map (·.createdAt)).getD now }) (fun _ _ => rfl) fun _ _ => rfl

theorem after_completeJob (now : ℕ) (jobId : String) (state : ResendJobEnd) :
    log.after now (.completeResendJob jobId state) = log.setJob jobId
      ((log.jobs jobId).map fun job => { job with state := state.state }) :=
  after_eq_setJob (fun job => job.map fun job => { job with state := state.state }) (fun _ _ => rfl) fun _ _ => rfl

end Log

theorem Log.Sound.jobs_listing {log : Log} (hlog : log.Sound)
    {resendJobs : OrderedMap String SendLogResendJob}
    (hjobs : ∀ jobId, resendJobs.get? jobId = log.jobs jobId) (horder : Function.Injective order) :
    IsListing (jobKey order) (fun job => ∃ jobId, log.jobs jobId = some job ∧ job.state = .pending)
      (sortBy (jobKey order)
        (resendJobs.values.filter fun job => decide (job.state = .pending))) := by
  have hkeys : resendJobs.values.map (·.jobId) = resendJobs.keys := by
    unfold OrderedMap.values OrderedMap.keys
    rw [map_map]
    refine map_congr_left ?_
    rintro ⟨jobId, job⟩ hentry
    have hjob := (get?_eq_some_iff ..).mpr hentry
    rw [hjobs] at hjob
    exact hlog.job jobId job hjob
  have hnames : resendJobs.values.Pairwise fun first second => first.jobId ≠ second.jobId :=
    pairwise_map.mp (hkeys ▸ resendJobs.keys_nodup)
  refine isListing_sortBy (fun _ _ => jobKey_inj horder) (hnames.filter _) ?_
  intro job
  rw [mem_filter, mem_values_iff, decide_eq_true_eq, ← exists_and_right]
  simp only [hjobs]

namespace TablesShow

variable {tables : Tables} {log : Log}

theorem of_eq {changed : Log} (hshow : TablesShow tables log) (heq : log = changed) :
    TablesShow tables changed :=
  heq ▸ hshow

theorem deleteFound (device : SendLogDevice) {ids : List String} (hnodup : ids.Nodup)
    {tables : Tables} {log : Log} (hshow : TablesShow tables log)
    (hwaits : ∀ id ∈ ids, ∃ send responses, log.Waits id send device responses) :
    TablesShow (Tables.deleteFound device ids tables) (log.confirmAll device ids) ∧
      tables.changedRows device ids = ids.length := by
  induction ids generalizing tables log with
  | nil => exact ⟨hshow.of_eq (Log.confirmAll_nil device).symm, rfl⟩
  | cons first ids ih =>
    obtain ⟨hfst, hrest⟩ := nodup_cons.mp hnodup
    obtain ⟨send, responses, hsend, hrow⟩ := hwaits first mem_cons_self
    have hsome : (send.rows device).isSome := by simp [hrow]
    have hconf := hshow.confirm hsend hsome
    rw [Log.setSend_eq_confirmAll hsend] at hconf
    obtain ⟨hfound, hchange⟩ := ih hrest hconf (by
      intro id hid
      obtain ⟨other, count, hother⟩ := hwaits id (mem_cons_of_mem _ hid)
      refine ⟨other, count, Log.confirmAll_waits.mpr ⟨hother, ?_⟩⟩
      rw [mem_singleton]
      exact fun heq => hfst (heq ▸ hid))
    rw [Log.confirmAll_append] at hfound
    refine ⟨hfound, ?_⟩
    have hhas : tables.recipients.has (first, device) = true := by
      have hget := hshow.row_iff.mpr ⟨send, responses, ⟨hsend, hrow⟩, rfl⟩
      simp [OrderedMap.has, hget]
    rw [Tables.changedRows, if_pos hhas, hchange, length_cons, Nat.add_comm]

theorem deleteByTimestamps (device : SendLogDevice) (clientTimestamps : List ℕ) {tables : Tables}
    {log : Log} (hlog : log.Sound) (hshow : TablesShow tables log) (deleted : ℕ) :
    Tables.deleteByTimestampRows device clientTimestamps (deleted, tables) =
        Tables.deleteByTimestamps device clientTimestamps (deleted, tables) ∧
      ∃ ids : List String, ids.Nodup ∧
        (∀ id, id ∈ ids ↔ ∃ send responses, log.Waits id send device responses ∧
          send.payload.clientTimestamp ∈ clientTimestamps) ∧
        (Tables.deleteByTimestamps device clientTimestamps (deleted, tables)).1 =
          deleted + ids.length ∧
        TablesShow (Tables.deleteByTimestamps device clientTimestamps (deleted, tables)).2
          (log.confirmAll device ids) := by
  induction clientTimestamps generalizing tables log deleted with
  | nil =>
    refine ⟨rfl, [], nodup_nil, by simp, rfl, ?_⟩
    exact hshow.of_eq (Log.confirmAll_nil device).symm
  | cons clientTimestamp rest ih =>
    let found := (tables.byDevice device clientTimestamp).map (·.clientMessageId)
    have hmem : ∀ id, id ∈ found ↔ ∃ send responses, log.Waits id send device responses ∧
        send.payload.clientTimestamp = clientTimestamp := fun _ => hshow.mem_byDevice hlog
    have hnodup : found.Nodup := pairwise_map.mpr
      (hshow.byDevice_pairwise hlog device clientTimestamp)
    obtain ⟨hfound, hchange⟩ := TablesShow.deleteFound device hnodup hshow (by
      intro id hid
      obtain ⟨send, responses, hwaits, _⟩ := (hmem id).mp hid
      exact ⟨send, responses, hwaits⟩)
    have hlen : found.length = (tables.byDevice device clientTimestamp).length :=
      length_map ..
    obtain ⟨hrows, ids, hids, hiff, hcount, hafter⟩ := ih (hlog.confirmAll device found) hfound
      (deleted + (tables.byDevice device clientTimestamp).length)
    rw [Log.confirmAll_append] at hafter
    refine ⟨?_, found ++ ids, ?_, ?_, ?_, hafter⟩
    · rw [Tables.deleteByTimestampRows, hchange, hlen]
      exact hrows
    · refine nodup_append'.mpr ⟨hnodup, hids, ?_⟩
      intro id hid hother
      obtain ⟨send, responses, hwaits, _⟩ := (hiff id).mp hother
      exact (Log.confirmAll_waits.mp hwaits).2 hid
    · intro id
      rw [mem_append, hmem, hiff]
      constructor
      · rintro (⟨send, responses, hwaits, rfl⟩ | ⟨send, responses, hwaits, htime⟩)
        · exact ⟨send, responses, hwaits, mem_cons_self⟩
        · exact ⟨send, responses, (Log.confirmAll_waits.mp hwaits).1, mem_cons_of_mem _ htime⟩
      · rintro ⟨send, responses, hwaits, htime⟩
        by_cases hid : id ∈ found
        · exact .inl ((hmem id).mp hid)
        · refine .inr ⟨send, responses, Log.confirmAll_waits.mpr ⟨hwaits, hid⟩, ?_⟩
          refine (mem_cons.mp htime).resolve_left fun heq => hid ?_
          exact (hmem id).mpr ⟨send, responses, hwaits, heq⟩
    · rw [Tables.deleteByTimestamps, hcount, length_append, hlen, Nat.add_assoc]

variable (hshow : TablesShow tables log)
include hshow

theorem deleteOld (now : ℕ) (maxAgeMs : ℤ) :
    TablesShow (tables.deleteOld now maxAgeMs)
      (log.after now (.deleteExpiredSendLog maxAgeMs)) where
  payloads id := by
    refine (get?_filterEntries ..).trans ?_
    rw [hshow.payloads]
    change _ = ((log.sends id).filter _).map _
    cases log.sends id with
    | none => rfl
    | some send =>
      cases hold : expired now maxAgeMs send.payload.createdAt <;> simp [Option.filter, hold]
  recipients id device := by
    refine (get?_filterKeys ..).trans ?_
    simp only [hshow.recipients, hshow.payloads]
    change _ = ((log.sends id).filter _).bind _
    cases log.sends id with
    | none => rfl
    | some send =>
      cases hold : expired now maxAgeMs send.payload.createdAt <;> simp [Option.filter, hold]
  jobs jobId := by
    refine (get?_filterEntries ..).trans ?_
    rw [hshow.jobs]
    rfl

theorem countOld (now : ℕ) (maxAgeMs : ℤ) :
    IsCount (fun id => ∃ send, log.sends id = some send ∧
      expired now maxAgeMs send.payload.createdAt = true) (tables.countOld now maxAgeMs) := by
  refine isCount_size _ fun id => ?_
  rw [get?_filterEntries, hshow.payloads]
  cases log.sends id with
  | none => simp
  | some send => simp [Option.filter_eq_some_iff]

theorem size_payloads :
    IsCount (fun id => ∃ send, log.sends id = some send) tables.payloads.size := by
  refine isCount_size _ fun id => ?_
  rw [hshow.payloads]
  cases log.sends id <;> simp

variable (hlog : log.Sound)
include hlog

theorem deleteRecipientsByTimestamp (now : ℕ) (device : SendLogDevice) (clientTimestamps : List ℕ) :
    log.Gives codeUnits now (.deleteSendLogRecipientsByTimestamp device clientTimestamps)
        (.count (Tables.deleteByTimestamps device clientTimestamps.dedup (0, tables)).1) ∧
      TablesShow (Tables.deleteByTimestamps device clientTimestamps.dedup (0, tables)).2
        (log.after now (.deleteSendLogRecipientsByTimestamp device clientTimestamps)) := by
  obtain ⟨_, ids, hids, hiff, hcount, hafter⟩ :=
    deleteByTimestamps device clientTimestamps.dedup hlog hshow 0
  simp only [mem_dedup] at hiff
  refine ⟨⟨_, rfl, ids, hids, hiff, ?_⟩, hafter.of_eq (log.confirmAll_eq_after now hiff)⟩
  rw [hcount, Nat.zero_add]

theorem entries_pairwise (device : SendLogDevice) (clientTimestamp : ℕ) :
    (tables.join (tables.byDevice device clientTimestamp)).Pairwise fun first second =>
      first.payload.clientMessageId ≠ second.payload.clientMessageId := by
  refine (hshow.byDevice_pairwise hlog device clientTimestamp).filterMap _ ?_
  intro row other hne entry hentry second hsnd heq
  obtain ⟨payload, hpayload, rfl⟩ := Option.map_eq_some_iff.mp hentry
  obtain ⟨content, hcontent, rfl⟩ := Option.map_eq_some_iff.mp hsnd
  obtain ⟨send, hsend, rfl⟩ := hshow.send_of_payload hpayload
  obtain ⟨held, hheld, rfl⟩ := hshow.send_of_payload hcontent
  exact hne ((hlog.id _ _ hsend).symm.trans (heq.trans (hlog.id _ _ hheld)))

theorem mem_join (device : SendLogDevice) (clientTimestamp : ℕ) (entry : SendLogEntry) :
    entry ∈ tables.join (tables.byDevice device clientTimestamp) ↔
      ∃ id send responses, log.Waits id send device responses ∧
        send.payload.clientTimestamp = clientTimestamp ∧ send.entry device responses = entry := by
  simp only [Tables.join, mem_filterMap, Tables.byDevice, mem_filter, mem_values_iff]
  constructor
  · rintro ⟨row, ⟨⟨⟨id, held⟩, hrow⟩, hfound⟩, hentry⟩
    obtain ⟨send, responses, hwaits, rfl⟩ := hshow.row_iff.mp hrow
    obtain ⟨hdev, htime⟩ := Bool.and_eq_true_iff.mp hfound
    obtain rfl : held = device := of_decide_eq_true hdev
    obtain ⟨payload, hpayload, rfl⟩ := Option.map_eq_some_iff.mp hentry
    have hid : send.payload.clientMessageId = id := hlog.id id send hwaits.1
    have hget : tables.payloads.get? send.payload.clientMessageId = some send.payload := by
      rw [hid]
      exact hshow.payload_of_send hwaits.1
    obtain rfl : send.payload = payload := Option.some_injective _ (hget.symm.trans hpayload)
    exact ⟨id, send, responses, hwaits, of_decide_eq_true htime, rfl⟩
  · rintro ⟨id, send, responses, hwaits, rfl, rfl⟩
    have hid : send.payload.clientMessageId = id := hlog.id id send hwaits.1
    refine ⟨send.recipient device responses, ⟨⟨(id, device), ?_⟩, by simp [Send.recipient]⟩, ?_⟩
    · exact hshow.row_iff.mpr ⟨send, responses, hwaits, rfl⟩
    · have hget : tables.payloads.get? send.payload.clientMessageId = some send.payload := by
        rw [hid]
        exact hshow.payload_of_send hwaits.1
      simp [Send.recipient, Send.entry, hget]

theorem entries_listing (horder : Function.Injective order)
    (device : SendLogDevice) (clientTimestamp : ℕ) :
    IsListing (entryKey order) (fun entry => ∃ id send responses,
        log.Waits id send device responses ∧ send.payload.clientTimestamp = clientTimestamp ∧
          send.entry device responses = entry)
      (sortBy (entryKey order) (tables.join (tables.byDevice device clientTimestamp))) :=
  isListing_sortBy (fun _ _ => (entryKey_inj horder).mp)
    (hshow.entries_pairwise hlog device clientTimestamp)
    (hshow.mem_join hlog device clientTimestamp)

theorem rows_listing (horder : Function.Injective order) (id : String) :
    IsListing (deviceKey order) (fun row => ∃ send device responses,
        log.Waits id send device responses ∧ send.recipient device responses = row)
      (sortBy (deviceKey order) (tables.rowsOf id).values) := by
  have hmem : ∀ row, row ∈ (tables.rowsOf id).values ↔ ∃ send device responses,
      log.Waits id send device responses ∧ send.recipient device responses = row := by
    intro row
    simp only [mem_values_iff, Tables.rowsOf, get?_filterKeys]
    constructor
    · rintro ⟨⟨other, device⟩, hrow⟩
      split at hrow
      case isTrue hother =>
        obtain rfl : other = id := by simpa using hother
        obtain ⟨send, responses, hwaits, rfl⟩ := hshow.row_iff.mp hrow
        exact ⟨send, device, responses, hwaits, rfl⟩
      case isFalse => cases hrow
    · rintro ⟨send, device, responses, hwaits, rfl⟩
      refine ⟨(id, device), ?_⟩
      rw [if_pos (by simp)]
      exact hshow.row_iff.mpr ⟨send, responses, hwaits, rfl⟩
  refine isListing_sortBy (fun _ _ => (deviceKey_inj horder).mp) ?_ hmem
  have hsublist : List.Sublist (tables.rowsOf id).values tables.recipients.values :=
    List.Sublist.map _ filter_sublist
  refine ((hshow.values_pairwise hlog).sublist hsublist).imp_of_mem ?_
  intro row other hrow hother hne heq
  obtain ⟨send, device, responses, hwaits, rfl⟩ := (hmem row).mp hrow
  obtain ⟨held, holder, count, hholds, rfl⟩ := (hmem other).mp hother
  obtain rfl : send = held := Option.some_injective _ (hwaits.1.symm.trans hholds.1)
  exact hne (Prod.ext rfl heq)

end TablesShow

end SignalProtocol.SendLog

import Mathlib.Data.List.Lex
import Mathlib.Data.Prod.Lex
import SignalProtocol.Basic
import SignalProtocol.Library.Listing
import SignalProtocol.Library.OrderedMap
import SignalProtocol.KeyValue.Keys

/-! # Send logs

The resendable content of the sends, the devices that have not confirmed it, and the resend jobs. -/

namespace SignalProtocol.SendLog

open Listing (sortBy)

structure SendLogDevice where
  userId : String
  deviceId : ℕ
  deriving DecidableEq

inductive ContentHint where
  | default
  | resendable
  | implicit
  deriving DecidableEq

structure NewSendLogPayload where
  clientMessageId : String
  groupId : String
  clientTimestamp : ℕ
  contentHint : ContentHint
  plaintext : Bytes
  deriving DecidableEq

structure SendLogPayload extends NewSendLogPayload where
  createdAt : ℕ
  sendComplete : Bool
  deriving DecidableEq

structure SendLogRecipient where
  clientMessageId : String
  device : SendLogDevice
  clientTimestamp : ℕ
  responses : ℕ
  deriving DecidableEq

structure SendLogEntry where
  payload : SendLogPayload
  recipient : SendLogRecipient
  deriving DecidableEq

inductive SendLogResendJobState where
  | pending
  | posted
  | abandoned
  deriving DecidableEq

inductive ResendJobEnd where
  | posted
  | abandoned

def ResendJobEnd.state : ResendJobEnd → SendLogResendJobState
  | posted => .posted
  | abandoned => .abandoned

structure SendLogResendJob where
  jobId : String
  clientMessageId : String
  requester : SendLogDevice
  retryId : String
  requestEnvelopeId : String
  failedEnvelopeId : Option String := none
  createdAt : ℕ
  attempts : ℕ
  state : SendLogResendJobState
  deriving DecidableEq

inductive Call where
  | storeSendLogEntry (payload : NewSendLogPayload) (recipients : List SendLogDevice)
  | appendSendLogRecipients (clientMessageId : String) (recipients : List SendLogDevice)
  | markSendLogComplete (clientMessageId : String)
  | getSendLogEntry (clientMessageId : String) (recipient : SendLogDevice)
  | findSendLogEntries (recipient : SendLogDevice) (clientTimestamp : ℕ)
  | getSendLogRecipients (clientMessageId : String)
  | deleteSendLogRecipient (clientMessageId : String) (recipient : SendLogDevice)
  | deleteSendLogRecipientsByTimestamp (recipient : SendLogDevice) (clientTimestamps : List ℕ)
  | incrementSendLogResendCount (clientMessageId : String) (recipient : SendLogDevice)
  | deleteSendLogEntry (clientMessageId : String)
  | deleteExpiredSendLog (maxAgeMs : ℤ)
  | clearSendLog
  | storeResendJob (job : SendLogResendJob)
  | getResendJob (jobId : String)
  | getPendingResendJobs
  | completeResendJob (jobId : String) (state : ResendJobEnd)

inductive Answer where
  | done
  | entry (entry : Option SendLogEntry)
  | entries (entries : List SendLogEntry)
  | recipients (recipients : List SendLogRecipient)
  | deleted (deleted : Bool)
  | count (deleted : ℕ)
  | responses (responses : Option ℕ)
  | job (job : Option SendLogResendJob)
  | jobs (jobs : List SendLogResendJob)
  deriving DecidableEq

def NewSendLogPayload.stored (payload : NewSendLogPayload) (now : ℕ) : SendLogPayload :=
  { payload with createdAt := now, sendComplete := false }

def newRow (clientMessageId : String) (clientTimestamp : ℕ) (device : SendLogDevice) :
    SendLogRecipient :=
  { clientMessageId, device, clientTimestamp, responses := 0 }

def expired (now : ℕ) (maxAgeMs : ℤ) (createdAt : ℕ) : Bool :=
  decide ((createdAt : ℤ) < (now : ℤ) - maxAgeMs)

def charUnits (char : Char) : List ℕ :=
  if char.toNat < 0x10000 then [char.toNat]
  else [0xd800 + (char.toNat - 0x10000) / 0x400, 0xdc00 + (char.toNat - 0x10000) % 0x400]

def codeUnits (value : String) : List ℕ := value.toList.flatMap charUnits

def codePoints (value : String) : List ℕ := value.toList.map Char.toNat

abbrev TextOrder := String → List ℕ

def deviceKey (order : TextOrder) (row : SendLogRecipient) : List ℕ ×ₗ ℕ :=
  toLex (order row.device.userId, row.device.deviceId)

def entryKey (order : TextOrder) (entry : SendLogEntry) : List ℕ :=
  order entry.payload.clientMessageId

def jobKey (order : TextOrder) (job : SendLogResendJob) : ℕ ×ₗ List ℕ :=
  toLex (job.createdAt, order job.jobId)

/-! ## The in-memory store -/

/-- The maps of `MemorySendLog`. The text of a device key is the device itself. -/
structure MemorySendLog where
  payloads : OrderedMap String SendLogPayload
  recipients : OrderedMap String (OrderedMap SendLogDevice SendLogRecipient)
  resendJobs : OrderedMap String SendLogResendJob

namespace MemorySendLog

def empty : MemorySendLog := ⟨∅, ∅, ∅⟩

variable (log : MemorySendLog)

def row? (clientMessageId : String) (device : SendLogDevice) : Option SendLogRecipient :=
  (log.recipients.get? clientMessageId).bind (·.get? device)

def entry (clientMessageId : String) (device : SendLogDevice) : Option SendLogEntry := do
  let payload ← log.payloads.get? clientMessageId
  let recipient ← log.row? clientMessageId device
  return { payload, recipient }

def addRecipients (payload : SendLogPayload) (devices : List SendLogDevice) : MemorySendLog :=
  let rows := (log.recipients.get? payload.clientMessageId).getD ∅
  let added := devices.foldl (fun rows device =>
    if rows.has device then rows
    else rows.set device (newRow payload.clientMessageId payload.clientTimestamp device)) rows
  { log with recipients := log.recipients.set payload.clientMessageId added }

def removePayload (clientMessageId : String) : MemorySendLog :=
  { log with
    payloads := log.payloads.erase clientMessageId
    recipients := log.recipients.erase clientMessageId }

def removeFinishedPayload (clientMessageId : String) : MemorySendLog :=
  if !(log.payloads.get? clientMessageId).any (·.sendComplete) then log
  else if 0 < ((log.recipients.get? clientMessageId).map (·.size)).getD 0 then log
  else log.removePayload clientMessageId

def removeRecipient (clientMessageId : String) (device : SendLogDevice) : Bool × MemorySendLog :=
  match log.recipients.get? clientMessageId with
  | none => (false, log)
  | some rows =>
    if !rows.has device then (false, log)
    else
      let left := rows.erase device
      let recipients :=
        if left.size = 0 then log.recipients.erase clientMessageId
        else log.recipients.set clientMessageId left
      (true, { log with recipients }.removeFinishedPayload clientMessageId)

def removeRecipients (device : SendLogDevice) (clientTimestamps : List ℕ) :
    List (String × SendLogPayload) → ℕ × MemorySendLog → ℕ × MemorySendLog
  | [], reached => reached
  | (clientMessageId, payload) :: rest, (deleted, log) =>
    if payload.clientTimestamp ∈ clientTimestamps then
      let removed := log.removeRecipient clientMessageId device
      removeRecipients device clientTimestamps rest
        (if removed.1 then deleted + 1 else deleted, removed.2)
    else removeRecipients device clientTimestamps rest (deleted, log)

def removeExpired (now : ℕ) (maxAgeMs : ℤ) :
    List (String × SendLogPayload) → ℕ × MemorySendLog → ℕ × MemorySendLog
  | [], reached => reached
  | (clientMessageId, payload) :: rest, (deleted, log) =>
    if expired now maxAgeMs payload.createdAt then
      removeExpired now maxAgeMs rest (deleted + 1, log.removePayload clientMessageId)
    else removeExpired now maxAgeMs rest (deleted, log)

def step (now : ℕ) : Call → Answer × MemorySendLog
  | .storeSendLogEntry payload recipients =>
    let removed := log.removePayload payload.clientMessageId
    let stored := payload.stored now
    (.done, { removed with payloads := removed.payloads.set payload.clientMessageId stored
      }.addRecipients stored recipients)
  | .appendSendLogRecipients clientMessageId recipients =>
    match log.payloads.get? clientMessageId with
    | none => (.done, log)
    | some payload => (.done, log.addRecipients payload recipients)
  | .markSendLogComplete clientMessageId =>
    match log.payloads.get? clientMessageId with
    | none => (.done, log)
    | some payload =>
      (.done, { log with
        payloads := log.payloads.set clientMessageId { payload with sendComplete := true }
        }.removeFinishedPayload clientMessageId)
  | .getSendLogEntry clientMessageId recipient => (.entry (log.entry clientMessageId recipient), log)
  | .findSendLogEntries recipient clientTimestamp =>
    let found := log.payloads.entries.filterMap fun entry =>
      if entry.2.clientTimestamp = clientTimestamp then log.entry entry.1 recipient else none
    (.entries (sortBy (entryKey codeUnits) found), log)
  | .getSendLogRecipients clientMessageId =>
    let rows := ((log.recipients.get? clientMessageId).getD ∅).values
    (.recipients (sortBy (deviceKey codeUnits) rows), log)
  | .deleteSendLogRecipient clientMessageId recipient =>
    let removed := log.removeRecipient clientMessageId recipient
    (.deleted removed.1, removed.2)
  | .deleteSendLogRecipientsByTimestamp recipient clientTimestamps =>
    let removed := removeRecipients recipient clientTimestamps log.payloads.entries (0, log)
    (.count removed.1, removed.2)
  | .incrementSendLogResendCount clientMessageId recipient =>
    match log.recipients.get? clientMessageId with
    | none => (.responses none, log)
    | some rows =>
      match rows.get? recipient with
      | none => (.responses none, log)
      | some row =>
        let counted := { row with responses := row.responses + 1 }
        (.responses (some counted.responses),
          { log with
            recipients := log.recipients.set clientMessageId (rows.set recipient counted) })
  | .deleteSendLogEntry clientMessageId =>
    (.deleted (log.payloads.has clientMessageId), log.removePayload clientMessageId)
  | .deleteExpiredSendLog maxAgeMs =>
    let removed := removeExpired now maxAgeMs log.payloads.entries (0, log)
    (.count removed.1, { removed.2 with
      resendJobs := removed.2.resendJobs.filterEntries fun _ job =>
        !expired now maxAgeMs job.createdAt })
  | .clearSendLog => (.count log.payloads.size, empty)
  | .storeResendJob job =>
    let createdAt := ((log.resendJobs.get? job.jobId).map (·.createdAt)).getD now
    (.done, { log with resendJobs := log.resendJobs.set job.jobId { job with createdAt } })
  | .getResendJob jobId => (.job (log.resendJobs.get? jobId), log)
  | .getPendingResendJobs =>
    let pending := log.resendJobs.values.filter fun job => job.state = .pending
    (.jobs (sortBy (jobKey codeUnits) pending), log)
  | .completeResendJob jobId state =>
    match log.resendJobs.get? jobId with
    | none => (.done, log)
    | some job =>
      (.done, { log with resendJobs := log.resendJobs.set jobId { job with state := state.state } })

end MemorySendLog

structure Tables where
  payloads : OrderedMap String SendLogPayload
  recipients : OrderedMap (String × SendLogDevice) SendLogRecipient
  resendJobs : OrderedMap String SendLogResendJob

namespace Tables

def empty : Tables := ⟨∅, ∅, ∅⟩

variable (tables : Tables)

def rowsOf (clientMessageId : String) : OrderedMap (String × SendLogDevice) SendLogRecipient :=
  tables.recipients.filterKeys fun key => key.1 = clientMessageId

def byDevice (device : SendLogDevice) (clientTimestamp : ℕ) : List SendLogRecipient :=
  tables.recipients.values.filter fun row =>
    row.device = device && row.clientTimestamp = clientTimestamp

def deleteRowsOf (clientMessageId : String) : Tables :=
  { tables with recipients := tables.recipients.filterKeys fun key => key.1 ≠ clientMessageId }

def deletePayload (clientMessageId : String) : Tables :=
  { tables with payloads := tables.payloads.erase clientMessageId }

def putPayload (payload : SendLogPayload) : Tables :=
  { tables with payloads := tables.payloads.set payload.clientMessageId payload }

def putRow (row : SendLogRecipient) : Tables :=
  { tables with recipients := tables.recipients.set (row.clientMessageId, row.device) row }

def deleteRow (clientMessageId : String) (device : SendLogDevice) : Tables :=
  { tables with recipients := tables.recipients.erase (clientMessageId, device) }

def putJob (job : SendLogResendJob) : Tables :=
  { tables with resendJobs := tables.resendJobs.set job.jobId job }

def insertMissing (clientMessageId : String) (clientTimestamp : ℕ)
    (devices : List SendLogDevice) : Tables :=
  devices.foldl (fun tables device =>
    if tables.recipients.has (clientMessageId, device) then tables
    else tables.putRow (newRow clientMessageId clientTimestamp device)) tables

def deleteIfFinished (clientMessageId : String) : Tables :=
  match tables.payloads.get? clientMessageId with
  | none => tables
  | some payload =>
    if !payload.sendComplete then tables
    else if 0 < (tables.rowsOf clientMessageId).size then tables
    else tables.deletePayload clientMessageId

def deleteFound (device : SendLogDevice) : List String → Tables → Tables
  | [], tables => tables
  | clientMessageId :: rest, tables =>
    deleteFound device rest
      ((tables.deleteRow clientMessageId device).deleteIfFinished clientMessageId)

def deleteByTimestamps (device : SendLogDevice) : List ℕ → ℕ × Tables → ℕ × Tables
  | [], reached => reached
  | clientTimestamp :: rest, (deleted, tables) =>
    let found := tables.byDevice device clientTimestamp
    deleteByTimestamps device rest
      (deleted + found.length, deleteFound device (found.map (·.clientMessageId)) tables)

def deleteOld (now : ℕ) (maxAgeMs : ℤ) : Tables :=
  let old := fun clientMessageId =>
    (tables.payloads.get? clientMessageId).any fun payload => expired now maxAgeMs payload.createdAt
  { payloads := tables.payloads.filterEntries fun _ payload =>
      !expired now maxAgeMs payload.createdAt
    recipients := tables.recipients.filterKeys fun key => !old key.1
    resendJobs := tables.resendJobs.filterEntries fun _ job => !expired now maxAgeMs job.createdAt }

def countOld (now : ℕ) (maxAgeMs : ℤ) : ℕ :=
  (tables.payloads.filterEntries fun _ payload => expired now maxAgeMs payload.createdAt).size

def join (rows : List SendLogRecipient) : List SendLogEntry :=
  rows.filterMap fun row =>
    (tables.payloads.get? row.clientMessageId).map fun payload => { payload, recipient := row }

end Tables

/-! ## The IndexedDB store and the SQLite store

Both keep tables. IndexedDB returns what its comparators sort, and SQLite what its statements
order. -/

open Listing (sortBy)
open Tables

def indexedDbStep (tables : Tables) (now : ℕ) : Call → Answer × Tables
  | .storeSendLogEntry payload recipients =>
    let put := (tables.deleteRowsOf payload.clientMessageId).putPayload (payload.stored now)
    (.done, recipients.foldl (fun tables device =>
      tables.putRow (newRow payload.clientMessageId payload.clientTimestamp device)) put)
  | .appendSendLogRecipients clientMessageId recipients =>
    match tables.payloads.get? clientMessageId with
    | none => (.done, tables)
    | some payload =>
      (.done, tables.insertMissing clientMessageId payload.clientTimestamp recipients)
  | .markSendLogComplete clientMessageId =>
    match tables.payloads.get? clientMessageId with
    | none => (.done, tables)
    | some payload =>
      if (tables.rowsOf clientMessageId).size = 0 then
        (.done, tables.deletePayload clientMessageId)
      else (.done, tables.putPayload { payload with sendComplete := true })
  | .getSendLogEntry clientMessageId recipient =>
    let entry := do
      let payload ← tables.payloads.get? clientMessageId
      let recipient ← tables.recipients.get? (clientMessageId, recipient)
      return { payload, recipient }
    (.entry entry, tables)
  | .findSendLogEntries recipient clientTimestamp =>
    let found := tables.join (tables.byDevice recipient clientTimestamp)
    (.entries (sortBy (entryKey codeUnits) found), tables)
  | .getSendLogRecipients clientMessageId =>
    (.recipients (sortBy (deviceKey codeUnits) (tables.rowsOf clientMessageId).values), tables)
  | .deleteSendLogRecipient clientMessageId recipient =>
    if tables.recipients.has (clientMessageId, recipient) then
      (.deleted true, (tables.deleteRow clientMessageId recipient).deleteIfFinished clientMessageId)
    else (.deleted false, tables)
  | .deleteSendLogRecipientsByTimestamp recipient clientTimestamps =>
    let deleted := deleteByTimestamps recipient clientTimestamps.dedup (0, tables)
    (.count deleted.1, deleted.2)
  | .incrementSendLogResendCount clientMessageId recipient =>
    match tables.recipients.get? (clientMessageId, recipient) with
    | none => (.responses none, tables)
    | some row =>
      let counted := { row with responses := row.responses + 1 }
      (.responses (some counted.responses), tables.putRow counted)
  | .deleteSendLogEntry clientMessageId =>
    (.deleted (tables.payloads.has clientMessageId),
      (tables.deleteRowsOf clientMessageId).deletePayload clientMessageId)
  | .deleteExpiredSendLog maxAgeMs =>
    (.count (tables.countOld now maxAgeMs), tables.deleteOld now maxAgeMs)
  | .clearSendLog => (.count tables.payloads.size, Tables.empty)
  | .storeResendJob job =>
    let createdAt := ((tables.resendJobs.get? job.jobId).map (·.createdAt)).getD now
    (.done, tables.putJob { job with createdAt })
  | .getResendJob jobId => (.job (tables.resendJobs.get? jobId), tables)
  | .getPendingResendJobs =>
    let pending := tables.resendJobs.values.filter fun job => job.state = .pending
    (.jobs (sortBy (jobKey codeUnits) pending), tables)
  | .completeResendJob jobId state =>
    match tables.resendJobs.get? jobId with
    | none => (.done, tables)
    | some job => (.done, tables.putJob { job with state := state.state })

/-- `deleteSendLogPayload`: the rows first, then the payload. -/
def Tables.deleteSendLogPayload (tables : Tables) (clientMessageId : String) : Tables :=
  (tables.deleteRowsOf clientMessageId).deletePayload clientMessageId

/-- `setSendLogComplete`, for a send that has a payload. -/
def Tables.setSendLogComplete (tables : Tables) (payload : SendLogPayload) : Tables :=
  tables.putPayload { payload with sendComplete := true }

def Tables.changedRows (device : SendLogDevice) : List String → Tables → ℕ
  | [], _ => 0
  | clientMessageId :: rest, tables =>
    (if tables.recipients.has (clientMessageId, device) then 1 else 0) +
      changedRows device rest
        ((tables.deleteRow clientMessageId device).deleteIfFinished clientMessageId)

def Tables.deleteByTimestampRows (device : SendLogDevice) :
    List ℕ → ℕ × Tables → ℕ × Tables
  | [], reached => reached
  | clientTimestamp :: rest, (deleted, tables) =>
    let found := (tables.byDevice device clientTimestamp).map (·.clientMessageId)
    deleteByTimestampRows device rest
      (deleted + tables.changedRows device found, deleteFound device found tables)

def sqliteStep (tables : Tables) (now : ℕ) : Call → Answer × Tables
  | .storeSendLogEntry payload recipients =>
    let put := (tables.deleteSendLogPayload payload.clientMessageId).putPayload
      (payload.stored now)
    (.done, put.insertMissing payload.clientMessageId payload.clientTimestamp recipients)
  | .appendSendLogRecipients clientMessageId recipients =>
    match tables.payloads.get? clientMessageId with
    | none => (.done, tables)
    | some payload =>
      (.done, tables.insertMissing clientMessageId payload.clientTimestamp recipients)
  | .markSendLogComplete clientMessageId =>
    match tables.payloads.get? clientMessageId with
    | none => (.done, tables)
    | some payload =>
      (.done, (tables.setSendLogComplete payload).deleteIfFinished clientMessageId)
  | .getSendLogEntry clientMessageId recipient =>
    let rows := (tables.recipients.get? (clientMessageId, recipient)).toList
    (.entry (tables.join rows).head?, tables)
  | .findSendLogEntries recipient clientTimestamp =>
    let found := tables.join (tables.byDevice recipient clientTimestamp)
    (.entries (sortBy (entryKey codePoints) found), tables)
  | .getSendLogRecipients clientMessageId =>
    (.recipients (sortBy (deviceKey codePoints) (tables.rowsOf clientMessageId).values), tables)
  | .deleteSendLogRecipient clientMessageId recipient =>
    if tables.recipients.has (clientMessageId, recipient) then
      (.deleted true, (tables.deleteRow clientMessageId recipient).deleteIfFinished clientMessageId)
    else (.deleted false, tables)
  | .deleteSendLogRecipientsByTimestamp recipient clientTimestamps =>
    let deleted := deleteByTimestampRows recipient clientTimestamps.dedup (0, tables)
    (.count deleted.1, deleted.2)
  | .incrementSendLogResendCount clientMessageId recipient =>
    match tables.recipients.get? (clientMessageId, recipient) with
    | none => (.responses none, tables)
    | some row =>
      let counted := tables.putRow { row with responses := row.responses + 1 }
      (.responses ((counted.recipients.get? (clientMessageId, recipient)).map (·.responses)),
        counted)
  | .deleteSendLogEntry clientMessageId =>
    (.deleted (tables.payloads.has clientMessageId), tables.deleteSendLogPayload clientMessageId)
  | .deleteExpiredSendLog maxAgeMs =>
    (.count (tables.countOld now maxAgeMs), tables.deleteOld now maxAgeMs)
  | .clearSendLog => (.count tables.payloads.size, Tables.empty)
  | .storeResendJob job =>
    -- A conflict keeps the first time of the job.
    match tables.resendJobs.get? job.jobId with
    | none => (.done, tables.putJob { job with createdAt := now })
    | some existing => (.done, tables.putJob { job with createdAt := existing.createdAt })
  | .getResendJob jobId => (.job (tables.resendJobs.get? jobId), tables)
  | .getPendingResendJobs =>
    let pending := tables.resendJobs.values.filter fun job => job.state = .pending
    (.jobs (sortBy (jobKey codePoints) pending), tables)
  | .completeResendJob jobId state =>
    match tables.resendJobs.get? jobId with
    | none => (.done, tables)
    | some job => (.done, tables.putJob { job with state := state.state })

/-! ## The send log of the key-value store

Payloads, creation indexes, recipient rows and jobs, each under a text that joins its parts. -/

open KeyValue

def hexDigit (value : ℕ) : Char := "0123456789ABCDEF".toList.getD value '0'

def hexValue? (char : Char) : Option ℕ :=
  if char.isDigit then some (char.toNat - '0'.toNat)
  else if 'A' ≤ char && char ≤ 'F' then some (char.toNat - 'A'.toNat + 10)
  else if 'a' ≤ char && char ≤ 'f' then some (char.toNat - 'a'.toNat + 10)
  else none

/-- The characters that `encodeURIComponent` keeps. -/
def isUnreserved (char : Char) : Bool :=
  (char.toNat < 128 && char.isAlphanum) || "-_.!~*'()".toList.contains char

def percentByte (byte : UInt8) : KeyText :=
  ['%', hexDigit (byte.toNat / 16), hexDigit (byte.toNat % 16)]

def component (value : String) : KeyText :=
  value.toList.flatMap fun char =>
    if isUnreserved char then [char] else (String.utf8EncodeChar char).flatMap percentByte

def percentDecode : KeyText → Option (List UInt8)
  | [] => some []
  | '%' :: first :: second :: rest => do
      let high ← hexValue? first
      let low ← hexValue? second
      let bytes ← percentDecode rest
      return .ofNat (16 * high + low) :: bytes
  | char :: rest => do
      if char = '%' then none
      let bytes ← percentDecode rest
      return String.utf8EncodeChar char ++ bytes

/-- `decodeURIComponent(text)`. With none, it throws. -/
def decodeComponent (text : KeyText) : Option String := do
  let bytes ← percentDecode text
  let chars ← bytes.toByteArray.utf8Decode?
  return String.ofList chars.toList

def sendLogPrefix : KeyText := "@signal:send-log:".toList
def payloadPrefix : KeyText := "@signal:send-log:payload:".toList
def createdPrefix : KeyText := "@signal:send-log:created:".toList
def recipientPrefix : KeyText := "@signal:send-log:recipient:".toList
def jobPrefix : KeyText := "@signal:send-log:job:".toList

def payloadKey (clientMessageId : String) : KeyText := payloadPrefix ++ component clientMessageId

def createdKey (createdAt : ℕ) (clientMessageId : String) : KeyText :=
  createdPrefix ++ (decimal createdAt ++ ':' :: component clientMessageId)

def deviceTimestampPrefix (device : SendLogDevice) (clientTimestamp : ℕ) : KeyText :=
  recipientPrefix ++ (component device.userId ++ ':' ::
    (decimal device.deviceId ++ ':' :: (decimal clientTimestamp ++ [':'])))

def recipientKey (device : SendLogDevice) (clientTimestamp : ℕ) (clientMessageId : String) :
    KeyText :=
  deviceTimestampPrefix device clientTimestamp ++ component clientMessageId

def resendJobKey (jobId : String) : KeyText := jobPrefix ++ component jobId

structure RowKey where
  key : KeyText
  device : SendLogDevice
  clientTimestamp : ℕ
  clientMessageId : String

def parseRowKey (key : KeyText) : Option RowKey :=
  if startsWith recipientPrefix key then
    match JoinedText.split ':' (key.drop recipientPrefix.length) with
    | [userId, deviceId, clientTimestamp, clientMessageId] => do
        let userId ← decodeComponent userId
        let deviceId ← numberOf deviceId
        let clientTimestamp ← numberOf clientTimestamp
        let clientMessageId ← decodeComponent clientMessageId
        return { key, device := { userId, deviceId }, clientTimestamp, clientMessageId }
    | _ => none
  else none

def rowKeysOf (allKeys : List KeyText) (clientMessageId : String) : List RowKey :=
  (allKeys.filterMap parseRowKey).filter fun row => row.clientMessageId = clientMessageId

def createdKeysOf (allKeys : List KeyText) (clientMessageId : String) : List KeyText :=
  allKeys.filter fun key =>
    startsWith createdPrefix key && (':' :: component clientMessageId).isSuffixOf key

def deviceRows (allKeys : List KeyText) (device : SendLogDevice) (clientTimestamp : ℕ) :
    List RowKey :=
  (allKeys.filter (startsWith (deviceTimestampPrefix device clientTimestamp))).filterMap parseRowKey

def parseCreatedKey (key : KeyText) : Option (ℕ × String) :=
  if startsWith createdPrefix key then
    match JoinedText.split ':' (key.drop createdPrefix.length) with
    | createdAt :: clientMessageId :: _ => do
        let createdAt ← numberOf createdAt
        let clientMessageId ← decodeComponent clientMessageId
        return (createdAt, clientMessageId)
    | _ => none
  else none

inductive StoredValue where
  | payload (payload : SendLogPayload)
  | created
  | count (responses : ℕ)
  | job (job : SendLogResendJob)

abbrev Backend := OrderedMap KeyText StoredValue

abbrev WriteBatch := List (KeyText × Option StoredValue)

namespace WriteBatch

def writes (batch : WriteBatch) : OrderedMap KeyText (Option StoredValue) :=
  batch.foldl (fun writes entry => writes.set entry.1 entry.2) ∅

def write (backend : Backend) : KeyText × Option StoredValue → Backend
  | (key, some value) => backend.set key value
  | (key, none) => backend.erase key

def commit (batch : WriteBatch) (backend : Backend) : Backend :=
  batch.writes.entries.foldl write backend

end WriteBatch

namespace Backend

variable (backend : Backend)

def readPayload (clientMessageId : String) : Option SendLogPayload :=
  match backend.get? (payloadKey clientMessageId) with
  | some (.payload payload) => some payload
  | _ => none

def readCount (key : KeyText) : Option ℕ :=
  match backend.get? key with
  | some (.count responses) => some responses
  | _ => none

def readJob (key : KeyText) : Option SendLogResendJob :=
  match backend.get? key with
  | some (.job job) => some job
  | _ => none

def removeEntry (clientMessageId : String) : WriteBatch :=
  (payloadKey clientMessageId, none) ::
    (createdKeysOf backend.keys clientMessageId).map (·, none) ++
      (rowKeysOf backend.keys clientMessageId).map fun row => (row.key, none)

def removeIfFinished (payload : SendLogPayload) (removed : List KeyText) : WriteBatch :=
  if payload.sendComplete &&
      (rowKeysOf backend.keys payload.clientMessageId).all fun row => row.key ∈ removed then
    backend.removeEntry payload.clientMessageId
  else []

def entryOf (clientMessageId : String) (device : SendLogDevice) : Option SendLogEntry := do
  let payload ← backend.readPayload clientMessageId
  let responses ← backend.readCount (recipientKey device payload.clientTimestamp clientMessageId)
  return {
    payload
    recipient := {
      clientMessageId
      device
      clientTimestamp := payload.clientTimestamp
      responses } }

def jobs : List SendLogResendJob :=
  (backend.keys.filter (startsWith jobPrefix)).filterMap backend.readJob

def rowsAt (device : SendLogDevice) (clientTimestamps : List ℕ) : List RowKey :=
  clientTimestamps.dedup.flatMap (deviceRows backend.keys device)

def expiredSends (now : ℕ) (maxAgeMs : ℤ) : List String :=
  ((backend.keys.filterMap parseCreatedKey).filterMap fun created =>
    if expired now maxAgeMs created.1 then some created.2 else none).dedup

def step (now : ℕ) : Call → Answer × Backend
  | .storeSendLogEntry payload recipients =>
    let stored := payload.stored now
    let rows := recipients.map fun device =>
      (recipientKey device payload.clientTimestamp payload.clientMessageId, some (.count 0))
    let batch : WriteBatch := backend.removeEntry payload.clientMessageId ++
      (payloadKey payload.clientMessageId, some (.payload stored)) ::
      (createdKey now payload.clientMessageId, some .created) :: rows
    (.done, batch.commit backend)
  | .appendSendLogRecipients clientMessageId recipients =>
    match backend.readPayload clientMessageId with
    | none => (.done, backend)
    | some payload =>
      let missing := recipients.filter fun device =>
        !backend.has (recipientKey device payload.clientTimestamp clientMessageId)
      let batch : WriteBatch := missing.map fun device =>
        (recipientKey device payload.clientTimestamp clientMessageId, some (.count 0))
      (.done, batch.commit backend)
  | .markSendLogComplete clientMessageId =>
    match backend.readPayload clientMessageId with
    | none => (.done, backend)
    | some payload =>
      if rowKeysOf backend.keys clientMessageId = [] then
        (.done, WriteBatch.commit (backend.removeEntry clientMessageId) backend)
      else
        (.done, backend.set (payloadKey clientMessageId)
          (.payload { payload with sendComplete := true }))
  | .getSendLogEntry clientMessageId recipient =>
    (.entry (backend.entryOf clientMessageId recipient), backend)
  | .findSendLogEntries recipient clientTimestamp =>
    let found := (deviceRows backend.keys recipient clientTimestamp).filterMap fun row =>
      backend.entryOf row.clientMessageId recipient
    (.entries (sortBy (entryKey codeUnits) found), backend)
  | .getSendLogRecipients clientMessageId =>
    let rows := (rowKeysOf backend.keys clientMessageId).filterMap fun row =>
      (backend.readCount row.key).map fun responses =>
        { clientMessageId
          device := row.device
          clientTimestamp := row.clientTimestamp
          responses }
    (.recipients (sortBy (deviceKey codeUnits) rows), backend)
  | .deleteSendLogRecipient clientMessageId recipient =>
    match backend.readPayload clientMessageId with
    | none => (.deleted false, backend)
    | some payload =>
      let key := recipientKey recipient payload.clientTimestamp clientMessageId
      if backend.has key then
        let batch : WriteBatch := (key, none) :: backend.removeIfFinished payload [key]
        (.deleted true, batch.commit backend)
      else (.deleted false, backend)
  | .deleteSendLogRecipientsByTimestamp recipient clientTimestamps =>
    let removed := backend.rowsAt recipient clientTimestamps
    let keys := (removed.map (·.key)).dedup
    let touched := (removed.map (·.clientMessageId)).dedup.filterMap backend.readPayload
    let batch : WriteBatch := keys.map (·, none) ++
      touched.flatMap fun payload => backend.removeIfFinished payload keys
    (.count keys.length, batch.commit backend)
  | .incrementSendLogResendCount clientMessageId recipient =>
    match backend.readPayload clientMessageId with
    | none => (.responses none, backend)
    | some payload =>
      let key := recipientKey recipient payload.clientTimestamp clientMessageId
      match backend.readCount key with
      | none => (.responses none, backend)
      | some responses =>
        (.responses (some (responses + 1)), backend.set key (.count (responses + 1)))
  | .deleteSendLogEntry clientMessageId =>
    if backend.has (payloadKey clientMessageId) then
      (.deleted true, WriteBatch.commit (backend.removeEntry clientMessageId) backend)
    else (.deleted false, backend)
  | .deleteExpiredSendLog maxAgeMs =>
    let sends := backend.expiredSends now maxAgeMs
    let old := (backend.keys.filter (startsWith jobPrefix)).filter fun key =>
      (backend.readJob key).any fun job => expired now maxAgeMs job.createdAt
    let batch : WriteBatch := sends.flatMap backend.removeEntry ++ old.map (·, none)
    (.count (sends.filter fun clientMessageId => backend.has (payloadKey clientMessageId)).length,
      batch.commit backend)
  | .clearSendLog =>
    let keys := backend.keys.filter (startsWith sendLogPrefix)
    let batch : WriteBatch := keys.map (·, none)
    (.count (keys.filter (startsWith payloadPrefix)).length, batch.commit backend)
  | .storeResendJob job =>
    let key := resendJobKey job.jobId
    let createdAt := ((backend.readJob key).map (·.createdAt)).getD now
    (.done, backend.set key (.job { job with createdAt }))
  | .getResendJob jobId => (.job (backend.readJob (resendJobKey jobId)), backend)
  | .getPendingResendJobs =>
    let pending := backend.jobs.filter fun job => job.state = .pending
    (.jobs (sortBy (jobKey codeUnits) pending), backend)
  | .completeResendJob jobId state =>
    let key := resendJobKey jobId
    match backend.readJob key with
    | none => (.done, backend)
    | some job => (.done, backend.set key (.job { job with state := state.state }))

end Backend

end SignalProtocol.SendLog

import SignalProtocol.Groups.AccessControl

/-! # Concurrent group operations

The operations of the group manager on one group, one step for each await: a read or a write of the
store, an answer of the server, or the end of a rotation callback. -/

namespace SignalProtocol.Groups

structure GroupAccount where
  aci : Bytes
  pni : Option Bytes

namespace GroupAccount

variable (self : GroupAccount)

def aciServiceId : Bytes := serviceIdAci :: self.aci

def pniServiceId : Option Bytes := self.pni.map (serviceIdPni :: ·)

end GroupAccount

def isMember (group : DecryptedGroup) (aciBytes : Bytes) : Bool :=
  (findMember group aciBytes).isSome

def isPending (group : DecryptedGroup) (serviceIdBytes : Bytes) : Bool :=
  group.pendingMembers.any fun pending => pending.serviceIdBytes = serviceIdBytes

section Account

variable (self : GroupAccount)

def isBannedSelf (state : DecryptedGroup) : Bool :=
  isBanned state self.aciServiceId || self.pniServiceId.any (isBanned state)

def isReadableBySelf (state : DecryptedGroup) : Bool :=
  if isBannedSelf self state then false
  else
    isMember state self.aci || isPending state self.aciServiceId ||
      self.pniServiceId.any (isPending state)

def sourceServiceIdForState (state : DecryptedGroup) : Bytes :=
  let aciMatches := isMember state self.aci || isPending state self.aciServiceId ||
    state.requestingMembers.any fun member => member.aciBytes = self.aci
  match self.pniServiceId with
  | none => self.aciServiceId
  | some pniServiceId =>
    if ¬ aciMatches ∧ isPending state pniServiceId then pniServiceId else self.aciServiceId

def namedAliases (change : DecryptedGroupChange) : List Bytes :=
  let promotions := change.promotePendingPniAciMembers.filterMap fun promotion =>
    if self.pni = some promotion.pniBytes then self.pniServiceId else none
  let removals := change.deletePendingMembers.filterMap fun removal =>
    if removal.serviceIdBytes = self.aciServiceId then some self.aciServiceId
    else if self.pniServiceId = some removal.serviceIdBytes then self.pniServiceId
    else none
  let requests :=
    if change.deleteRequestingMembers.any (· = self.aci) then [self.aciServiceId] else []
  (promotions ++ removals ++ requests).eraseDups

def actionNamedSourceServiceId (change : DecryptedGroupChange) : Except String (Option Bytes) :=
  match namedAliases self change with
  | [] => pure none
  | [serviceId] => pure (some serviceId)
  | _ => throw ("AMBIGUOUS_CHANGE_ATTRIBUTION: A change cannot exercise self-rights under " ++
      "multiple aliases")

end Account

structure StoredGroupRecord where
  masterKey : Option Bytes
  state : Option DecryptedGroup
  senderKeyRotationBarrier : Option ℤ

namespace StoredGroupRecord

variable (record : StoredGroupRecord)

def storeGroupState (state : DecryptedGroup) : StoredGroupRecord :=
  { record with state := some state }

def storeGroupStateWithSenderKeyRotationBarrier (state : DecryptedGroup) : StoredGroupRecord :=
  { record with state := some state, senderKeyRotationBarrier := some state.revision }

def clearSenderKeyRotationBarrier (expectedRevision : ℤ) : StoredGroupRecord :=
  if record.senderKeyRotationBarrier = some expectedRevision then
    { record with senderKeyRotationBarrier := none }
  else record

end StoredGroupRecord

def requiresSenderKeyRotation (change : DecryptedGroupChange) : Bool :=
  change.deleteMembers ≠ [] ∨ change.newBannedMembers ≠ [] ∨ change.terminate = some true

def assertGroupSendAllowed (self : GroupAccount) (rawGroupId : String)
    (record : StoredGroupRecord) : Except String Unit := do
  if let some revision := record.senderKeyRotationBarrier then
    throw ("GROUP_SEND_BLOCKED_BY_SECURITY_REACTION: Sender-key rotation is pending for group " ++
      s!"{rawGroupId} at accepted revision {revision}")
  -- Without a master key the group is no managed one.
  if record.masterKey.isNone then return
  let some state := record.state
    | throw (s!"GROUP_SEND_BLOCKED_BY_ELIGIBILITY: Managed group {rawGroupId} has no verified " ++
        "accepted state")
  if state.terminated then
    throw s!"GROUP_SEND_BLOCKED_BY_ELIGIBILITY: Group {rawGroupId} is terminated"
  if ¬ isMember state self.aci then
    throw s!"GROUP_SEND_BLOCKED_BY_ELIGIBILITY: Sender is not a member of group {rawGroupId}"
  if isBannedSelf self state then
    throw s!"GROUP_SEND_BLOCKED_BY_ELIGIBILITY: Sender is banned from group {rawGroupId}"
  if ¬ canPerformAction state self.aciServiceId .sendMessage {} then
    throw ("GROUP_SEND_BLOCKED_BY_ELIGIBILITY: Sender cannot send messages under the permissions " ++
      s!"of group {rawGroupId}")

structure LogEntry where
  change : DecryptedGroupChange
  state : DecryptedGroup

/-- The entry is the next one after a state, and leads a client that applies it to the state of
the server. -/
def LogEntry.follows (entry : LogEntry) (previous : DecryptedGroup) : Bool :=
  entry.change.revision = previous.revision + 1 ∧ entry.state.revision = previous.revision + 1 ∧
    (applyVerifiedChange previous entry.change).toOption.all fun next => next = entry.state

structure GroupLog where
  initial : DecryptedGroup
  entries : List LogEntry

namespace GroupLog

variable (log : GroupLog)

def states : List DecryptedGroup := log.initial :: log.entries.map LogEntry.state

def head : DecryptedGroup := (log.entries.map LogEntry.state).getLastD log.initial

def append (entry : LogEntry) : GroupLog := { log with entries := log.entries ++ [entry] }

def entriesAfter (revision : ℤ) : List LogEntry := log.entries.drop revision.toNat

end GroupLog

/-! ## Operations -/

inductive SyncCaller where
  | application
  | submit (change : DecryptedGroupChange) (attempts : ℕ)
  | join

inductive Continuation where
  | sync (caller : SyncCaller)
  | apply (state : DecryptedGroup) (entries : List LogEntry) (hasMore : Bool)
      (caller : SyncCaller)
  | applyLast (state : DecryptedGroup) (entry : LogEntry)
  | finish

inductive SnapshotRule where
  | first
  /-- For a pending principal, one that has not regressed. -/
  | pending (revision : ℤ)
  | restored (revision : ℤ)
  | revoked (state : DecryptedGroup)
  | joined (revision : Option ℤ)

inductive Operation where
  | getSenderKeyRotationBarrier (next : Continuation)
  | checkAcceptedState (revision : ℤ) (next : Continuation)
  /-- The callback runs; `started` are the rotations that were persisted when it started. -/
  | onSenderKeyRotation (revision : ℤ) (started : List ℤ) (next : Continuation)
  | clearSenderKeyRotationBarrier (revision : ℤ) (next : Continuation)
  | getGroupState (caller : SyncCaller)
  | getGroup (rule : SnapshotRule) (caller : SyncCaller)
  | storeSnapshot (snapshot : DecryptedGroup) (caller : SyncCaller)
  | getGroupChanges (state : DecryptedGroup) (caller : SyncCaller)
  | storeChange (state next : DecryptedGroup) (change : DecryptedGroupChange)
      (continuation : Continuation)
  | applyCarriedGroupChange (revision : ℤ) (entry : LogEntry)
  | readForSubmit (change : DecryptedGroupChange)
  | submitGroupChange (state : DecryptedGroup) (change : DecryptedGroupChange) (attempts : ℕ)
  | joinViaInviteLink

/-- The operations in flight, with the revisions of the rotating changes that were persisted and
those that a callback begun after them has covered. -/
structure GroupWorld where
  record : StoredGroupRecord
  log : GroupLog
  operations : List Operation
  persisted : List ℤ
  rotated : List ℤ

inductive Answer where
  | none
  | snapshot (revision : ℕ)
  /-- The group is not readable any more. -/
  | notReadable
  | page (size : ℕ) (hasMore : Bool)
  | accepted (entry : LogEntry)

section Steps

variable (self : GroupAccount)

def rebaseChange (state : DecryptedGroup) (change : DecryptedGroupChange) :
    Option DecryptedGroupChange :=
  match actionNamedSourceServiceId self change with
  | .error _ => none
  | .ok named =>
    let rebasedChange := { change with
      editorServiceIdBytes := named.getD (sourceServiceIdForState self state)
      revision := state.revision + 1 }
    if validateChangeAuthorization state rebasedChange = [] ∧
        validateChangeStructure state rebasedChange .submission = [] then
      some rebasedChange
    else none

def afterSync (state : DecryptedGroup) : SyncCaller → Option Operation
  | .application => none
  | .submit change attempts => some (.submitGroupChange state change attempts)
  | .join =>
    if isReadableBySelf self state then none
    else some (.getGroup (.joined (some state.revision)) .application)

/-- The rest of a page, or of the sync when it is empty. `none` ends the operation. -/
def applyEntries (state : DecryptedGroup) (entries : List LogEntry) (hasMore : Bool)
    (caller : SyncCaller) : Option Operation :=
  match entries with
  | entry :: rest =>
    match applyVerifiedChange state entry.change with
    | .error _ => none
    | .ok next =>
      some (.storeChange state next entry.change (.apply next rest hasMore caller))
  | [] =>
    if hasMore then some (.getGroupChanges state caller)
    else if isReadableBySelf self state then afterSync self state caller
    else some (.getGroup (.revoked state) caller)

def resume : Continuation → Option Operation
  | .sync caller => some (.getGroupState caller)
  | .apply state entries hasMore caller => applyEntries self state entries hasMore caller
  | .applyLast state entry =>
    match applyVerifiedChange state entry.change with
    | .error _ => none
    | .ok next => some (.storeChange state next entry.change .finish)
  | .finish => none

def SnapshotRule.takes (snapshot : DecryptedGroup) : SnapshotRule → Bool
  | first => true
  | pending revision => revision ≤ snapshot.revision
  | restored revision => revision < snapshot.revision ∧ isReadableBySelf self snapshot
  | revoked state => state.revision < snapshot.revision ∧ isReadableBySelf self snapshot
  | joined none => isMember snapshot self.aci
  | joined (some revision) => revision < snapshot.revision ∧ isMember snapshot self.aci

/-- `syncGroup` starts with the retry of a pending rotation. -/
def syncGroup (caller : SyncCaller) : Operation :=
  .getSenderKeyRotationBarrier (.sync caller)

def Operation.step (world : GroupWorld) (answer : Answer) :
    Operation → Option (GroupWorld × Option Operation)
  | getSenderKeyRotationBarrier next =>
    match world.record.senderKeyRotationBarrier with
    | Option.none => some (world, resume self next)
    | some revision => some (world, some (checkAcceptedState revision next))
  | checkAcceptedState revision next =>
    if world.record.state.any fun state => revision ≤ state.revision then
      some (world, some (onSenderKeyRotation revision world.persisted next))
    else some (world, Option.none)
  | onSenderKeyRotation revision started next =>
    some ({ world with rotated := world.rotated ++ started },
      some (clearSenderKeyRotationBarrier revision next))
  | clearSenderKeyRotationBarrier revision next =>
    some ({ world with record := world.record.clearSenderKeyRotationBarrier revision },
      resume self next)
  | getGroupState caller =>
    match world.record.state with
    | Option.none => some (world, some (getGroup .first caller))
    | some cached =>
      if ¬ isReadableBySelf self cached then
        some (world, some (getGroup (.restored cached.revision) caller))
      else if ¬ isMember cached self.aci then
        some (world, some (getGroup (.pending cached.revision) caller))
      else some (world, some (getGroupChanges cached caller))
  | getGroup rule caller =>
    match answer with
    | .snapshot revision =>
      (world.log.states[revision]?).map fun snapshot =>
        (world, if rule.takes self snapshot then some (storeSnapshot snapshot caller)
          else Option.none)
    | .notReadable =>
      match rule with
      | .revoked state => some (world, afterSync self state caller)
      | _ => some (world, Option.none)
    | _ => Option.none
  | storeSnapshot snapshot caller =>
    some ({ world with record := world.record.storeGroupState snapshot },
      afterSync self snapshot caller)
  | getGroupChanges state caller =>
    match answer with
    | .page size hasMore =>
      let page := (world.log.entriesAfter state.revision).take size
      -- A page that claims more and serves nothing is an error.
      if hasMore ∧ page = [] then some (world, Option.none)
      else some (world, applyEntries self state page hasMore caller)
    | _ => Option.none
  | storeChange _ next change continuation =>
    if requiresSenderKeyRotation change then
      some ({ world with
          record := world.record.storeGroupStateWithSenderKeyRotationBarrier next
          persisted := world.persisted ++ [next.revision] },
        some (checkAcceptedState next.revision continuation))
    else
      some ({ world with record := world.record.storeGroupState next }, resume self continuation)
  | applyCarriedGroupChange revision entry =>
    match world.record.state with
    | Option.none => some (world, Option.none)
    | some state =>
      if revision = state.revision + 1 ∧ isMember state self.aci ∧ isReadableBySelf self state then
        some (world, some (getSenderKeyRotationBarrier (.applyLast state entry)))
      else some (world, Option.none)
  | readForSubmit change =>
    match world.record.state with
    | Option.none => some (world, some (syncGroup (.submit change 3)))
    | some state => some (world, some (submitGroupChange state change 3))
  | submitGroupChange state change attempts =>
    match rebaseChange self state change with
    | Option.none => some (world, Option.none)
    | some _ =>
      if state.revision = world.log.head.revision then
        match answer with
        | .accepted entry =>
          if entry.follows world.log.head then
            some ({ world with log := world.log.append entry },
              resume self (.applyLast state entry))
          else Option.none
        | _ => Option.none
      else
        -- A conflict of versions.
        match attempts with
        | 0 => some (world, Option.none)
        | attempts + 1 => some (world, some (syncGroup (.submit change attempts)))
  | joinViaInviteLink =>
    match world.record.state with
    | Option.none => some (world, some (getGroup (.joined Option.none) .application))
    | some cached =>
      if isReadableBySelf self cached then some (world, some (syncGroup .join))
      else some (world, some (getGroup (.joined (some cached.revision)) .application))

end Steps

inductive GroupEvent where
  | sync
  | carried (revision : ℤ) (position : ℕ)
  | submit (change : DecryptedGroupChange)
  | join
  | advance (index : ℕ) (answer : Answer)
  /-- The operation throws: the server refuses, the callback fails or the process drops it. -/
  | fail (index : ℕ)
  | append (entry : LogEntry)
  | restart

def GroupWorld.begin (world : GroupWorld) (operation : Operation) : GroupWorld :=
  { world with operations := world.operations ++ [operation] }

def replaceOperation (operations : List Operation) (index : ℕ) :
    Option Operation → List Operation
  | none => operations.eraseIdx index
  | some next => operations.set index next

def GroupWorld.step (self : GroupAccount) (world : GroupWorld) :
    GroupEvent → Option GroupWorld
  | .sync => some (world.begin (syncGroup .application))
  | .carried revision position =>
    (world.log.entries[position]?).map fun entry =>
      world.begin (.applyCarriedGroupChange revision entry)
  | .submit change => some (world.begin (.readForSubmit change))
  | .join => some (world.begin .joinViaInviteLink)
  | .advance index answer => do
      let operation ← world.operations[index]?
      let (next, continued) ← operation.step self world answer
      some { next with operations := replaceOperation world.operations index continued }
  | .fail index => some { world with operations := world.operations.eraseIdx index }
  | .append entry =>
    if entry.follows world.log.head then some { world with log := world.log.append entry }
    else none
  | .restart => some { world with operations := [] }

end SignalProtocol.Groups

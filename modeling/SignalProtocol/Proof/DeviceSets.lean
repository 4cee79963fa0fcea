import SignalProtocol.Library.KeyedLists
import SignalProtocol.Proof.DestinationProgress
import SignalProtocol.Proof.KeyTexts

/-! # Device set repairs keep an intent consistent

A change of the device set keeps the messages of every device that it does not remove, and the
messages that it brings stand once. -/

namespace SignalProtocol.Outbox.DeviceSets

open KeyValue KeyedLists Results List OrderedMap

variable {removed : List OutgoingGroupDevice} {touched : List String}
  {first second before : StoredOutgoingMessageIntent} (intent : StoredOutgoingMessageIntent)
  (shared : SharedMessageChange)

theorem outgoingDeviceKey_inj {first second : OutgoingGroupDevice} :
    outgoingDeviceKey first = outgoingDeviceKey second ↔ first = second := by
  have hkey (device : OutgoingGroupDevice) : (outgoingDeviceKey device).toList =
      device.userId.toList ++ Char.ofNat 0 :: (toString device.deviceId).toList := by
    rw [outgoingDeviceKey, nulText, String.toList_append, String.toList_append]
    simp
  have hnum (number : ℕ) : (toString number).toList = decimal number := by
    change (Nat.repr number).toList = _
    rw [Nat.repr, String.toList_ofList]
    rfl
  have hdigits (device : OutgoingGroupDevice) :
      Char.ofNat 0 ∉ (toString device.deviceId).toList := by
    rw [hnum]
    exact not_mem_decimal rfl device.deviceId
  constructor
  · intro hsame
    have hlists := congrArg String.toList hsame
    rw [hkey, hkey, JoinedText.concat_inj (hdigits first) (hdigits second), hnum, hnum,
      decimal_inj] at hlists
    obtain ⟨huser, hdev⟩ := hlists
    cases first with
    | mk userId deviceId =>
      cases second with
      | mk otherUserId otherDeviceId =>
        rw [OutgoingGroupDevice.mk.injEq]
        exact ⟨String.toList_inj.mp huser, hdev⟩
  · exact congrArg outgoingDeviceKey

theorem mem_removedKeys {device : OutgoingGroupDevice} :
    outgoingDeviceKey device ∈ removed.map outgoingDeviceKey ↔ device ∈ removed := by
  rw [mem_map]
  constructor
  · rintro ⟨other, hother, hsame⟩
    rwa [← outgoingDeviceKey_inj.mp hsame]
  · exact fun hdev => ⟨device, hdev, rfl⟩

theorem mem_keptMessages {message : StoredOutgoingDeviceMessage}
    {messages : List StoredOutgoingDeviceMessage} :
    message ∈ keptMessages removed messages ↔ message ∈ messages ∧ message.device ∉ removed := by
  rw [keptMessages, mem_filter, decide_eq_true_iff, outgoingMessageDeviceKey, mem_removedKeys]

/-! ## Appended messages -/

variable {messages additions result : List StoredOutgoingDeviceMessage} {refusal : String}

def priorOf (messages : List StoredOutgoingDeviceMessage) (message : StoredOutgoingDeviceMessage) :
    Option StoredOutgoingDeviceMessage :=
  messages.find? fun candidate =>
    outgoingMessageDeviceKey candidate = outgoingMessageDeviceKey message

theorem priorOf_eq_none {message : StoredOutgoingDeviceMessage} :
    priorOf messages message = none ↔
      outgoingMessageDeviceKey message ∉ messages.map outgoingMessageDeviceKey := by
  rw [priorOf, find?_eq_none]
  simp [eq_comm]

theorem mem_of_priorOf {message prior : StoredOutgoingDeviceMessage}
    (hprior : priorOf messages message = some prior) :
    outgoingMessageDeviceKey message ∈ messages.map outgoingMessageDeviceKey := by
  rw [priorOf] at hprior
  have hsame := find?_some hprior
  exact mem_map.mpr ⟨prior, mem_of_find?_eq_some hprior, decide_eq_true_iff.mp hsame⟩

theorem priorOf_of_isPrefix {message prior : StoredOutgoingDeviceMessage}
    (hkept : messages <+: result) (hprior : priorOf messages message = some prior) :
    priorOf result message = some prior := by
  obtain ⟨rest, rfl⟩ := hkept
  rw [priorOf] at hprior
  rw [priorOf, find?_append, hprior]
  rfl

theorem appendOutgoingDeviceMessages_cons (message : StoredOutgoingDeviceMessage) :
    appendOutgoingDeviceMessages messages (message :: additions) refusal =
      (match priorOf messages message with
        | some prior => if prior ≠ message then throw refusal else pure messages
        | none => pure (messages ++ [message])) >>= fun next =>
          appendOutgoingDeviceMessages next additions refusal := by
  rw [appendOutgoingDeviceMessages, foldlM_cons]
  rfl

theorem appendOutgoingDeviceMessages_eq_ok_iff :
    appendOutgoingDeviceMessages messages additions refusal = .ok result ↔
      result = appended outgoingMessageDeviceKey messages additions ∧
        ∀ message ∈ additions, priorOf result message = some message := by
  induction additions generalizing messages with
  | nil =>
    rw [appendOutgoingDeviceMessages, foldlM_nil, appended_nil]
    constructor
    · intro hres
      refine ⟨(Except.ok.inj hres).symm, ?_⟩
      rintro message ⟨⟩
    · rintro ⟨rfl, -⟩
      rfl
  | cons message additions ih =>
    rw [appendOutgoingDeviceMessages_cons, forall_mem_cons]
    cases hprior : priorOf messages message with
    | some prior =>
      rw [appended_cons_of_mem _ (mem_of_priorOf hprior)]
      dsimp only
      by_cases hsame : prior = message
      · rw [if_neg (not_not.mpr hsame), pure_eq_ok, ok_bind, ih]
        constructor
        · rintro ⟨rfl, hall⟩
          rw [hsame] at hprior
          exact ⟨rfl, priorOf_of_isPrefix (isPrefix_appended _ _ _) hprior, hall⟩
        · rintro ⟨hres, -, hall⟩
          exact ⟨hres, hall⟩
      · rw [if_pos hsame, throw_eq_error, error_bind]
        constructor
        · rintro ⟨⟩
        · rintro ⟨rfl, hfound, -⟩
          rw [priorOf_of_isPrefix (isPrefix_appended _ _ _) hprior] at hfound
          exact absurd (Option.some.inj hfound) hsame
    | none =>
      rw [appended_cons_of_not_mem _ (priorOf_eq_none.mp hprior)]
      dsimp only
      rw [pure_eq_ok, ok_bind, ih]
      constructor
      · rintro ⟨rfl, hall⟩
        refine ⟨rfl, priorOf_of_isPrefix (isPrefix_appended _ _ _) ?_, hall⟩
        rw [priorOf] at hprior
        rw [priorOf, find?_append, hprior]
        simp
      · rintro ⟨hres, -, hall⟩
        exact ⟨hres, hall⟩

/-- What a change of a list keeps of it. -/
structure KeepsMessages (removed : List OutgoingGroupDevice)
    (additions before after : List StoredOutgoingDeviceMessage) : Prop where
  kept : before.filter (fun message => message.device ∉ removed) <+: after
  members : ∀ message, message ∈ after ↔
    (message ∈ before ∧ message.device ∉ removed) ∨ message ∈ additions
  once : (before.map StoredOutgoingDeviceMessage.device).Nodup →
    (after.map StoredOutgoingDeviceMessage.device).Nodup

theorem keptMessages_eq (removed : List OutgoingGroupDevice)
    (messages : List StoredOutgoingDeviceMessage) :
    keptMessages removed messages = messages.filter fun message => message.device ∉ removed := by
  rw [keptMessages]
  refine filter_congr fun message _ => ?_
  rw [outgoingMessageDeviceKey, decide_eq_decide, mem_removedKeys]

theorem nodup_keys (messages : List StoredOutgoingDeviceMessage) :
    (messages.map outgoingMessageDeviceKey).Nodup ↔
      (messages.map StoredOutgoingDeviceMessage.device).Nodup := by
  have hkeys : messages.map outgoingMessageDeviceKey =
      (messages.map StoredOutgoingDeviceMessage.device).map outgoingDeviceKey := by
    rw [map_map]
    rfl
  rw [hkeys]
  exact nodup_map_iff fun _ _ hsame => outgoingDeviceKey_inj.mp hsame

theorem keepsMessages_append
    (happended : appendOutgoingDeviceMessages (keptMessages removed messages) additions refusal =
      .ok result) : KeepsMessages removed additions messages result := by
  obtain ⟨rfl, hall⟩ := appendOutgoingDeviceMessages_eq_ok_iff.mp happended
  have hkept := isPrefix_appended outgoingMessageDeviceKey (keptMessages removed messages) additions
  refine ⟨?_, ?_, ?_⟩
  · rwa [← keptMessages_eq]
  · intro message
    rw [← mem_keptMessages]
    constructor
    · exact mem_of_mem_appended outgoingMessageDeviceKey
    · rintro (hold | hnew)
      · exact hkept.subset hold
      · exact mem_of_find?_eq_some (hall message hnew)
  · intro hnodup
    rw [← nodup_keys] at hnodup ⊢
    refine nodup_appended outgoingMessageDeviceKey additions ?_
    exact hnodup.sublist (filter_sublist.map _)

variable {existing changed : StoredOutgoingMessageIntent} {change : DeviceListChange}

theorem changeDeviceLists_eq_ok_iff :
    changeDeviceLists existing change refusal = .ok changed ↔
      ∃ preMessages deviceMessages syncMessages,
        appendOutgoingDeviceMessages (keptMessages change.removed (existing.preMessages.getD []))
          change.preMessages groupRefusal = .ok preMessages ∧
        appendOutgoingDeviceMessages (keptMessages change.removed existing.deviceMessages)
          change.deviceMessages groupRefusal = .ok deviceMessages ∧
        appendOutgoingDeviceMessages (keptMessages change.removed existing.syncMessages)
          change.syncMessages refusal = .ok syncMessages ∧
        changed = { existing with
          preMessages := if preMessages = [] then none else some preMessages
          deviceMessages
          syncMessages } := by
  rw [changeDeviceLists]
  simp only [bind_eq_ok_iff, pure_eq_ok, Except.ok.injEq]
  constructor
  · rintro ⟨preMessages, hpre, deviceMessages, hdev, syncMessages, hsync, hchange⟩
    exact ⟨preMessages, deviceMessages, syncMessages, hpre, hdev, hsync, hchange.symm⟩
  · rintro ⟨preMessages, deviceMessages, syncMessages, hpre, hdev, hsync, hchange⟩
    exact ⟨preMessages, hpre, deviceMessages, hdev, syncMessages, hsync, hchange.symm⟩

theorem getD_stored (preMessages : List StoredOutgoingDeviceMessage) :
    (if preMessages = [] then none else some preMessages).getD [] = preMessages := by
  split
  · next hnil => exact hnil.symm
  · rfl

/-- What a change of the device set keeps of the three lists of an intent. -/
structure KeepsLists (change : DeviceListChange) (existing written : StoredOutgoingMessageIntent) :
    Prop where
  preMessages : KeepsMessages change.removed change.preMessages (existing.preMessages.getD [])
    (written.preMessages.getD [])
  deviceMessages : KeepsMessages change.removed change.deviceMessages existing.deviceMessages
    written.deviceMessages
  syncMessages : KeepsMessages change.removed change.syncMessages existing.syncMessages
    written.syncMessages

theorem keepsLists_change (hchange : changeDeviceLists existing change refusal = .ok changed) :
    KeepsLists change existing changed := by
  obtain ⟨preMessages, deviceMessages, syncMessages, hpre, hdev, hsync, rfl⟩ :=
    changeDeviceLists_eq_ok_iff.mp hchange
  refine ⟨?_, keepsMessages_append hdev, keepsMessages_append hsync⟩
  rw [getD_stored]
  exact keepsMessages_append hpre

/-- The progress key of the device of a message. -/
def messageKey (existing : StoredOutgoingMessageIntent) (message : StoredOutgoingDeviceMessage) :
    String :=
  outgoingDestinationProgressKey (message.clientMessageId.getD existing.clientMessageId)
    message.device

def withoutProgress (existing : StoredOutgoingMessageIntent) : StoredOutgoingMessageIntent :=
  { existing with destinationProgress := none }

structure MarksOnly (touched : List String) (before after : StoredOutgoingMessageIntent) :
    Prop where
  others : withoutProgress after = withoutProgress before
  untouched : ∀ key, key ∉ touched → after.progressEntry key = before.progressEntry key

theorem MarksOnly.refl (touched : List String) (existing : StoredOutgoingMessageIntent) :
    MarksOnly touched existing existing :=
  ⟨rfl, fun _ _ => rfl⟩

theorem MarksOnly.trans {third : StoredOutgoingMessageIntent} {others : List String}
    (hfst : MarksOnly touched first second) (hsnd : MarksOnly others second third) :
    MarksOnly (touched ++ others) first third := by
  refine ⟨hsnd.others.trans hfst.others, ?_⟩
  intro key hkey
  rw [mem_append, not_or] at hkey
  rw [hsnd.untouched key hkey.2, hfst.untouched key hkey.1]

variable {after : StoredOutgoingMessageIntent}

theorem MarksOnly.messageKey_eq
    (hmarks : MarksOnly touched before after) : messageKey after = messageKey before := by
  have hid := congrArg StoredOutgoingMessageIntent.clientMessageId hmarks.others
  change after.clientMessageId = before.clientMessageId at hid
  funext message
  rw [messageKey, messageKey, hid]

theorem marksOnly_repaired (existing : StoredOutgoingMessageIntent) (phase : SendPhase)
    (message : StoredOutgoingDeviceMessage) (recovery : RepairRecovery) (replaced : Bool) :
    MarksOnly [messageKey existing message] existing
      (markOutgoingDestinationRepaired existing phase message recovery replaced) := by
  refine ⟨rfl, ?_⟩
  intro key hkey
  rw [markOutgoingDestinationRepaired, progressEntry_set]
  exact if_neg (mem_singleton.not.mp hkey)

theorem marksOnly_foldl
    {step : StoredOutgoingMessageIntent → StoredOutgoingDeviceMessage → StoredOutgoingMessageIntent}
    (hstep : ∀ existing message,
      MarksOnly [messageKey existing message] existing (step existing message))
    (messages : List StoredOutgoingDeviceMessage) (existing : StoredOutgoingMessageIntent) :
    MarksOnly (messages.map (messageKey existing)) existing (messages.foldl step existing) := by
  induction messages generalizing existing with
  | nil => exact .refl _ _
  | cons message messages ih =>
    have hfst := hstep existing message
    have hrest := ih (step existing message)
    rw [hfst.messageKey_eq] at hrest
    exact hfst.trans hrest

theorem marksOnly_replaced (existing : StoredOutgoingMessageIntent) (change : DeviceListChange) :
    MarksOnly ((change.preMessages ++ change.deviceMessages).map (messageKey existing)) existing
      (markReplaced existing change) := by
  refine marksOnly_foldl (fun existing message => ?_) _ existing
  split
  · exact marksOnly_repaired existing _ message _ _
  · exact .refl _ _

theorem marksOnly_appended (existing : StoredOutgoingMessageIntent) (change : DeviceListChange) :
    MarksOnly ((change.preMessages ++ change.deviceMessages ++ change.syncMessages).map
      (messageKey existing)) existing (markAppended existing change) := by
  have hrecips := marksOnly_foldl
    (fun existing message => marksOnly_repaired existing .recipient message .deviceSet
      (change.removes message)) (change.preMessages ++ change.deviceMessages) existing
  rw [map_append]
  refine hrecips.trans ?_
  rw [← hrecips.messageKey_eq]
  exact marksOnly_foldl
    (fun existing message => marksOnly_repaired existing .sync message .deviceSet
      (change.removes message)) change.syncMessages _

theorem priorOf_filter {keep : StoredOutgoingDeviceMessage → Bool}
    {message : StoredOutgoingDeviceMessage}
    (hkeep : ∀ other, outgoingMessageDeviceKey other = outgoingMessageDeviceKey message →
      keep other = true) (messages : List StoredOutgoingDeviceMessage) :
    priorOf (messages.filter keep) message = priorOf messages message := by
  rw [priorOf, find?_filter]
  unfold priorOf
  congr 1
  funext other
  by_cases hsame : outgoingMessageDeviceKey other = outgoingMessageDeviceKey message
  · simp [hsame, hkeep other hsame]
  · simp [hsame]

def keepsDevice (removed : List OutgoingGroupDevice) (message : StoredOutgoingDeviceMessage) :
    Bool :=
  outgoingMessageDeviceKey message ∉ removed.map outgoingDeviceKey

theorem keepsDevice_eq (removed : List OutgoingGroupDevice)
    (first second : StoredOutgoingDeviceMessage)
    (hsame : outgoingMessageDeviceKey first = outgoingMessageDeviceKey second) :
    keepsDevice removed first = keepsDevice removed second := by
  rw [keepsDevice, keepsDevice, hsame]

/-- The change of a list again: the messages of removed devices move behind the others. -/
theorem append_again {once : List StoredOutgoingDeviceMessage}
    (honce : appendOutgoingDeviceMessages (keptMessages removed messages) additions refusal =
      .ok once) :
    ∃ twice, appendOutgoingDeviceMessages (keptMessages removed once) additions refusal =
      .ok twice ∧ twice.Perm once := by
  obtain ⟨hres, hall⟩ := appendOutgoingDeviceMessages_eq_ok_iff.mp honce
  have hkeys := keepsDevice_eq removed
  have hkept := filter_again _ hkeys once additions fun message hmem => by
    rw [hres]
    exact key_mem_appended _ hmem
  have hdropped := filter_drop_appended _ hkeys once additions
  have hfst := filter_drop_appended _ hkeys messages additions
  have hperm := appended_again_perm _ hkeys messages additions
  change once = appended _ (messages.filter (keepsDevice removed)) additions at hres
  rw [← hres] at hfst hperm
  refine ⟨_, appendOutgoingDeviceMessages_eq_ok_iff.mpr ⟨rfl, ?_⟩, hperm⟩
  intro message hmem
  rw [← hall message hmem]
  by_cases hmsg : keepsDevice removed message = true
  · have hsame (other : StoredOutgoingDeviceMessage)
        (hother : outgoingMessageDeviceKey other = outgoingMessageDeviceKey message) :
        keepsDevice removed other = true := (hkeys other message hother).trans hmsg
    rw [← priorOf_filter hsame, ← priorOf_filter hsame once]
    exact congrArg (priorOf · message) hkept
  · have hsame (other : StoredOutgoingDeviceMessage)
        (hother : outgoingMessageDeviceKey other = outgoingMessageDeviceKey message) :
        (!keepsDevice removed other) = true := by
      rw [hkeys other message hother]
      simp [hmsg]
    rw [← priorOf_filter hsame, ← priorOf_filter hsame once]
    exact congrArg (priorOf · message) (hdropped.trans hfst.symm)

def replacedEntry (existing : StoredOutgoingMessageIntent) (message : StoredOutgoingDeviceMessage)
    (entry : Option StoredDestinationProgress) : StoredDestinationProgress :=
  let postMessageId := message.clientMessageId.getD existing.clientMessageId
  let stored := entry.getD {
    phase := .recipient
    userId := message.recipientUserId
    deviceId := message.recipientDeviceId
    postMessageId := postMessageId
    state := .pending
    requests := 0
    uncertain := !existing.progressFromStart }
  { stored with
    postMessageId := postMessageId
    repaired := true
    repairedFor := some ⟨.staleDevice, postMessageId⟩ }

def markedEntry (existing : StoredOutgoingMessageIntent) (change : DeviceListChange) (key : String)
    (entry : Option StoredDestinationProgress) (message : StoredOutgoingDeviceMessage) :
    Option StoredDestinationProgress :=
  if change.removes message ∧ key = messageKey existing message then
    some (replacedEntry existing message entry)
  else entry

def unmarked (entry : StoredDestinationProgress) : StoredDestinationProgress :=
  { entry with postMessageId := "", repaired := false, repairedFor := none }

variable {key : String}

theorem replacedEntry_congr {first second : StoredDestinationProgress}
    (message : StoredOutgoingDeviceMessage) (hsame : unmarked first = unmarked second) :
    replacedEntry existing message (some first) = replacedEntry existing message (some second) := by
  cases first with
  | mk =>
    cases second with
    | mk =>
      simp only [unmarked, StoredDestinationProgress.mk.injEq] at hsame
      simp only [replacedEntry, Option.getD_some, StoredDestinationProgress.mk.injEq]
      tauto

theorem unmarked_foldl (existing : StoredOutgoingMessageIntent) (change : DeviceListChange)
    (key : String) (messages : List StoredOutgoingDeviceMessage)
    (entry : StoredDestinationProgress) :
    ∃ final, messages.foldl (markedEntry existing change key) (some entry) = some final ∧
      unmarked final = unmarked entry := by
  induction messages generalizing entry with
  | nil => exact ⟨entry, rfl, rfl⟩
  | cons message messages ih =>
    rw [foldl_cons, markedEntry]
    split
    · exact ih (replacedEntry existing message (some entry))
    · exact ih entry

theorem markedEntry_again (messages : List StoredOutgoingDeviceMessage)
    (entry : Option StoredDestinationProgress) :
    messages.foldl (markedEntry existing change key)
        (messages.foldl (markedEntry existing change key) entry) =
      messages.foldl (markedEntry existing change key) entry := by
  induction messages using List.reverseRecOn with
  | nil => rfl
  | append_singleton messages message ih =>
    rw [foldl_append, foldl_append, foldl_cons, foldl_nil, foldl_cons, foldl_nil]
    by_cases htouched : change.removes message ∧ key = messageKey existing message
    · have hmark (entry : Option StoredDestinationProgress) :
          markedEntry existing change key entry message =
            some (replacedEntry existing message entry) := if_pos htouched
      generalize messages.foldl (markedEntry existing change key) entry = before
      simp only [hmark]
      obtain ⟨final, hfinal, hsame⟩ := unmarked_foldl existing change key messages
        (replacedEntry existing message before)
      rw [hfinal, replacedEntry_congr message hsame]
      rfl
    · have hmark (entry : Option StoredDestinationProgress) :
          markedEntry existing change key entry message = entry := if_neg htouched
      rw [hmark, hmark, ih]

theorem progressEntry_repaired (existing : StoredOutgoingMessageIntent)
    (message : StoredOutgoingDeviceMessage) (key : String) :
    (markOutgoingDestinationRepaired existing .recipient message .staleDevice true).progressEntry
        key =
      if key = messageKey existing message then
        some (replacedEntry existing message (existing.progressEntry key))
      else existing.progressEntry key := by
  rw [markOutgoingDestinationRepaired, progressEntry_set]
  by_cases hkey : key = messageKey existing message
  · subst hkey
    rw [if_pos rfl]
    exact if_pos rfl
  · rw [if_neg hkey]
    exact if_neg hkey

theorem progressEntry_replaced (existing : StoredOutgoingMessageIntent) (change : DeviceListChange)
    (key : String) :
    (markReplaced existing change).progressEntry key =
      (change.preMessages ++ change.deviceMessages).foldl (markedEntry existing change key)
        (existing.progressEntry key) := by
  rw [markReplaced]
  generalize change.preMessages ++ change.deviceMessages = messages
  induction messages generalizing existing with
  | nil => rfl
  | cons message messages ih =>
    rw [foldl_cons, foldl_cons, ih, markedEntry]
    by_cases hremoves : change.removes message = true
    · have hmark : markedEntry (markOutgoingDestinationRepaired existing .recipient message
          .staleDevice true) change key = markedEntry existing change key := rfl
      rw [if_pos hremoves, hmark, progressEntry_repaired]
      simp only [hremoves, true_and]
    · rw [if_neg hremoves, if_neg fun hboth => hremoves hboth.1]

/-! ## Reconciliation -/

def reconciled (changed : StoredOutgoingMessageIntent) (change : OutgoingGroupDeviceSetChange) :
    StoredOutgoingMessageIntent :=
  stampOutgoingDeadline (markReplaced (applyGroupSharedMessage changed change.groupSharedMessage)
    change.toDeviceListChange)

variable {records final : OutboxRecords} {clientMessageId : String} {written : OutboxRecord}

theorem reconcile_eq_ok_iff {change : OutgoingGroupDeviceSetChange} :
    reconcileOutgoingGroupDeviceSet clientMessageId change records = .ok written final ↔
      ∃ existing changed, records.get? clientMessageId = some existing ∧ existing.kind = .group ∧
        existing.result = none ∧
        changeDeviceLists existing.toStoredOutgoingMessageIntent change.toDeviceListChange
          groupRefusal = .ok changed ∧
        written = ⟨reconciled changed change, existing.kind⟩ ∧
        final = records.set clientMessageId written := by
  rw [reconcileOutgoingGroupDeviceSet, get_bind]
  cases hrec : records.get? clientMessageId with
  | none => simp
  | some existing =>
    dsimp only
    by_cases hrefuse : existing.kind ≠ .group ∨ existing.result.isSome
    · rw [if_pos hrefuse]
      constructor
      · rintro ⟨⟩
      · rintro ⟨found, changed, hfound, hkind, hres, -⟩
        obtain rfl := Option.some.inj hfound
        rw [hres] at hrefuse
        obtain hkindNe | hdone := hrefuse
        · exact absurd hkind hkindNe
        · cases hdone
    · rw [if_neg hrefuse, fromResult_bind_eq_ok_iff]
      simp only [not_or, not_not, Bool.not_eq_true, Option.isSome_eq_false_iff,
        Option.isNone_iff_eq_none] at hrefuse
      constructor
      · rintro ⟨changed, hchange, hset⟩
        cases hset
        exact ⟨existing, changed, rfl, hrefuse.1, hrefuse.2, hchange, rfl, rfl⟩
      · rintro ⟨found, changed, hfound, -, -, hchange, rfl, rfl⟩
        obtain rfl := Option.some.inj hfound
        exact ⟨changed, hchange, rfl⟩

def messageLists (intent : StoredOutgoingMessageIntent) :
    List StoredOutgoingDeviceMessage × List StoredOutgoingDeviceMessage ×
      List StoredOutgoingDeviceMessage :=
  (intent.preMessages.getD [], intent.deviceMessages, intent.syncMessages)

def otherFields (intent : StoredOutgoingMessageIntent) : StoredOutgoingMessageIntent :=
  { intent with
    preMessages := none
    deviceMessages := []
    syncMessages := []
    destinationProgress := none }

theorem messageLists_stamp :
    messageLists (stampOutgoingDeadline intent) = messageLists intent := by
  unfold stampOutgoingDeadline
  split <;> rfl

theorem otherFields_stamp :
    otherFields (stampOutgoingDeadline intent) = stampOutgoingDeadline (otherFields intent) := by
  unfold stampOutgoingDeadline
  by_cases hstamped : intent.result.isSome ∨ intent.deadlineAt.isSome
  · rw [if_pos hstamped]
    exact (if_pos hstamped).symm
  · rw [if_neg hstamped]
    exact (if_neg hstamped).symm

theorem stamp_again :
    stampOutgoingDeadline (stampOutgoingDeadline intent) = stampOutgoingDeadline intent := by
  by_cases hstamped : intent.result.isSome ∨ intent.deadlineAt.isSome
  · have hsame : stampOutgoingDeadline intent = intent := if_pos hstamped
    rw [hsame, hsame]
  · rw [stampOutgoingDeadline, stampOutgoingDeadline, if_neg hstamped]
    exact if_pos (Or.inr rfl)

theorem MarksOnly.messageLists_eq
    (hmarks : MarksOnly touched before after) : messageLists after = messageLists before := by
  change messageLists (withoutProgress after) = messageLists (withoutProgress before)
  rw [hmarks.others]

theorem MarksOnly.otherFields_eq
    (hmarks : MarksOnly touched before after) : otherFields after = otherFields before := by
  change otherFields (withoutProgress after) = otherFields (withoutProgress before)
  rw [hmarks.others]

theorem messageLists_reconciled (changed : StoredOutgoingMessageIntent)
    (change : OutgoingGroupDeviceSetChange) :
    messageLists (reconciled changed change) = messageLists changed := by
  rw [reconciled, messageLists_stamp, (marksOnly_replaced _ _).messageLists_eq]
  cases change.groupSharedMessage <;> rfl

theorem otherFields_reconciled (changed : StoredOutgoingMessageIntent)
    (change : OutgoingGroupDeviceSetChange) :
    otherFields (reconciled changed change) = stampOutgoingDeadline
      (applyGroupSharedMessage (otherFields changed) change.groupSharedMessage) := by
  rw [reconciled, otherFields_stamp, (marksOnly_replaced _ _).otherFields_eq]
  cases change.groupSharedMessage <;> rfl

theorem progressEntry_reconciled (changed : StoredOutgoingMessageIntent)
    (change : OutgoingGroupDeviceSetChange) (key : String) :
    (reconciled changed change).progressEntry key =
      (change.preMessages ++ change.deviceMessages).foldl
        (markedEntry changed change.toDeviceListChange key) (changed.progressEntry key) := by
  rw [reconciled, progressEntry_stamp, progressEntry_replaced]
  cases change.groupSharedMessage <;> rfl

section

variable (hchange : changeDeviceLists existing change refusal = .ok changed)

include hchange

theorem otherFields_change :
    otherFields changed = otherFields existing ∧
      changed.destinationProgress = existing.destinationProgress := by
  obtain ⟨preMessages, deviceMessages, syncMessages, -, -, -, rfl⟩ :=
    changeDeviceLists_eq_ok_iff.mp hchange
  exact ⟨rfl, rfl⟩

theorem progressEntry_change
    (key : String) : changed.progressEntry key = existing.progressEntry key := by
  rw [StoredOutgoingMessageIntent.progressEntry, (otherFields_change hchange).2]
  rfl

theorem messageKey_change :
    messageKey changed = messageKey existing := by
  have hid : changed.clientMessageId = existing.clientMessageId :=
    congrArg (fun intent => intent.clientMessageId) (otherFields_change hchange).1
  funext message
  rw [messageKey, messageKey, hid]

end

theorem KeepsLists.congr (hkeeps : KeepsLists change existing first)
    (hlists : messageLists second = messageLists first) : KeepsLists change existing second := by
  simp only [messageLists, Prod.mk.injEq] at hlists
  obtain ⟨hpre, hdev, hsync⟩ := hlists
  refine ⟨?_, ?_, ?_⟩
  · rw [hpre]
    exact hkeeps.preMessages
  · rw [hdev]
    exact hkeeps.deviceMessages
  · rw [hsync]
    exact hkeeps.syncMessages

/-- Two intents with the same messages in each list, in some order, and the same other fields. -/
structure SameUpToOrder (first second : StoredOutgoingMessageIntent) : Prop where
  preMessages : (second.preMessages.getD []).Perm (first.preMessages.getD [])
  deviceMessages : second.deviceMessages.Perm first.deviceMessages
  syncMessages : second.syncMessages.Perm first.syncMessages
  progress : ∀ key, second.progressEntry key = first.progressEntry key
  others : otherFields second = otherFields first

theorem changeDeviceLists_again
    (hchange : changeDeviceLists existing change refusal = .ok changed)
    {stored : StoredOutgoingMessageIntent} (hstored : messageLists stored = messageLists changed) :
    ∃ again, changeDeviceLists stored change refusal = .ok again ∧
      (again.preMessages.getD []).Perm (changed.preMessages.getD []) ∧
      again.deviceMessages.Perm changed.deviceMessages ∧
      again.syncMessages.Perm changed.syncMessages := by
  obtain ⟨preMessages, deviceMessages, syncMessages, hpre, hdev, hsync, rfl⟩ :=
    changeDeviceLists_eq_ok_iff.mp hchange
  simp only [messageLists, Prod.mk.injEq, getD_stored] at hstored
  obtain ⟨hstoredPre, hstoredDevice, hstoredSync⟩ := hstored
  obtain ⟨preAgain, hpreAgain, hprePerm⟩ := append_again hpre
  obtain ⟨deviceAgain, hdeviceAgain, hdevicePerm⟩ := append_again hdev
  obtain ⟨syncAgain, hsyncAgain, hsyncPerm⟩ := append_again hsync
  rw [← hstoredPre] at hpreAgain
  rw [← hstoredDevice] at hdeviceAgain
  rw [← hstoredSync] at hsyncAgain
  refine ⟨_, changeDeviceLists_eq_ok_iff.mpr
    ⟨preAgain, deviceAgain, syncAgain, hpreAgain, hdeviceAgain, hsyncAgain, rfl⟩, ?_, ?_, ?_⟩
  · rwa [getD_stored, getD_stored]
  · exact hdevicePerm
  · exact hsyncPerm

theorem applyShared_stamp :
    applyGroupSharedMessage (stampOutgoingDeadline intent) shared =
      stampOutgoingDeadline (applyGroupSharedMessage intent shared) := by
  have hfields (body : Option JsonText) :
      { stampOutgoingDeadline intent with groupSharedMessage := body } =
        stampOutgoingDeadline { intent with groupSharedMessage := body } := by
    unfold stampOutgoingDeadline
    by_cases hstamped : intent.result.isSome ∨ intent.deadlineAt.isSome
    · rw [if_pos hstamped]
      exact (if_pos hstamped).symm
    · rw [if_neg hstamped]
      exact (if_neg hstamped).symm
  cases shared with
  | unchanged => rfl
  | removed => exact hfields none
  | replaced body => exact hfields (some body)

theorem applyShared_again :
    applyGroupSharedMessage (applyGroupSharedMessage intent shared) shared =
      applyGroupSharedMessage intent shared := by
  cases shared <;> rfl

theorem kept_stamp_shared :
    (stampOutgoingDeadline (applyGroupSharedMessage intent shared)).result = intent.result ∧
      (stampOutgoingDeadline (applyGroupSharedMessage intent shared)).clientMessageId =
        intent.clientMessageId ∧
      (stampOutgoingDeadline (applyGroupSharedMessage intent shared)).progressFromStart =
        intent.progressFromStart := by
  unfold stampOutgoingDeadline
  cases shared <;> split <;> exact ⟨rfl, rfl, rfl⟩

theorem markedEntry_congr (hid : first.clientMessageId = second.clientMessageId)
    (hstart : first.progressFromStart = second.progressFromStart) :
    markedEntry first change key = markedEntry second change key := by
  funext entry message
  rw [markedEntry, markedEntry, replacedEntry, replacedEntry, messageKey, messageKey, hid, hstart]

/-- A reconciliation keeps the messages of the devices that stay, and all progress but that of the
devices to which it gives messages. -/
theorem reconcile_keeps {change : OutgoingGroupDeviceSetChange}
    (hrun : reconcileOutgoingGroupDeviceSet clientMessageId change records = .ok written final) :
    ∃ existing, records.get? clientMessageId = some existing ∧
      final = records.set clientMessageId written ∧
      KeepsLists change.toDeviceListChange existing.toStoredOutgoingMessageIntent
        written.toStoredOutgoingMessageIntent ∧
      ∀ key ∉ (change.preMessages ++ change.deviceMessages).map
          (messageKey existing.toStoredOutgoingMessageIntent),
        written.progressEntry key = existing.progressEntry key := by
  obtain ⟨existing, changed, hrec, -, -, hchange, rfl, rfl⟩ := reconcile_eq_ok_iff.mp hrun
  refine ⟨existing, hrec, rfl,
    (keepsLists_change hchange).congr (messageLists_reconciled changed change), ?_⟩
  intro key hkey
  rw [← messageKey_change hchange] at hkey
  rw [← progressEntry_change hchange,
    ← (marksOnly_replaced changed change.toDeviceListChange).untouched key hkey,
    progressEntry_replaced]
  exact progressEntry_reconciled changed change key

theorem reconcile_again {change : OutgoingGroupDeviceSetChange}
    (hrun : reconcileOutgoingGroupDeviceSet clientMessageId change records = .ok written final) :
    ∃ again last, reconcileOutgoingGroupDeviceSet clientMessageId change final = .ok again last ∧
      SameUpToOrder written.toStoredOutgoingMessageIntent again.toStoredOutgoingMessageIntent := by
  obtain ⟨existing, changed, hrec, hkind, hres, hchange, rfl, rfl⟩ :=
    reconcile_eq_ok_iff.mp hrun
  obtain ⟨hothers, -⟩ := otherFields_change hchange
  obtain ⟨again, hagain, hpre, hdev, hsync⟩ :=
    changeDeviceLists_again hchange (messageLists_reconciled changed change)
  obtain ⟨hagainOthers, hagainProgress⟩ := otherFields_change hagain
  have hfields := otherFields_reconciled changed change
  have hagainFields := otherFields_reconciled again change
  have hagainLists := messageLists_reconciled again change
  have hlists := messageLists_reconciled changed change
  simp only [messageLists, Prod.mk.injEq] at hagainLists hlists
  obtain ⟨hagainPre, hagainDevice, hagainSync⟩ := hagainLists
  obtain ⟨hfirstPre, hfirstDevice, hfirstSync⟩ := hlists
  obtain ⟨hresultKept, hidKept, hstartKept⟩ :=
    kept_stamp_shared (otherFields changed) change.groupSharedMessage
  rw [← hfields] at hresultKept hidKept hstartKept
  refine ⟨⟨reconciled again change, existing.kind⟩, _, reconcile_eq_ok_iff.mpr
    ⟨⟨reconciled changed change, existing.kind⟩, again, get?_set_self _ _ _, hkind, ?_,
      hagain, rfl, rfl⟩, ⟨?_, ?_, ?_, ?_, ?_⟩⟩
  · rw [hothers] at hresultKept
    exact Eq.trans hresultKept hres
  · rwa [hagainPre, hfirstPre]
  · rwa [hagainDevice, hfirstDevice]
  · rwa [hagainSync, hfirstSync]
  · intro key
    have hstored : again.progressEntry key = (reconciled changed change).progressEntry key := by
      rw [StoredOutgoingMessageIntent.progressEntry, hagainProgress]
      rfl
    have hid : again.clientMessageId = (reconciled changed change).clientMessageId :=
      congrArg (fun intent => intent.clientMessageId) hagainOthers
    have hstart : again.progressFromStart = (reconciled changed change).progressFromStart :=
      congrArg (fun intent => intent.progressFromStart) hagainOthers
    have hmarks : markedEntry again change.toDeviceListChange key =
        markedEntry changed change.toDeviceListChange key :=
      markedEntry_congr (hid.trans hidKept) (hstart.trans hstartKept)
    dsimp only
    rw [progressEntry_reconciled again, hstored, progressEntry_reconciled changed, hmarks,
      markedEntry_again]
  · dsimp only
    rw [hagainFields, hagainOthers, hfields, applyShared_stamp, stamp_again, applyShared_again]

def repairedIntent (changed : StoredOutgoingMessageIntent) (repair : OutgoingDeviceSetRepair) :
    StoredOutgoingMessageIntent :=
  let marked := applyGroupSharedMessage (markAppended changed repair.toDeviceListChange)
    repair.groupSharedMessage
  stampOutgoingDeadline { marked with
    deviceSetRestarts := some (setRestarts repair.restarts repair.phase marked.deviceSetRestarts)
    deviceSetBundleMissing := setBundleMissing repair.bundleMissing repair.phase
      marked.deviceSetBundleMissing }

structure TakesRepair (existing : OutboxRecord) (repair : OutgoingDeviceSetRepair) : Prop where
  open_ : ¬ (existing.result.isSome && !(repair.phase = .sync && existing.syncPending)) = true
  resolved : existing.deviceSetUnresolved = none
  restarts : repair.restarts = restartsOf existing.toStoredOutgoingMessageIntent repair.phase + 1

theorem repair_eq_ok {repair : OutgoingDeviceSetRepair}
    (hrun : repairOutgoingDeviceSet clientMessageId repair records = .ok written final) :
    ∃ existing changed, records.get? clientMessageId = some existing ∧
      TakesRepair existing repair ∧
      changeDeviceLists existing.toStoredOutgoingMessageIntent repair.toDeviceListChange
        syncRefusal = .ok changed ∧
      written = ⟨repairedIntent changed repair, existing.kind⟩ ∧
      final = records.set clientMessageId written := by
  rw [repairOutgoingDeviceSet, get_bind] at hrun
  cases hrec : records.get? clientMessageId with
  | none =>
    rw [hrec] at hrun
    cases hrun
  | some existing =>
    rw [hrec] at hrun
    dsimp only at hrun
    split at hrun
    · cases hrun
    · next hopen =>
      split at hrun
      · cases hrun
      · next hresolve =>
        split at hrun
        · cases hrun
        · next hrestarts =>
          obtain ⟨changed, hchange, hset⟩ := fromResult_bind_eq_ok_iff.mp hrun
          cases hset
          refine ⟨existing, changed, rfl, ⟨hopen, ?_, not_not.mp hrestarts⟩, hchange, rfl, rfl⟩
          simpa using hresolve

theorem kept_repairedIntent (changed : StoredOutgoingMessageIntent)
    (repair : OutgoingDeviceSetRepair) :
    (repairedIntent changed repair).result = changed.result ∧
      (repairedIntent changed repair).syncPending = changed.syncPending ∧
      (repairedIntent changed repair).deviceSetUnresolved = changed.deviceSetUnresolved ∧
      restartsOf (repairedIntent changed repair) repair.phase = repair.restarts ∧
      messageLists (repairedIntent changed repair) = messageLists changed ∧
      ∀ key, (repairedIntent changed repair).progressEntry key =
        (markAppended changed repair.toDeviceListChange).progressEntry key := by
  have hmarks := (marksOnly_appended changed repair.toDeviceListChange).others
  have hlists := (marksOnly_appended changed repair.toDeviceListChange).messageLists_eq
  rw [repairedIntent]
  generalize markAppended changed repair.toDeviceListChange = marked at hmarks hlists
  have hres : marked.result = changed.result :=
    congrArg (fun intent => intent.result) hmarks
  have hpend : marked.syncPending = changed.syncPending :=
    congrArg (fun intent => intent.syncPending) hmarks
  have hunresolved : marked.deviceSetUnresolved = changed.deviceSetUnresolved :=
    congrArg (fun intent => intent.deviceSetUnresolved) hmarks
  rw [← hres, ← hpend, ← hunresolved, ← hlists]
  unfold stampOutgoingDeadline
  dsimp only
  cases repair.groupSharedMessage <;> cases repair.phase <;> split <;>
    exact ⟨rfl, rfl, rfl, rfl, rfl, fun _ => rfl⟩

/-- A repair keeps the messages of the devices that stay, and all progress but that of the devices
to which it gives messages. -/
theorem repair_keeps {repair : OutgoingDeviceSetRepair}
    (hrun : repairOutgoingDeviceSet clientMessageId repair records = .ok written final) :
    ∃ existing, records.get? clientMessageId = some existing ∧
      final = records.set clientMessageId written ∧
      KeepsLists repair.toDeviceListChange existing.toStoredOutgoingMessageIntent
        written.toStoredOutgoingMessageIntent ∧
      ∀ key ∉ (repair.preMessages ++ repair.deviceMessages ++ repair.syncMessages).map
          (messageKey existing.toStoredOutgoingMessageIntent),
        written.progressEntry key = existing.progressEntry key := by
  obtain ⟨existing, changed, hrec, -, hchange, rfl, rfl⟩ := repair_eq_ok hrun
  obtain ⟨-, -, -, -, hlists, hentries⟩ := kept_repairedIntent changed repair
  refine ⟨existing, hrec, rfl, (keepsLists_change hchange).congr hlists, ?_⟩
  intro key hkey
  rw [← messageKey_change hchange] at hkey
  rw [← progressEntry_change hchange, ← (marksOnly_appended changed _).untouched key hkey]
  exact hentries key

def differentRestart : String :=
  "Cannot repair the device set of an outbox intent from a different restart"

theorem repair_again {repair : OutgoingDeviceSetRepair}
    (hrun : repairOutgoingDeviceSet clientMessageId repair records = .ok written final) :
    repairOutgoingDeviceSet clientMessageId repair final = .error differentRestart final := by
  obtain ⟨existing, changed, -, htakes, hchange, rfl, rfl⟩ := repair_eq_ok hrun
  obtain ⟨hres, hpend, hunresolved, hrestarts, -, -⟩ := kept_repairedIntent changed repair
  obtain ⟨hothers, -⟩ := otherFields_change hchange
  have hchangedResult : changed.result = existing.result :=
    congrArg (fun intent => intent.result) hothers
  have hchangedPending : changed.syncPending = existing.syncPending :=
    congrArg (fun intent => intent.syncPending) hothers
  have hchangedUnresolved : changed.deviceSetUnresolved = existing.deviceSetUnresolved :=
    congrArg (fun intent => intent.deviceSetUnresolved) hothers
  have hclosed := htakes.open_
  rw [← hchangedResult, ← hchangedPending, ← hres, ← hpend] at hclosed
  have hresolve := htakes.resolved
  rw [← hchangedUnresolved, ← hunresolved] at hresolve
  rw [repairOutgoingDeviceSet, get_bind, get?_set_self]
  dsimp only
  rw [if_neg hclosed, hresolve, if_neg (by decide), hrestarts,
    if_pos (Nat.ne_of_lt (Nat.lt_succ_self _))]
  rfl

theorem reconcile_failsClean (clientMessageId : String) (change : OutgoingGroupDeviceSetChange)
    (records : OutboxRecords) :
    FailsClean records (reconcileOutgoingGroupDeviceSet clientMessageId change records) := by
  rw [reconcileOutgoingGroupDeviceSet, get_bind]
  cases records.get? clientMessageId with
  | none => exact failsClean_error
  | some existing =>
    dsimp only
    split
    · exact failsClean_error
    · exact failsClean_fromResult_bind fun changed _ => failsClean_ok

theorem repair_failsClean (clientMessageId : String) (repair : OutgoingDeviceSetRepair)
    (records : OutboxRecords) :
    FailsClean records (repairOutgoingDeviceSet clientMessageId repair records) := by
  rw [repairOutgoingDeviceSet, get_bind]
  cases records.get? clientMessageId with
  | none => exact failsClean_error
  | some existing =>
    dsimp only
    split
    · exact failsClean_error
    · split
      · exact failsClean_error
      · split
        · exact failsClean_error
        · exact failsClean_fromResult_bind fun changed _ => failsClean_ok

/-- The changes of the device set keep an intent consistent, and a call that stops writes nothing.
-/
theorem deviceSetChanges_consistent (records : OutboxRecords) (clientMessageId : String) :
    (∀ messages additions refusal result,
      appendOutgoingDeviceMessages messages additions refusal = .ok result →
        KeepsMessages [] additions messages result) ∧
    (∀ change written final,
      reconcileOutgoingGroupDeviceSet clientMessageId change records = .ok written final →
        (∃ existing, records.get? clientMessageId = some existing ∧
          final = records.set clientMessageId written ∧
          KeepsLists change.toDeviceListChange existing.toStoredOutgoingMessageIntent
            written.toStoredOutgoingMessageIntent ∧
          ∀ key ∉ (change.preMessages ++ change.deviceMessages).map
              (messageKey existing.toStoredOutgoingMessageIntent),
            written.progressEntry key = existing.progressEntry key) ∧
        ∃ again last,
          reconcileOutgoingGroupDeviceSet clientMessageId change final = .ok again last ∧
          SameUpToOrder written.toStoredOutgoingMessageIntent
            again.toStoredOutgoingMessageIntent) ∧
    (∀ repair written final,
      repairOutgoingDeviceSet clientMessageId repair records = .ok written final →
        (∃ existing, records.get? clientMessageId = some existing ∧
          final = records.set clientMessageId written ∧
          KeepsLists repair.toDeviceListChange existing.toStoredOutgoingMessageIntent
            written.toStoredOutgoingMessageIntent ∧
          ∀ key ∉ (repair.preMessages ++ repair.deviceMessages ++ repair.syncMessages).map
              (messageKey existing.toStoredOutgoingMessageIntent),
            written.progressEntry key = existing.progressEntry key) ∧
        repairOutgoingDeviceSet clientMessageId repair final = .error differentRestart final) ∧
    (∀ change,
      FailsClean records (reconcileOutgoingGroupDeviceSet clientMessageId change records)) ∧
    ∀ repair, FailsClean records (repairOutgoingDeviceSet clientMessageId repair records) := by
  refine ⟨?_, ?_, ?_, ?_, ?_⟩
  · intro messages additions refusal result happended
    have hkept : keptMessages [] messages = messages := by
      rw [keptMessages, filter_eq_self]
      intro message _
      exact decide_eq_true not_mem_nil
    rw [← hkept] at happended
    exact keepsMessages_append happended
  · intro change written final hrun
    exact ⟨reconcile_keeps hrun, reconcile_again hrun⟩
  · intro repair written final hrun
    exact ⟨repair_keeps hrun, repair_again hrun⟩
  · intro change
    exact reconcile_failsClean clientMessageId change records
  · intro repair
    exact repair_failsClean clientMessageId repair records

def deviceMessage (deviceId : ℕ) (ciphertext : String) : StoredOutgoingDeviceMessage where
  recipientUserId := "bob"
  recipientDeviceId := deviceId
  clientMessageId := none
  ciphertext := ciphertext

/-- An open group intent with a message for the first device of an account. -/
def storedGroup : OutboxRecords :=
  (∅ : OutboxRecords).set "message" {
    clientMessageId := "message"
    clientTimestamp := 1000
    createdAt := 1000
    deviceMessages := [deviceMessage 1 "old"]
    syncMessages := []
    kind := .group }

def devicesChanged : DeviceListChange where
  removed := [⟨"bob", 1⟩]
  preMessages := []
  deviceMessages := [deviceMessage 1 "new", deviceMessage 2 "added"]
  syncMessages := []

def groupChange : OutgoingGroupDeviceSetChange :=
  { devicesChanged with groupSharedMessage := .unchanged }

def groupRepair : OutgoingDeviceSetRepair :=
  { devicesChanged with
    phase := .recipient
    restarts := 1
    bundleMissing := []
    groupSharedMessage := .unchanged }

theorem deviceSetChanges_consistent_group :
    (∃ written final again last,
      reconcileOutgoingGroupDeviceSet "message" groupChange storedGroup = .ok written final ∧
      reconcileOutgoingGroupDeviceSet "message" groupChange final = .ok again last ∧
      SameUpToOrder written.toStoredOutgoingMessageIntent again.toStoredOutgoingMessageIntent) ∧
    (∃ written final,
      repairOutgoingDeviceSet "message" groupRepair storedGroup = .ok written final ∧
      repairOutgoingDeviceSet "message" groupRepair final = .error differentRestart final) ∧
    KeepsMessages [] [deviceMessage 2 "added"] [] [deviceMessage 2 "added"] := by
  have hall := deviceSetChanges_consistent storedGroup "message"
  refine ⟨?_, ?_, ?_⟩
  · obtain ⟨-, again, last, hagain, hsame⟩ := hall.2.1 groupChange _ _ rfl
    exact ⟨_, _, again, last, rfl, hagain, hsame⟩
  · exact ⟨_, _, rfl, (hall.2.2.1 groupRepair _ _ rfl).2⟩
  · exact hall.1 [] [deviceMessage 2 "added"] "" _ rfl

/-- The message for a removed device goes behind the one for an added device. -/
theorem reconcile_again_moves : ∃ written final again last,
    reconcileOutgoingGroupDeviceSet "message" groupChange storedGroup = .ok written final ∧
      reconcileOutgoingGroupDeviceSet "message" groupChange final = .ok again last ∧
      written.deviceMessages = [deviceMessage 1 "new", deviceMessage 2 "added"] ∧
      again.deviceMessages = [deviceMessage 2 "added", deviceMessage 1 "new"] ∧
      again ≠ written := by
  refine ⟨_, _, _, _, rfl, rfl, rfl, rfl, ?_⟩
  intro hsame
  have hlists := congrArg (fun record => record.deviceMessages) hsame
  revert hlists
  decide

end SignalProtocol.Outbox.DeviceSets

import SignalProtocol.Groups.AccessControl
import SignalProtocol.Groups.Fetcher
import SignalProtocol.SenderKeys.Manager

/-! # Inspection of received content

What the default content adapter reads from a plaintext, as far as the group decision uses it. -/

namespace SignalProtocol.Groups

structure GroupContentContext where
  masterKey : Bytes
  revision : ℤ
  groupChange : Option Bytes := none

/-- A `groupContext` member, which may not decode. -/
inductive ContextMember where
  | malformed
  | decoded (context : GroupContentContext)

/-- The content that a payload carries its context for: no JSON object, or an object with its
context and whether its application content decodes. -/
inductive Carrier where
  | text
  | object (groupContext : Option ContextMember) (contentDecodes : Bool)

def Carrier.groupContext : Carrier → Option ContextMember
  | text => none
  | object groupContext contentDecodes =>
    groupContext.map fun context => if contentDecodes then context else .malformed

/-- A sync message that parses. A transcript carries its serialized content, unless that does not
decode. -/
inductive SyncMember where
  | sent (conversationId : String) (timestamp : ℤ) (inner : Option Carrier)
  | other

/-- The members of a payload beside its `groupContent`. -/
structure Members where
  groupContext : Option ContextMember := none
  senderKeyDistribution : Option String := none
  sync : Option SyncMember := none
  timestamp : Option ℤ := none
  /-- Whether the payload has further members. -/
  others : Bool := false

/-- A plaintext: no JSON object, an object without a `groupContent` member, one whose
`groupContent` does not decode, or one that carries other content there. -/
inductive Plaintext where
  | text
  | object (members : Members)
  | undecodable (members : Members)
  | wrapping (members : Members) (content : Plaintext)

inductive SyncContent where
  | sent (conversationId : String)
  | other

structure InspectedContent where
  groupContext : Option ContextMember := none
  senderKeyDistribution : Option String := none
  senderKeyDistributionOnly : Bool := false
  timestamp : Option ℤ := none
  conversationId : Option String := none
  sync : Option SyncContent := none

def groupContextOf (members : Members) (contentDecodes : Bool) : Option ContextMember :=
  match members.sync with
  | some (.sent _ _ (some inner)) => inner.groupContext
  | _ => (Carrier.object members.groupContext contentDecodes).groupContext

def inspectMembers (members : Members) (hasContent : Bool) (contentDecodes : Bool) :
    InspectedContent where
  groupContext := groupContextOf members contentDecodes
  senderKeyDistribution := members.senderKeyDistribution
  senderKeyDistributionOnly := members.senderKeyDistribution.isSome ∧
    members.groupContext = none ∧ members.sync = none ∧ ¬ hasContent ∧ ¬ members.others
  timestamp :=
    match members.sync with
    | some (.sent _ timestamp _) => some timestamp
    | _ => members.timestamp
  conversationId :=
    match members.sync with
    | some (.sent conversationId _ _) => some conversationId
    | _ => none
  sync := members.sync.map fun sync =>
    match sync with
    | .sent conversationId _ _ => .sent conversationId
    | .other => .other

/-- The inspection of content beside a context, with a distribution that a resend put beside
both. -/
def besideContext (members : Members) (contentDecodes : Bool) (content : InspectedContent) :
    InspectedContent :=
  { content with
    senderKeyDistribution := members.senderKeyDistribution.or content.senderKeyDistribution
    senderKeyDistributionOnly :=
      if members.senderKeyDistribution.isSome then false else content.senderKeyDistributionOnly
    groupContext := groupContextOf members contentDecodes }

def inspectContent : Plaintext → InspectedContent
  | .text => {}
  | .object members => inspectMembers members false true
  | .undecodable members =>
    if members.groupContext.isSome then besideContext members false {}
    else inspectMembers members true false
  | .wrapping members content =>
    if members.groupContext.isSome then besideContext members true (inspectContent content)
    else inspectMembers members true true

def InspectedContent.destination (inspected : InspectedContent) : Option String :=
  inspected.sync.bind fun sync =>
    match sync with
    | .sent conversationId => some conversationId
    | .other => none

theorem inspectMembers_conversationId (members : Members) (hasContent contentDecodes : Bool) :
    (inspectMembers members hasContent contentDecodes).conversationId =
      (inspectMembers members hasContent contentDecodes).destination := by
  rw [InspectedContent.destination, inspectMembers]
  cases members.sync with
  | none => rfl
  | some sync => cases sync <;> rfl

theorem inspectContent_conversationId (plaintext : Plaintext) :
    (inspectContent plaintext).conversationId = (inspectContent plaintext).destination := by
  induction plaintext with
  | text => rfl
  | object members => exact inspectMembers_conversationId members false true
  | undecodable members =>
    rw [inspectContent]
    split
    · rfl
    · exact inspectMembers_conversationId members true false
  | wrapping members content ih =>
    rw [inspectContent]
    split
    · exact ih
    · exact inspectMembers_conversationId members true true

theorem inspectMembers_only {members : Members} {hasContent contentDecodes : Bool}
    (honly : (inspectMembers members hasContent contentDecodes).senderKeyDistributionOnly = true) :
    (inspectMembers members hasContent contentDecodes).sync = none := by
  obtain ⟨-, -, hsync, -⟩ := of_decide_eq_true honly
  rw [inspectMembers, hsync]
  rfl

theorem inspectContent_only {plaintext : Plaintext}
    (honly : (inspectContent plaintext).senderKeyDistributionOnly = true) :
    (inspectContent plaintext).sync = none := by
  induction plaintext with
  | text => rfl
  | object members => exact inspectMembers_only honly
  | undecodable members =>
    rw [inspectContent] at honly ⊢
    split at honly
    · rename_i hctx
      rw [if_pos hctx]
      rfl
    · rename_i hctx
      rw [if_neg hctx]
      exact inspectMembers_only honly
  | wrapping members content ih =>
    rw [inspectContent] at honly ⊢
    split at honly
    · rename_i hctx
      rw [if_pos hctx]
      refine ih ?_
      rw [besideContext] at honly
      dsimp only at honly
      split at honly
      · cases honly
      · exact honly
    · rename_i hctx
      rw [if_neg hctx]
      exact inspectMembers_only honly

/-! ## Authorization of received group content

The group part of committed content, the decision on it, and the envelope that the application gets.
-/

def groupIdPrefixText : String := "open-e2ee:group:"

def extractGroupId (groupId : String) : String :=
  if groupIdPrefixText.toList.isPrefixOf groupId.toList then
    String.ofList (groupId.toList.drop groupIdPrefixText.length)
  else groupId

def groupIdentifierLen : ℕ := 32

def isHexDigit (character : Char) : Bool :=
  ('0' ≤ character ∧ character ≤ '9') ∨ ('a' ≤ character ∧ character ≤ 'f')

/-- A raw group ID that is a group identifier in lowercase hex. -/
def isManagedGroupId (groupId : String) : Bool :=
  groupId.toList.length = groupIdentifierLen * 2 ∧ groupId.toList.all isHexDigit

def hexDigit (value : ℕ) : Char := (Nat.digitChar value)

def bytesToHex (bytes : Bytes) : String :=
  String.ofList (bytes.flatMap fun byte => [hexDigit (byte.toNat / 16), hexDigit (byte.toNat % 16)])

structure GroupParams where
  groupIdentifier : Bytes → Bytes
  identifier_length : ∀ masterKey, (groupIdentifier masterKey).length = groupIdentifierLen

def GroupParams.groupIdOf (params : GroupParams) (masterKey : Bytes) : String :=
  bytesToHex (params.groupIdentifier masterKey)

inductive GroupReceiveDenial where
  | malformedContext
  | contextMismatch
  | blocked
  | senderNotMember
  | recipientNotMember
  | senderLacksPermission
  | fetch (denial : GroupFetchDenial)
  | legacyNoContext
  | configuration
  | unverifiedCap
  | syncFromOtherAccount
  deriving DecidableEq

inductive GroupReceiveUnavailability where
  | update (reason : UnavailableReason)
  | senderUnresolved
  | aciResolutionFailed
  deriving DecidableEq

inductive GroupReceiveVerdict where
  | authorized (groupId : String) (revision : ℤ)
  | unavailable (reason : GroupReceiveUnavailability) (retryAfterMs : ℕ)
  | denied (reason : GroupReceiveDenial)

def senderResolutionRetryMs : ℕ := 30000

structure GroupContentClaim where
  groupId : Option String
  context : Option ContextMember
  transcript : Bool

def boundClaim (groupId : String) (context : Option ContextMember) (transcript : Bool) :
    Option GroupContentClaim :=
  if context.isSome ∨ isManagedGroupId groupId then some ⟨some groupId, context, transcript⟩
  else none

def classifyGroupContent (transportGroupId : Option String) (inspected : InspectedContent) :
    Option GroupContentClaim :=
  match transportGroupId with
  | some transportGroupId =>
    boundClaim (extractGroupId transportGroupId) inspected.groupContext false
  | none =>
    match inspected.senderKeyDistribution with
    | some distribution =>
      if inspected.senderKeyDistributionOnly then none
      else boundClaim (extractGroupId distribution) inspected.groupContext false
    | none =>
      match inspected.sync with
      | some (.sent conversationId) => boundClaim conversationId inspected.groupContext true
      | _ => inspected.groupContext.map fun context => ⟨none, some context, false⟩

def masterKeyLen : ℕ := 32

def GroupContentContext.isValid (context : GroupContentContext) : Bool :=
  context.masterKey.length = masterKeyLen ∧ 0 ≤ context.revision ∧ context.revision ≤ maxSafeInteger

structure ContextGroup where
  groupId : String
  context : Option GroupContentContext

variable (params : GroupParams)

def groupOfContext (claim : GroupContentClaim) : Except GroupReceiveDenial ContextGroup :=
  match claim.context with
  | none => pure ⟨claim.groupId.getD "", none⟩
  | some .malformed => throw .malformedContext
  | some (.decoded context) =>
    if ¬ context.isValid then throw .malformedContext
    else
      let groupId := params.groupIdOf context.masterKey
      if claim.groupId.isSome ∧ claim.groupId ≠ some groupId then throw .contextMismatch
      else pure ⟨groupId, some context⟩

structure ReceiveEnvironment where
  ownUserId : String
  localAci : Option Bytes
  /-- The ACI of a user, when the client resolves ACIs; a resolution may throw. -/
  resolveAci : Option (String → Except Unit (Option Bytes))
  isGroupBlocked : String → Bool
  /-- Whether the fetcher admits a context under the unverified-group cap. -/
  admitContext : String → Bytes → ℤ → GroupContextSender → Bool
  groupState : String → Option DecryptedGroup
  ensureFresh : String → GroupRevisionClaim → GroupFreshness
  updatedState : String → Option DecryptedGroup

structure GroupReceiveInput where
  claim : GroupContentClaim
  senderId : String
  senderDeviceId : ℕ

def serviceIdBinary (uuid : Bytes) : Except String Bytes :=
  if uuid.length ≠ 16 then throw s!"ServiceId uuid must be 16 bytes, got {uuid.length}"
  else pure (serviceIdAci :: uuid)

def hasMember (state : DecryptedGroup) (aci : Bytes) : Bool :=
  state.members.any fun member => member.aciBytes = aci

variable (environment : ReceiveEnvironment)

def authorizeContent (input : GroupReceiveInput) (groupId : String) (state : DecryptedGroup) :
    Except String GroupReceiveVerdict :=
  match environment.localAci, environment.resolveAci with
  | some localAci, some resolveAci =>
    if ¬ hasMember state localAci then pure (.denied .recipientNotMember)
    else if input.claim.transcript then pure (.authorized groupId state.revision)
    else
      match resolveAci input.senderId with
      | .error _ => pure (.unavailable .aciResolutionFailed senderResolutionRetryMs)
      | .ok none => pure (.unavailable .senderUnresolved senderResolutionRetryMs)
      | .ok (some senderAci) =>
        if ¬ hasMember state senderAci then pure (.denied .senderNotMember)
        else do
          let serviceId ← serviceIdBinary senderAci
          if ¬ canPerformAction state serviceId .sendMessage {} then
            pure (.denied .senderLacksPermission)
          else pure (.authorized groupId state.revision)
  | _, _ => pure (.denied .configuration)

def GroupContentContext.claim (context : GroupContentContext) : GroupRevisionClaim :=
  ⟨context.revision.toNat, context.groupChange⟩

def stateFor (groupId : String) (context : GroupContentContext) :
    Except GroupReceiveVerdict DecryptedGroup :=
  match environment.groupState groupId with
  | some state =>
    if context.revision ≤ state.revision then pure state else update
  | none => update
where
  update : Except GroupReceiveVerdict DecryptedGroup :=
    match environment.ensureFresh groupId context.claim with
    | .denied reason => throw (.denied (.fetch reason))
    | .unavailable reason retryAfterMs => throw (.unavailable (.update reason) retryAfterMs)
    | .fresh _ =>
      match environment.updatedState groupId with
      | some state => pure state
      | none => throw (.unavailable (.update .updateFailed) senderResolutionRetryMs)

def evaluate (input : GroupReceiveInput) (groupId : String)
    (context : Option GroupContentContext) : Except String GroupReceiveVerdict :=
  if input.claim.transcript ∧ input.senderId ≠ environment.ownUserId then
    pure (.denied .senderNotMember)
  else if ¬ context.all (fun context => environment.admitContext groupId context.masterKey
      context.revision ⟨input.senderId, input.senderDeviceId⟩) then
    pure (.denied .unverifiedCap)
  else if environment.isGroupBlocked groupId then pure (.denied .blocked)
  else
    match context with
    | none => pure (.denied .legacyNoContext)
    | some context =>
      match stateFor environment groupId context with
      | .error verdict => pure verdict
      | .ok state => authorizeContent environment input groupId state

def evaluateGroupContent (input : GroupReceiveInput) : Except String GroupReceiveVerdict :=
  match groupOfContext params input.claim with
  | .error denial => pure (.denied denial)
  | .ok group => evaluate environment input group.groupId group.context

inductive ContentError where
  | replayDetected (envelope content : ℤ)
  | refused (reason : GroupReceiveDenial)
  | invalidCiphertext (message : String)
  deriving DecidableEq

def refuseSyncFromOtherAccount (inspected : InspectedContent) (senderId ownUserId : String) :
    Except ContentError Unit :=
  if inspected.sync.isSome ∧ senderId ≠ ownUserId then throw (.refused .syncFromOtherAccount)
  else pure ()

def replayedTimestamps (envelopeTimestamp contentTimestamp : Option ℤ) : Option (ℤ × ℤ) :=
  match envelopeTimestamp, contentTimestamp with
  | some envelope, some content => if envelope ≠ content then some (envelope, content) else none
  | _, _ => none

def checkCommittedContent (ownUserId senderUserId : String) (envelopeTimestamp : Option ℤ)
    (inspected : InspectedContent) (transportGroupId : Option String) :
    Except ContentError Unit := do
  match replayedTimestamps envelopeTimestamp inspected.timestamp with
  | some (envelope, content) => throw (.replayDetected envelope content)
  | none => pure ()
  refuseSyncFromOtherAccount inspected senderUserId ownUserId
  if inspected.senderKeyDistribution.isSome ∧ transportGroupId.isSome then
    throw (.invalidCiphertext "Sender-key distributions require pairwise encryption")
  else pure ()

def senderKeyType : String := "sender_key"

structure CommittedContent (ownUserId : String) where
  messageId : String
  senderUserId : String
  senderDeviceId : ℕ
  messageType : String
  envelopeTimestamp : Option ℤ
  serverTimestamp : Option ℤ
  arrivedSealed : Bool
  plaintext : Plaintext
  text : String
  transportGroupId : Option String
  receivedAt : ℤ
  transport_iff : transportGroupId.isSome ↔ messageType = senderKeyType
  checked : checkCommittedContent ownUserId senderUserId envelopeTimestamp
    (inspectContent plaintext) transportGroupId = .ok ()

namespace CommittedContent

variable {ownUserId : String} (content : CommittedContent ownUserId)

def inspected : InspectedContent := inspectContent content.plaintext

def distributionGroupId : Option String :=
  content.inspected.senderKeyDistribution.map extractGroupId

end CommittedContent

inductive GroupContentDecision where
  | authorized (groupId : Option String)
  | denied (reason : GroupReceiveDenial)
  | unavailable (reason : GroupReceiveUnavailability) (retryAfterMs : ℕ) (messageId : String)
      (groupId : String)
  deriving DecidableEq

section

variable {ownUserId : String}

def resolvedGroupIdOf (content : CommittedContent ownUserId) : Option String :=
  content.transportGroupId.or
    (if content.inspected.senderKeyDistributionOnly then none else content.distributionGroupId)

/-- `decideGroupContent`; the client may have no evaluator. -/
def decideGroupContent (evaluator : Option ReceiveEnvironment)
    (content : CommittedContent ownUserId) : Except String GroupContentDecision :=
  let claimed := classifyGroupContent
    (if content.messageType = senderKeyType then content.transportGroupId else none)
    content.inspected
  match claimed, evaluator with
  | none, _ => pure (.authorized (resolvedGroupIdOf content))
  | some _, none => pure (.denied .configuration)
  | some claim, some environment => do
      let verdict ← evaluateGroupContent params environment
        ⟨claim, content.senderUserId, content.senderDeviceId⟩
      match verdict with
      | .authorized groupId _ =>
        pure (.authorized (if claim.transcript then resolvedGroupIdOf content else some groupId))
      | .denied reason => pure (.denied reason)
      | .unavailable reason retryAfterMs =>
        let groupId :=
          match groupOfContext params claim with
          | .ok group => group.groupId
          | .error _ => claim.groupId.getD ""
        pure (.unavailable reason retryAfterMs content.messageId groupId)

/-- `||` on a text that may be absent or empty. -/
def orElseText (text : Option String) (other : String) : String :=
  match text with
  | some text => if text = "" then other else text
  | none => other

/-- `Array.prototype.sort` on two texts, by their code units. -/
def directConversationId (userId recipientUserId : String) : String :=
  if recipientUserId.toList.flatMap SenderKeys.charCodes < userId.toList.flatMap SenderKeys.charCodes
  then s!"dm:{recipientUserId}_{userId}"
  else s!"dm:{userId}_{recipientUserId}"

structure DecryptedEnvelope where
  messageId : String
  sessionId : String
  senderId : String
  senderDeviceId : ℕ
  conversationId : String
  content : String
  timestamp : ℤ
  serverTimestamp : Option ℤ
  receivedAt : ℤ
  isGroup : Bool
  arrivedSealed : Bool
  messageType : String

def transportGroupOnly (content : CommittedContent ownUserId) : Bool :=
  content.messageType = senderKeyType ∧ content.senderUserId ≠ ownUserId

def decryptedEnvelopeOf (content : CommittedContent ownUserId) (resolvedGroupId : Option String) :
    DecryptedEnvelope where
  messageId := content.messageId
  sessionId := s!"{content.senderUserId}:{content.senderDeviceId}"
  senderId := content.senderUserId
  senderDeviceId := content.senderDeviceId
  conversationId :=
    orElseText
      (if transportGroupOnly content then resolvedGroupId else content.inspected.conversationId)
      (orElseText resolvedGroupId (directConversationId ownUserId content.senderUserId))
  content := content.text
  timestamp := content.inspected.timestamp.getD content.receivedAt
  serverTimestamp := content.serverTimestamp
  receivedAt := content.receivedAt
  isGroup := resolvedGroupId.isSome
  arrivedSealed := content.arrivedSealed
  messageType := content.messageType

end

end SignalProtocol.Groups

import SignalProtocol.Basic

/-! # Group state

The decrypted state of a group, and the decrypted changes of it. The numbers of the source are
integers here. -/

namespace SignalProtocol.Groups

inductive MemberRole where
  | unknown
  | default
  | administrator
  | unnamed (value : ℕ)
  deriving DecidableEq

inductive AccessRequired where
  | unknown
  | any
  | member
  | administrator
  | unsatisfiable
  | unnamed (value : ℕ)
  deriving DecidableEq

inductive EnabledState where
  | unknown
  | enabled
  | disabled
  | unnamed (value : ℕ)
  deriving DecidableEq

structure AccessControl where
  attributes : AccessRequired
  members : AccessRequired
  addFromInviteLink : AccessRequired
  memberLabel : AccessRequired
  deriving DecidableEq

def serviceIdAci : UInt8 := 0x00

def serviceIdPni : UInt8 := 0x01

structure DecryptedMember where
  aciBytes : Bytes
  role : MemberRole
  profileKey : Bytes
  joinedAtRevision : ℤ
  pniBytes : Bytes
  labelEmoji : String
  labelString : String
  deriving DecidableEq

structure DecryptedPendingMember where
  serviceIdBytes : Bytes
  role : MemberRole
  addedByAci : Bytes
  timestamp : ℤ
  serviceIdCipherText : Bytes
  quarantined : Bool
  deriving DecidableEq

structure DecryptedRequestingMember where
  aciBytes : Bytes
  profileKey : Bytes
  timestamp : ℤ
  aciCipherText : Option Bytes
  profileKeyCipherText : Option Bytes
  quarantined : Bool
  deriving DecidableEq

structure DecryptedBannedMember where
  serviceIdBytes : Bytes
  timestamp : ℤ
  serviceIdCipherText : Option Bytes
  quarantined : Bool
  deriving DecidableEq

structure DecryptedGroup where
  title : String
  avatar : String
  disappearingMessagesTimer : ℕ
  accessControl : AccessControl
  revision : ℤ
  members : List DecryptedMember
  pendingMembers : List DecryptedPendingMember
  requestingMembers : List DecryptedRequestingMember
  inviteLinkPassword : Bytes
  description : String
  isAnnouncementGroup : EnabledState
  bannedMembers : List DecryptedBannedMember
  terminated : Bool
  deriving DecidableEq

structure DecryptedAddMember where
  aciBytes : Bytes
  role : MemberRole
  profileKey : Bytes
  joinedAtRevision : Option ℤ

structure DecryptedProfileKeyUpdate where
  aciBytes : Bytes
  profileKey : Bytes

structure DecryptedPendingMemberPromotion where
  aciBytes : Bytes
  profileKey : Bytes
  role : Option MemberRole
  joinedAtRevision : Option ℤ

structure DecryptedPniAciMemberPromotion extends DecryptedPendingMemberPromotion where
  pniBytes : Bytes

structure DecryptedAddPendingMember where
  serviceIdBytes : Bytes
  role : MemberRole
  addedByAci : Option Bytes
  timestamp : Option ℤ
  serviceIdCipherText : Option Bytes
  quarantined : Bool

structure DecryptedAddRequestingMember where
  aciBytes : Bytes
  profileKey : Bytes
  timestamp : Option ℤ
  aciCipherText : Option Bytes
  profileKeyCipherText : Option Bytes
  quarantined : Bool

structure DecryptedAddBannedMember where
  serviceIdBytes : Bytes
  timestamp : Option ℤ
  serviceIdCipherText : Option Bytes
  quarantined : Bool

structure DecryptedDeleteBannedMember where
  serviceIdBytes : Bytes
  serviceIdCipherText : Option Bytes

structure DecryptedPendingMemberRemoval where
  serviceIdBytes : Bytes
  serviceIdCipherText : Bytes

structure DecryptedApproveMember where
  aciBytes : Bytes
  role : MemberRole

structure DecryptedModifyMemberRole where
  aciBytes : Bytes
  role : MemberRole

structure DecryptedModifyMemberLabel where
  aciBytes : Bytes
  labelEmoji : String
  labelString : String

/-- A change. The defaults are those of `emptyGroupChange`. -/
structure DecryptedGroupChange where
  editorServiceIdBytes : Bytes
  revision : ℤ
  newMembers : List DecryptedAddMember := []
  deleteMembers : List Bytes := []
  modifyMemberRoles : List DecryptedModifyMemberRole := []
  modifiedProfileKeys : List DecryptedProfileKeyUpdate := []
  newPendingMembers : List DecryptedAddPendingMember := []
  deletePendingMembers : List DecryptedPendingMemberRemoval := []
  promotePendingMembers : List DecryptedPendingMemberPromotion := []
  newTitle : Option String := none
  newAvatar : Option String := none
  newTimer : Option ℕ := none
  newAttributeAccess : Option AccessRequired := none
  newMemberAccess : Option AccessRequired := none
  newInviteLinkAccess : Option AccessRequired := none
  newMemberLabelAccess : Option AccessRequired := none
  newRequestingMembers : List DecryptedAddRequestingMember := []
  deleteRequestingMembers : List Bytes := []
  promoteRequestingMembers : List DecryptedApproveMember := []
  newInviteLinkPassword : Option Bytes := none
  newDescription : Option String := none
  newIsAnnouncementGroup : Option EnabledState := none
  newBannedMembers : List DecryptedAddBannedMember := []
  deleteBannedMembers : List DecryptedDeleteBannedMember := []
  promotePendingPniAciMembers : List DecryptedPniAciMemberPromotion := []
  modifyMemberLabels : List DecryptedModifyMemberLabel := []
  terminate : Option Bool := none

def emptyGroupChange (editorServiceIdBytes : Bytes) (revision : ℤ) : DecryptedGroupChange :=
  { editorServiceIdBytes, revision }

/-! ## Change application

A change acts on the state in five phases: deletions, bans, promotions, additions and
modifications. -/

def pendingTargetMatches (member : DecryptedPendingMember)
    (target : DecryptedPendingMemberRemoval) : Bool :=
  (target.serviceIdCipherText ≠ [] ∧ member.serviceIdCipherText = target.serviceIdCipherText) ∨
    (¬ member.quarantined ∧ member.serviceIdBytes = target.serviceIdBytes)

def requestingTargetMatches (member : DecryptedRequestingMember) (target : Bytes) : Bool :=
  if target.length = 65 then member.aciCipherText = some target
  else ¬ member.quarantined ∧ member.aciBytes = target

def banMatches (member : DecryptedBannedMember) (serviceIdBytes : Bytes)
    (serviceIdCipherText : Option Bytes) : Bool :=
  match serviceIdCipherText with
  | some cipherText => member.serviceIdCipherText = some cipherText
  | none => ¬ member.quarantined ∧ member.serviceIdBytes = serviceIdBytes

def bannedTargetMatches (member : DecryptedBannedMember)
    (target : DecryptedDeleteBannedMember) : Bool :=
  banMatches member target.serviceIdBytes target.serviceIdCipherText

/-- What an action does to the state, or the error that it throws. -/
abbrev Action (α : Type) := DecryptedGroup → α → Except String DecryptedGroup

def deletePendingMember : Action DecryptedPendingMemberRemoval := fun state removal =>
  if ¬ state.pendingMembers.any fun member => pendingTargetMatches member removal then
    throw "INVALID_CHANGE: Attempted to delete non-existent pending member"
  else
    pure { state with
      pendingMembers :=
        state.pendingMembers.filter fun member => ¬ pendingTargetMatches member removal }

def deleteRequestingMember : Action Bytes := fun state target =>
  if ¬ state.requestingMembers.any fun member => requestingTargetMatches member target then
    throw "INVALID_CHANGE: Attempted to delete non-existent requesting member"
  else
    pure { state with
      requestingMembers :=
        state.requestingMembers.filter fun member => ¬ requestingTargetMatches member target }

def deleteBannedMember : Action DecryptedDeleteBannedMember := fun state removal =>
  if ¬ state.bannedMembers.any fun member => bannedTargetMatches member removal then
    throw "INVALID_CHANGE: Attempted to unban non-existent banned member"
  else
    pure { state with
      bannedMembers :=
        state.bannedMembers.filter fun member => ¬ bannedTargetMatches member removal }

def deleteMember : Action Bytes := fun state aciBytes =>
  if ¬ state.members.any fun member => member.aciBytes = aciBytes then
    throw "INVALID_CHANGE: Attempted to delete non-existent member"
  else
    pure { state with members := state.members.filter fun member => member.aciBytes ≠ aciBytes }

def applyDeletions (state : DecryptedGroup) (change : DecryptedGroupChange) :
    Except String DecryptedGroup := do
  let state ← change.deletePendingMembers.foldlM deletePendingMember state
  let state ← change.deleteRequestingMembers.foldlM deleteRequestingMember state
  let state ← change.deleteBannedMembers.foldlM deleteBannedMember state
  change.deleteMembers.foldlM deleteMember state

def bannedEntry (banned : DecryptedAddBannedMember) : DecryptedBannedMember where
  serviceIdBytes := banned.serviceIdBytes
  timestamp := banned.timestamp.getD 0
  serviceIdCipherText := banned.serviceIdCipherText
  quarantined := banned.serviceIdCipherText.isSome

def banMember : Action DecryptedAddBannedMember := fun state banned =>
  if state.bannedMembers.any fun member =>
      banMatches member banned.serviceIdBytes banned.serviceIdCipherText then
    throw "INVALID_CHANGE: Attempted to ban already-banned member"
  else
    pure { state with bannedMembers := state.bannedMembers ++ [bannedEntry banned] }

def applyBans (state : DecryptedGroup) (change : DecryptedGroupChange) :
    Except String DecryptedGroup :=
  change.newBannedMembers.foldlM banMember state

def assertMemberDestinationAvailable (state : DecryptedGroup) (aciBytes : Bytes)
    (errorMessage : String) : Except String Unit :=
  if state.members.any fun member => member.aciBytes = aciBytes then
    throw s!"INVALID_CHANGE: {errorMessage}"
  else pure ()

def newMember (aciBytes profileKey : Bytes) (role : MemberRole) (revision : ℤ) :
    DecryptedMember where
  aciBytes
  role
  profileKey
  joinedAtRevision := revision
  pniBytes := []
  labelEmoji := ""
  labelString := ""

def memberFromPromotion (promotion : DecryptedPendingMemberPromotion) (role : MemberRole)
    (revision : ℤ) : DecryptedMember :=
  newMember promotion.aciBytes promotion.profileKey role revision

def lengthError (label : String) (uuid : Bytes) : String :=
  s!"INVALID_CHANGE: {label} must be 16 bytes, got {uuid.length}"

def hasServiceId (serviceIdBytes : Bytes) (member : DecryptedPendingMember) : Bool :=
  member.serviceIdBytes = serviceIdBytes

def promotePendingMember (revision : ℤ) : Action DecryptedPendingMemberPromotion :=
  fun state promotion => do
    if promotion.aciBytes.length ≠ 16 then
      throw (lengthError "Pending promotion ACI" promotion.aciBytes)
    assertMemberDestinationAvailable state promotion.aciBytes
      "Attempted to promote pending member who is already a member"
    let isPending := hasServiceId (serviceIdAci :: promotion.aciBytes)
    match state.pendingMembers.find? isPending with
    | none => throw "INVALID_CHANGE: Attempted to promote non-existent pending member"
    | some pending =>
      pure { state with
        pendingMembers := state.pendingMembers.eraseP isPending
        members := state.members ++ [memberFromPromotion promotion pending.role revision] }

def promotePendingPniAciMember (revision : ℤ) : Action DecryptedPniAciMemberPromotion :=
  fun state promotion => do
    if promotion.aciBytes.length ≠ 16 then
      throw (lengthError "Pending PNI promotion ACI" promotion.aciBytes)
    if promotion.pniBytes.length ≠ 16 then
      throw (lengthError "Pending promotion PNI" promotion.pniBytes)
    assertMemberDestinationAvailable state promotion.aciBytes
      "Attempted to promote PNI/ACI member who is already a member"
    let isPending := hasServiceId (serviceIdPni :: promotion.pniBytes)
    let isAlias := hasServiceId (serviceIdAci :: promotion.aciBytes)
    match state.pendingMembers.find? isPending with
    | none => throw "INVALID_CHANGE: Attempted to promote PNI/ACI member not in pending list"
    | some pending =>
      if (state.pendingMembers.find? isAlias).any fun aciPending =>
          aciPending.role ≠ pending.role then
        throw ("INVALID_CHANGE: PNI-to-ACI promotion cannot consume pending aliases with " ++
          "different roles")
      else
        pure { state with
          pendingMembers :=
            (state.pendingMembers.eraseP isPending).filter fun member => ¬ isAlias member
          members := state.members ++
            [memberFromPromotion promotion.toDecryptedPendingMemberPromotion pending.role
              revision] }

def hasAci (aciBytes : Bytes) (member : DecryptedRequestingMember) : Bool :=
  member.aciBytes = aciBytes

def promoteRequestingMember (revision : ℤ) : Action DecryptedApproveMember :=
  fun state approval => do
    assertMemberDestinationAvailable state approval.aciBytes
      "Attempted to promote requesting member who is already a member"
    match state.requestingMembers.find? (hasAci approval.aciBytes) with
    | none => throw "INVALID_CHANGE: Attempted to promote non-existent requesting member"
    | some requesting =>
      pure { state with
        requestingMembers := state.requestingMembers.eraseP (hasAci approval.aciBytes)
        members := state.members ++
          [newMember approval.aciBytes requesting.profileKey approval.role revision] }

def applyPromotions (state : DecryptedGroup) (change : DecryptedGroupChange) :
    Except String DecryptedGroup := do
  let state ← change.promotePendingMembers.foldlM (promotePendingMember change.revision) state
  let state ← change.promotePendingPniAciMembers.foldlM
    (promotePendingPniAciMember change.revision) state
  change.promoteRequestingMembers.foldlM (promoteRequestingMember change.revision) state

def addMember : Action DecryptedAddMember := fun state member => do
  assertMemberDestinationAvailable state member.aciBytes "Attempted to add existing member"
  pure { state with
    members := state.members ++
      [newMember member.aciBytes member.profileKey member.role
        (member.joinedAtRevision.getD 0)] }

def pendingMatches (pending : DecryptedAddPendingMember) (member : DecryptedPendingMember) :
    Bool :=
  match pending.serviceIdCipherText, pending.quarantined with
  | some cipherText, true => member.serviceIdCipherText = cipherText
  | _, _ => ¬ member.quarantined ∧ member.serviceIdBytes = pending.serviceIdBytes

def pendingEntry (pending : DecryptedAddPendingMember) : DecryptedPendingMember where
  serviceIdBytes := pending.serviceIdBytes
  role := pending.role
  addedByAci := pending.addedByAci.getD []
  timestamp := pending.timestamp.getD 0
  serviceIdCipherText := pending.serviceIdCipherText.getD []
  quarantined := pending.quarantined

def addPendingMember : Action DecryptedAddPendingMember := fun state pending =>
  if state.pendingMembers.any (pendingMatches pending) then
    throw "INVALID_CHANGE: Attempted to add existing pending member"
  else
    pure { state with pendingMembers := state.pendingMembers ++ [pendingEntry pending] }

def requestingMatches (requesting : DecryptedAddRequestingMember)
    (member : DecryptedRequestingMember) : Bool :=
  match requesting.quarantined, requesting.aciCipherText with
  | true, some cipherText => member.aciCipherText = some cipherText
  | _, _ => ¬ member.quarantined ∧ member.aciBytes = requesting.aciBytes

def requestingEntry (requesting : DecryptedAddRequestingMember) : DecryptedRequestingMember where
  aciBytes := requesting.aciBytes
  profileKey := requesting.profileKey
  timestamp := requesting.timestamp.getD 0
  aciCipherText := if requesting.quarantined then requesting.aciCipherText else none
  profileKeyCipherText := if requesting.quarantined then requesting.profileKeyCipherText else none
  quarantined := requesting.quarantined

def addRequestingMember : Action DecryptedAddRequestingMember := fun state requesting =>
  if state.requestingMembers.any (requestingMatches requesting) then
    throw "INVALID_CHANGE: Attempted to add existing requesting member"
  else
    pure { state with
      requestingMembers := state.requestingMembers ++ [requestingEntry requesting] }

def applyAdditions (state : DecryptedGroup) (change : DecryptedGroupChange) :
    Except String DecryptedGroup := do
  let state ← change.newMembers.foldlM addMember state
  let state ← change.newPendingMembers.foldlM addPendingMember state
  change.newRequestingMembers.foldlM addRequestingMember state

def modifyFirst {α : Type} (hasProperty : α → Bool) (modification : α → α) :
    List α → Option (List α)
  | [] => none
  | entry :: entries =>
    if hasProperty entry then some (modification entry :: entries)
    else (modifyFirst hasProperty modification entries).map (entry :: ·)

def modifyMember (aciBytes : Bytes) (modification : DecryptedMember → DecryptedMember)
    (errorMessage : String) (state : DecryptedGroup) : Except String DecryptedGroup :=
  match modifyFirst (fun member => member.aciBytes = aciBytes) modification state.members with
  | some members => pure { state with members }
  | none => throw s!"INVALID_CHANGE: {errorMessage}"

def modifyMemberRole : Action DecryptedModifyMemberRole := fun state modification =>
  modifyMember modification.aciBytes (fun member => { member with role := modification.role })
    "Attempted to modify role of non-existent member" state

def modifyMemberLabel : Action DecryptedModifyMemberLabel := fun state modification =>
  modifyMember modification.aciBytes
    (fun member => { member with
      labelEmoji := modification.labelEmoji
      labelString := modification.labelString })
    "Attempted to modify labels of non-existent member" state

def modifyProfileKey : Action DecryptedProfileKeyUpdate := fun state modification =>
  modifyMember modification.aciBytes
    (fun member => { member with profileKey := modification.profileKey })
    "Attempted to modify profile key of non-existent member" state

def applyMemberModifications (state : DecryptedGroup) (change : DecryptedGroupChange) :
    Except String DecryptedGroup := do
  let state ← change.modifyMemberRoles.foldlM modifyMemberRole state
  let state ← change.modifyMemberLabels.foldlM modifyMemberLabel state
  change.modifiedProfileKeys.foldlM modifyProfileKey state

def accessAfter (current : AccessRequired) : Option AccessRequired → AccessRequired
  | none => current
  | some .unknown => current
  | some access => access

def applyAttributesAndAccessControl (state : DecryptedGroup) (change : DecryptedGroupChange) :
    DecryptedGroup :=
  { state with
    title := change.newTitle.getD state.title
    avatar := change.newAvatar.getD state.avatar
    disappearingMessagesTimer := change.newTimer.getD state.disappearingMessagesTimer
    description := change.newDescription.getD state.description
    inviteLinkPassword := change.newInviteLinkPassword.getD state.inviteLinkPassword
    isAnnouncementGroup :=
      match change.newIsAnnouncementGroup with
      | none => state.isAnnouncementGroup
      | some .unknown => state.isAnnouncementGroup
      | some state => state
    accessControl := {
      attributes := accessAfter state.accessControl.attributes change.newAttributeAccess
      members := accessAfter state.accessControl.members change.newMemberAccess
      addFromInviteLink :=
        accessAfter state.accessControl.addFromInviteLink change.newInviteLinkAccess
      memberLabel := accessAfter state.accessControl.memberLabel change.newMemberLabelAccess } }

def applyTermination (state : DecryptedGroup) (change : DecryptedGroupChange) :
    Except String DecryptedGroup :=
  match change.terminate with
  | none => pure state
  | some true => pure { state with terminated := true }
  | some false => throw "INVALID_CHANGE: Termination action must be true"

def applyGroupChange (state : DecryptedGroup) (change : DecryptedGroupChange) :
    Except String DecryptedGroup := do
  if state.terminated then throw "INVALID_CHANGE: Group is terminated"
  if change.revision ≠ state.revision + 1 then
    throw s!"Invalid revision: expected {state.revision + 1}, got {change.revision}"
  let state ← applyDeletions state change
  let state ← applyBans state change
  let state ← applyPromotions state change
  let state ← applyAdditions state change
  let state ← applyMemberModifications state change
  let state ← applyTermination (applyAttributesAndAccessControl state change) change
  pure { state with revision := change.revision }

end SignalProtocol.Groups

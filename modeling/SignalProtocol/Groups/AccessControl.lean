import SignalProtocol.Groups.State

/-! # Change validation

The domains of the fields of a state and of a change, and the replay of a change on a shadow of the
state. -/

namespace SignalProtocol.Groups

def isNilUuid (uuid : Bytes) : Bool := uuid.length = 16 ∧ uuid.all fun byte => byte = 0

def isRoleAccessRequirement (requirement : AccessRequired) : Bool :=
  requirement = .member ∨ requirement = .administrator

def isInviteLinkAccessRequirement (requirement : AccessRequired) : Bool :=
  requirement = .unsatisfiable ∨ requirement = .any ∨ requirement = .administrator

def isStoredMemberRole (role : MemberRole) : Bool := role = .default ∨ role = .administrator

def maxSafeInteger : ℤ := 2 ^ 53 - 1

def isSafeInteger (value : ℤ) : Bool := -maxSafeInteger ≤ value ∧ value ≤ maxSafeInteger

def isCanonicalTimestamp (value : ℤ) : Bool := isSafeInteger value ∧ 0 ≤ value

def isAnnouncementState (value : EnabledState) : Bool := value = .enabled ∨ value = .disabled

def errorIf (wrong : Bool) (error : String) : List String := if wrong then [error] else []

def entryErrors {α : Type} (label : String) (entries : List α)
    (errors : String → α → List String) : List String :=
  entries.zipIdx.flatMap fun entry => errors s!"{label}[{entry.2}]" entry.1

def nilUuidError (value : Bytes) (label : String) : List String :=
  errorIf (isNilUuid value) s!"{label} uses the reserved nil UUID"

def nilServiceIdError (value : Bytes) (label : String) : List String :=
  errorIf (value.length = 17 ∧ isNilUuid (value.drop 1)) s!"{label} uses the reserved nil UUID"

def nilPniError (pniBytes : Bytes) (label : String) : List String :=
  if pniBytes ≠ [] then nilUuidError pniBytes label else []

def validateGroupIdentifiers (group : DecryptedGroup) : List String :=
  entryErrors "members" group.members (fun path member =>
    nilUuidError member.aciBytes s!"{path}.aciBytes" ++
      nilPniError member.pniBytes s!"{path}.pniBytes") ++
  entryErrors "pendingMembers" group.pendingMembers (fun path member =>
    nilServiceIdError member.serviceIdBytes s!"{path}.serviceIdBytes" ++
      nilUuidError member.addedByAci s!"{path}.addedByAci") ++
  entryErrors "requestingMembers" group.requestingMembers (fun path member =>
    nilUuidError member.aciBytes s!"{path}.aciBytes") ++
  entryErrors "bannedMembers" group.bannedMembers (fun path member =>
    nilServiceIdError member.serviceIdBytes s!"{path}.serviceIdBytes")

def validateGroupAccessControl (group : DecryptedGroup) : List String :=
  errorIf (¬ isRoleAccessRequirement group.accessControl.attributes)
    "accessControl.attributes is outside its §6.7 domain" ++
  errorIf (¬ isRoleAccessRequirement group.accessControl.members)
    "accessControl.members is outside its §6.7 domain" ++
  errorIf (¬ isRoleAccessRequirement group.accessControl.memberLabel)
    "accessControl.memberLabel is outside its §6.7 domain" ++
  errorIf (¬ isInviteLinkAccessRequirement group.accessControl.addFromInviteLink)
    "accessControl.addFromInviteLink is outside its §6.7 domain"

def roleError (role : MemberRole) (path : String) : List String :=
  errorIf (¬ isStoredMemberRole role) s!"{path}.role is outside its §6.8 domain"

def validateGroupMemberRoles (group : DecryptedGroup) : List String :=
  entryErrors "members" group.members (fun path member => roleError member.role path) ++
  entryErrors "pendingMembers" group.pendingMembers (fun path member =>
    roleError member.role path)

def timestampError (timestamp : ℤ) (path : String) : List String :=
  errorIf (¬ isCanonicalTimestamp timestamp) s!"{path}.timestamp is outside its §7.8 domain"

def validateGroupCanonicalFields (group : DecryptedGroup) : List String :=
  errorIf (¬ isSafeInteger group.revision ∨ group.revision < 0)
    "revision must be a non-negative safe integer" ++
  errorIf (¬ isAnnouncementState group.isAnnouncementGroup)
    "isAnnouncementGroup is outside its §7.8 domain" ++
  errorIf (group.inviteLinkPassword.length ≠ 0 ∧ group.inviteLinkPassword.length ≠ 16)
    "inviteLinkPassword must be empty or exactly 16 bytes" ++
  entryErrors "members" group.members (fun path member =>
    errorIf (¬ isSafeInteger member.joinedAtRevision ∨ member.joinedAtRevision < 0 ∨
        group.revision < member.joinedAtRevision)
      s!"{path}.joinedAtRevision is outside its §7.8 domain") ++
  entryErrors "pendingMembers" group.pendingMembers (fun path member =>
    timestampError member.timestamp path) ++
  entryErrors "requestingMembers" group.requestingMembers (fun path member =>
    timestampError member.timestamp path) ++
  entryErrors "bannedMembers" group.bannedMembers (fun path member =>
    timestampError member.timestamp path)

/-! ## Changes -/

def validateChangeIdentifiers (change : DecryptedGroupChange) : List String :=
  nilServiceIdError change.editorServiceIdBytes "editorServiceIdBytes" ++
  entryErrors "newMembers" change.newMembers (fun path member =>
    nilUuidError member.aciBytes s!"{path}.aciBytes") ++
  entryErrors "modifiedProfileKeys" change.modifiedProfileKeys (fun path member =>
    nilUuidError member.aciBytes s!"{path}.aciBytes") ++
  entryErrors "promotePendingMembers" change.promotePendingMembers (fun path member =>
    nilUuidError member.aciBytes s!"{path}.aciBytes") ++
  entryErrors "promotePendingPniAciMembers" change.promotePendingPniAciMembers
    (fun path member => nilUuidError member.aciBytes s!"{path}.aciBytes" ++
      nilPniError member.pniBytes s!"{path}.pniBytes") ++
  entryErrors "deleteMembers" change.deleteMembers (fun path aciBytes =>
    nilUuidError aciBytes path) ++
  entryErrors "modifyMemberRoles" change.modifyMemberRoles (fun path member =>
    nilUuidError member.aciBytes s!"{path}.aciBytes") ++
  entryErrors "newPendingMembers" change.newPendingMembers (fun path member =>
    nilServiceIdError member.serviceIdBytes s!"{path}.serviceIdBytes" ++
      (member.addedByAci.map fun addedByAci =>
        nilUuidError addedByAci s!"{path}.addedByAci").getD []) ++
  entryErrors "deletePendingMembers" change.deletePendingMembers (fun path member =>
    nilServiceIdError member.serviceIdBytes s!"{path}.serviceIdBytes") ++
  entryErrors "newRequestingMembers" change.newRequestingMembers (fun path member =>
    nilUuidError member.aciBytes s!"{path}.aciBytes") ++
  entryErrors "deleteRequestingMembers" change.deleteRequestingMembers (fun path aciBytes =>
    nilUuidError aciBytes path) ++
  entryErrors "promoteRequestingMembers" change.promoteRequestingMembers (fun path member =>
    nilUuidError member.aciBytes s!"{path}.aciBytes") ++
  entryErrors "newBannedMembers" change.newBannedMembers (fun path member =>
    nilServiceIdError member.serviceIdBytes s!"{path}.serviceIdBytes") ++
  entryErrors "deleteBannedMembers" change.deleteBannedMembers (fun path member =>
    nilServiceIdError member.serviceIdBytes s!"{path}.serviceIdBytes") ++
  entryErrors "modifyMemberLabels" change.modifyMemberLabels (fun path member =>
    nilUuidError member.aciBytes s!"{path}.aciBytes")

def optionalError {α : Type} (value : Option α) (inDomain : α → Bool) (error : String) :
    List String :=
  errorIf (value.any fun value => ¬ inDomain value) error

def validateChangeAccessControl (change : DecryptedGroupChange) : List String :=
  optionalError change.newAttributeAccess isRoleAccessRequirement
    "newAttributeAccess is outside its §6.7 domain" ++
  optionalError change.newMemberAccess isRoleAccessRequirement
    "newMemberAccess is outside its §6.7 domain" ++
  optionalError change.newMemberLabelAccess isRoleAccessRequirement
    "newMemberLabelAccess is outside its §6.7 domain" ++
  optionalError change.newInviteLinkAccess isInviteLinkAccessRequirement
    "newInviteLinkAccess is outside its §6.7 domain"

def optionalRoleError (role : Option MemberRole) (path : String) : List String :=
  optionalError role isStoredMemberRole s!"{path}.role is outside its §6.8 domain"

def validateChangeMemberRoles (change : DecryptedGroupChange) : List String :=
  entryErrors "newMembers" change.newMembers (fun path member => roleError member.role path) ++
  entryErrors "promotePendingMembers" change.promotePendingMembers (fun path member =>
    optionalRoleError member.role path) ++
  entryErrors "promotePendingPniAciMembers" change.promotePendingPniAciMembers
    (fun path member => optionalRoleError member.role path) ++
  entryErrors "newPendingMembers" change.newPendingMembers (fun path member =>
    roleError member.role path) ++
  entryErrors "modifyMemberRoles" change.modifyMemberRoles (fun path member =>
    roleError member.role path) ++
  entryErrors "promoteRequestingMembers" change.promoteRequestingMembers (fun path member =>
    roleError member.role path)

inductive DecryptedGroupChangeForm where
  | submission
  | canonical
  deriving DecidableEq

namespace DecryptedGroupChangeForm

variable (form : DecryptedGroupChangeForm)

def name : String :=
  match form with
  | .submission => "submission"
  | .canonical => "canonical"

def presence : String := if form = .canonical then "present" else "absent"

def expectDerived (isPresent : Bool) (label : String) : List String :=
  errorIf (isPresent ≠ decide (form = .canonical))
    s!"{label} must be {form.presence} in {form.name} form"

def canonicalError (wrong : Bool) (error : String) : List String :=
  errorIf (form = .canonical ∧ wrong) error

def pendingRole (state : DecryptedGroup) (kind : UInt8) (uuid : Bytes) : Option MemberRole :=
  (state.pendingMembers.find? fun member =>
    member.serviceIdBytes.head? = some kind ∧ member.serviceIdBytes.drop 1 = uuid).map
      DecryptedPendingMember.role

def joinedAtErrors (joinedAtRevision : Option ℤ) (revision : ℤ) (path : String) : List String :=
  form.canonicalError (joinedAtRevision ≠ some revision)
    s!"{path}.joinedAtRevision must equal the change revision"

def promotionErrors (promotion : DecryptedPendingMemberPromotion)
    (expectedRole : Option MemberRole) (revision : ℤ) (path : String) : List String :=
  form.expectDerived promotion.role.isSome s!"{path}.role" ++
  form.expectDerived promotion.joinedAtRevision.isSome s!"{path}.joinedAtRevision" ++
  form.canonicalError (promotion.role ≠ expectedRole) s!"{path}.role must equal the pending role" ++
  form.joinedAtErrors promotion.joinedAtRevision revision path

def derivedTimestampErrors (timestamp : Option ℤ) (path : String) : List String :=
  form.expectDerived timestamp.isSome s!"{path}.timestamp" ++
  form.canonicalError (¬ timestamp.any isCanonicalTimestamp)
    s!"{path}.timestamp is outside its §7.8 domain"

end DecryptedGroupChangeForm

open DecryptedGroupChangeForm in
def validateChangeCanonicalFields (state : DecryptedGroup) (change : DecryptedGroupChange)
    (form : DecryptedGroupChangeForm) : List String :=
  errorIf (¬ isSafeInteger change.revision ∨ change.revision < 1)
    "change revision must be a positive safe integer" ++
  optionalError change.newIsAnnouncementGroup isAnnouncementState
    "newIsAnnouncementGroup is outside its §7.8 domain" ++
  optionalError change.newInviteLinkPassword (fun password => password.length = 16)
    "newInviteLinkPassword must be exactly 16 bytes" ++
  entryErrors "newMembers" change.newMembers (fun path member =>
    form.expectDerived member.joinedAtRevision.isSome s!"{path}.joinedAtRevision" ++
      form.joinedAtErrors member.joinedAtRevision change.revision path) ++
  entryErrors "promotePendingMembers" change.promotePendingMembers (fun path promotion =>
    form.promotionErrors promotion (pendingRole state serviceIdAci promotion.aciBytes)
      change.revision path) ++
  entryErrors "promotePendingPniAciMembers" change.promotePendingPniAciMembers
    (fun path promotion =>
      form.promotionErrors promotion.toDecryptedPendingMemberPromotion
        (pendingRole state serviceIdPni promotion.pniBytes) change.revision path) ++
  entryErrors "newPendingMembers" change.newPendingMembers (fun path pending =>
    form.expectDerived pending.addedByAci.isSome s!"{path}.addedByAci" ++
      form.expectDerived pending.timestamp.isSome s!"{path}.timestamp" ++
      -- The source throws where the inviter is missing in the canonical form.
      form.canonicalError (change.editorServiceIdBytes.head? ≠ some serviceIdAci ∨
          pending.addedByAci ≠ some (change.editorServiceIdBytes.drop 1))
        s!"{path}.addedByAci must equal sourceUserId" ++
      form.canonicalError (¬ pending.timestamp.any isCanonicalTimestamp)
        s!"{path}.timestamp is outside its §7.8 domain") ++
  entryErrors "newRequestingMembers" change.newRequestingMembers (fun path entry =>
    form.derivedTimestampErrors entry.timestamp path) ++
  entryErrors "newBannedMembers" change.newBannedMembers (fun path entry =>
    form.derivedTimestampErrors entry.timestamp path)

def hasArrayAction (change : DecryptedGroupChange) : Bool :=
  change.newMembers ≠ [] ∨ change.deleteMembers ≠ [] ∨ change.modifyMemberRoles ≠ [] ∨
    change.modifiedProfileKeys ≠ [] ∨ change.newPendingMembers ≠ [] ∨
    change.deletePendingMembers ≠ [] ∨ change.promotePendingMembers ≠ [] ∨
    change.promotePendingPniAciMembers ≠ [] ∨ change.newRequestingMembers ≠ [] ∨
    change.deleteRequestingMembers ≠ [] ∨ change.promoteRequestingMembers ≠ [] ∨
    change.newBannedMembers ≠ [] ∨ change.deleteBannedMembers ≠ [] ∨
    change.modifyMemberLabels ≠ []

def hasScalarAction (change : DecryptedGroupChange) : Bool :=
  change.newTitle.isSome || change.newAvatar.isSome || change.newTimer.isSome ||
    change.newAttributeAccess.isSome || change.newMemberAccess.isSome ||
    change.newInviteLinkAccess.isSome || change.newMemberLabelAccess.isSome ||
    change.newInviteLinkPassword.isSome || change.newDescription.isSome ||
    change.newIsAnnouncementGroup.isSome || change.terminate.isSome

abbrev Shadow := DecryptedGroup × List String

def stripInvalidChange (message : String) : String :=
  if "INVALID_CHANGE: ".toList.isPrefixOf message.toList then
    String.ofList (message.toList.drop "INVALID_CHANGE: ".length)
  else message

/-- An action that throws leaves the shadow as it is. -/
def validateStep (shadow : Shadow) (result : Except String DecryptedGroup) : Shadow :=
  match result with
  | .ok next => (next, shadow.2)
  | .error message => (shadow.1, shadow.2 ++ [stripInvalidChange message])

def validateSteps {α : Type} (entries : List α)
    (apply : DecryptedGroup → DecryptedGroupChange → Except String DecryptedGroup)
    (current : α → DecryptedGroupChange) (shadow : Shadow) : Shadow :=
  entries.foldl (fun shadow entry => validateStep shadow (apply shadow.1 (current entry))) shadow

def stateFieldErrors (state : DecryptedGroup) : List String :=
  validateGroupIdentifiers state ++ validateGroupAccessControl state ++
    validateGroupMemberRoles state ++ validateGroupCanonicalFields state

def changeFieldErrors (state : DecryptedGroup) (change : DecryptedGroupChange)
    (form : DecryptedGroupChangeForm) : List String :=
  validateChangeIdentifiers change ++ validateChangeAccessControl change ++
    validateChangeMemberRoles change ++ validateChangeCanonicalFields state change form

def replay (state : DecryptedGroup) (change : DecryptedGroupChange) : Shadow :=
  let step := emptyGroupChange change.editorServiceIdBytes change.revision
  let shadow : Shadow := (state, [])
  let shadow := validateSteps change.deletePendingMembers applyDeletions
    (fun removal => { step with deletePendingMembers := [removal] }) shadow
  let shadow := validateSteps change.deleteRequestingMembers applyDeletions
    (fun aciBytes => { step with deleteRequestingMembers := [aciBytes] }) shadow
  let shadow := validateSteps change.deleteBannedMembers applyDeletions
    (fun removal => { step with deleteBannedMembers := [removal] }) shadow
  let shadow := validateSteps change.deleteMembers applyDeletions
    (fun aciBytes => { step with deleteMembers := [aciBytes] }) shadow
  let shadow := validateSteps change.newBannedMembers applyBans
    (fun banned => { step with newBannedMembers := [banned] }) shadow
  let shadow := validateSteps change.promotePendingMembers applyPromotions
    (fun promotion => { step with promotePendingMembers := [promotion] }) shadow
  let shadow := validateSteps change.promotePendingPniAciMembers applyPromotions
    (fun promotion => { step with promotePendingPniAciMembers := [promotion] }) shadow
  let shadow := validateSteps change.promoteRequestingMembers applyPromotions
    (fun approval => { step with promoteRequestingMembers := [approval] }) shadow
  let shadow := validateSteps change.newMembers applyAdditions
    (fun member => { step with newMembers := [member] }) shadow
  let shadow := validateSteps change.newPendingMembers applyAdditions
    (fun pending => { step with newPendingMembers := [pending] }) shadow
  let shadow := validateSteps change.newRequestingMembers applyAdditions
    (fun requesting => { step with newRequestingMembers := [requesting] }) shadow
  let shadow := validateSteps change.modifyMemberRoles applyMemberModifications
    (fun modification => { step with modifyMemberRoles := [modification] }) shadow
  let shadow := validateSteps change.modifyMemberLabels applyMemberModifications
    (fun modification => { step with modifyMemberLabels := [modification] }) shadow
  let shadow := validateSteps change.modifiedProfileKeys applyMemberModifications
    (fun modification => { step with modifiedProfileKeys := [modification] }) shadow
  validateSteps change.terminate.toList applyTermination
    (fun terminate => { step with terminate := some terminate }) shadow

def structuralErrors (state : DecryptedGroup) (change : DecryptedGroupChange) : List String :=
  errorIf (change.revision ≠ state.revision + 1)
      s!"Invalid revision: expected {state.revision + 1}, got {change.revision}" ++
    if state.terminated then ["Group is terminated"]
    else if ¬ hasArrayAction change ∧ ¬ hasScalarAction change then ["Change contains no actions"]
    else (replay state change).2

def validateChangeStructure (state : DecryptedGroup) (change : DecryptedGroupChange)
    (form : DecryptedGroupChangeForm) : List String :=
  stateFieldErrors state ++ changeFieldErrors state change form ++ structuralErrors state change

/-! ## Group access control

The authorization of the actions of a change, by the role of the editor and by the access
requirements of the state before the change. -/

inductive GroupAction where
  | modifyTitle
  | modifyAvatar
  | modifyDescription
  | modifyDisappearingMessages
  | addMember
  | removeMember
  | modifyMemberRole
  | modifyMemberLabel
  | modifyMemberProfileKey
  | modifyAttributesAccess
  | modifyMembersAccess
  | modifyInviteLinkAccess
  | modifyInviteLinkPassword
  | modifyAnnouncements
  | modifyMemberLabelAccess
  | banMember
  | unbanMember
  | addMemberPendingProfileKey
  | deleteMemberPendingProfileKey
  | promoteMemberPendingProfileKey
  | promoteMemberPendingPniAciProfileKey
  | addMemberPendingAdminApproval
  | deleteMemberPendingAdminApproval
  | promoteMemberPendingAdminApproval
  | terminateGroup
  | sendMessage

def GroupAction.name : GroupAction → String
  | modifyTitle => "MODIFY_TITLE"
  | modifyAvatar => "MODIFY_AVATAR"
  | modifyDescription => "MODIFY_DESCRIPTION"
  | modifyDisappearingMessages => "MODIFY_DISAPPEARING_MESSAGES"
  | addMember => "ADD_MEMBER"
  | removeMember => "REMOVE_MEMBER"
  | modifyMemberRole => "MODIFY_MEMBER_ROLE"
  | modifyMemberLabel => "MODIFY_MEMBER_LABEL"
  | modifyMemberProfileKey => "MODIFY_MEMBER_PROFILE_KEY"
  | modifyAttributesAccess => "MODIFY_ATTRIBUTES_ACCESS"
  | modifyMembersAccess => "MODIFY_MEMBERS_ACCESS"
  | modifyInviteLinkAccess => "MODIFY_INVITE_LINK_ACCESS"
  | modifyInviteLinkPassword => "MODIFY_INVITE_LINK_PASSWORD"
  | modifyAnnouncements => "MODIFY_ANNOUNCEMENTS"
  | modifyMemberLabelAccess => "MODIFY_MEMBER_LABEL_ACCESS"
  | banMember => "BAN_MEMBER"
  | unbanMember => "UNBAN_MEMBER"
  | addMemberPendingProfileKey => "ADD_MEMBER_PENDING_PROFILE_KEY"
  | deleteMemberPendingProfileKey => "DELETE_MEMBER_PENDING_PROFILE_KEY"
  | promoteMemberPendingProfileKey => "PROMOTE_MEMBER_PENDING_PROFILE_KEY"
  | promoteMemberPendingPniAciProfileKey => "PROMOTE_MEMBER_PENDING_PNI_ACI_PROFILE_KEY"
  | addMemberPendingAdminApproval => "ADD_MEMBER_PENDING_ADMIN_APPROVAL"
  | deleteMemberPendingAdminApproval => "DELETE_MEMBER_PENDING_ADMIN_APPROVAL"
  | promoteMemberPendingAdminApproval => "PROMOTE_MEMBER_PENDING_ADMIN_APPROVAL"
  | terminateGroup => "TERMINATE_GROUP"
  | sendMessage => "SEND_MESSAGE"

def satisfiesLiveGroupAdministratorInvariant (group : DecryptedGroup) : Bool :=
  group.terminated || group.members.any fun member => member.role = .administrator

structure GroupActionContext where
  targetAciBytes : Option Bytes := none
  targetServiceIdBytes : Option Bytes := none
  assignedRole : Option MemberRole := none

structure GroupActionAuthorizationContext where
  requesterIsBanned : Bool
  targetIsRequester : Bool
  assignedRole : Option MemberRole

def findMember (group : DecryptedGroup) (aciBytes : Bytes) : Option DecryptedMember :=
  group.members.find? fun member => member.aciBytes = aciBytes

def getMemberRole (group : DecryptedGroup) (aciBytes : Bytes) : MemberRole :=
  ((findMember group aciBytes).map DecryptedMember.role).getD .unknown

def isBanned (group : DecryptedGroup) (serviceIdBytes : Bytes) : Bool :=
  group.bannedMembers.any fun banned => banned.serviceIdBytes = serviceIdBytes

def meetsAccessRequirement (memberRole : MemberRole) : AccessRequired → Bool
  | .any => true
  | .member => memberRole = .default ∨ memberRole = .administrator
  | .administrator => memberRole = .administrator
  | .unsatisfiable => false
  | .unknown => false
  | .unnamed _ => false

def canAssignInitialRole (requesterRole : MemberRole) (assignedRole : Option MemberRole) : Bool :=
  assignedRole = some .default ∨
    (assignedRole = some .administrator ∧ requesterRole = .administrator)

def meetsRoleAccessRequirement (memberRole : MemberRole) (requirement : AccessRequired) : Bool :=
  isRoleAccessRequirement requirement && meetsAccessRequirement memberRole requirement

def canRolePerformAction (group : DecryptedGroup) (role : MemberRole) (action : GroupAction)
    (context : GroupActionAuthorizationContext) : Bool :=
  if context.requesterIsBanned then false
  else
    match action with
    | .sendMessage =>
      if group.isAnnouncementGroup = .enabled then role = .administrator
      else role = .default ∨ role = .administrator
    | .modifyTitle | .modifyAvatar | .modifyDescription | .modifyDisappearingMessages =>
      meetsRoleAccessRequirement role group.accessControl.attributes
    | .addMember =>
      canAssignInitialRole role context.assignedRole &&
        (meetsRoleAccessRequirement role group.accessControl.members ||
          (context.targetIsRequester && group.accessControl.addFromInviteLink = .any))
    | .removeMember => role = .administrator || context.targetIsRequester
    | .modifyMemberRole => role = .administrator
    | .modifyMemberLabel =>
      context.targetIsRequester || meetsRoleAccessRequirement role group.accessControl.memberLabel
    | .modifyMemberProfileKey => context.targetIsRequester
    | .modifyAttributesAccess | .modifyMembersAccess | .modifyInviteLinkAccess
    | .modifyInviteLinkPassword | .modifyMemberLabelAccess => role = .administrator
    | .modifyAnnouncements => role = .administrator
    | .banMember | .unbanMember => role = .administrator
    | .addMemberPendingProfileKey =>
      canAssignInitialRole role context.assignedRole &&
        meetsRoleAccessRequirement role group.accessControl.members
    | .deleteMemberPendingProfileKey => role = .administrator || context.targetIsRequester
    | .promoteMemberPendingProfileKey | .promoteMemberPendingPniAciProfileKey =>
      context.targetIsRequester
    | .addMemberPendingAdminApproval =>
      context.targetIsRequester && group.accessControl.addFromInviteLink = .administrator
    | .deleteMemberPendingAdminApproval => role = .administrator || context.targetIsRequester
    | .promoteMemberPendingAdminApproval | .terminateGroup => role = .administrator

def canPerformAction (group : DecryptedGroup) (requesterServiceIdBytes : Bytes)
    (action : GroupAction) (context : GroupActionContext) : Bool :=
  let kind := requesterServiceIdBytes.head?
  if requesterServiceIdBytes.length ≠ 17 ∨ (kind ≠ some serviceIdAci ∧ kind ≠ some serviceIdPni)
  then false
  else
    let requesterAciBytes :=
      if kind = some serviceIdAci then some (requesterServiceIdBytes.drop 1) else none
    let role := (requesterAciBytes.map (getMemberRole group)).getD .unknown
    let targetsRequesterAci : Bool :=
      requesterAciBytes.isSome ∧ context.targetAciBytes = requesterAciBytes
    let targetsRequesterServiceId : Bool :=
      context.targetServiceIdBytes = some requesterServiceIdBytes
    canRolePerformAction group role action {
      requesterIsBanned := isBanned group requesterServiceIdBytes
      targetIsRequester := targetsRequesterAci || targetsRequesterServiceId
      assignedRole := context.assignedRole }

def authorize (state : DecryptedGroup) (change : DecryptedGroupChange) (action : GroupAction)
    (context : GroupActionContext) : List String :=
  errorIf (¬ canPerformAction state change.editorServiceIdBytes action context)
    s!"Unauthorized action: {action.name}"

def aliasRoleErrors (state : DecryptedGroup) (promotion : DecryptedPniAciMemberPromotion) :
    List String :=
  match DecryptedGroupChangeForm.pendingRole state serviceIdPni promotion.pniBytes,
    DecryptedGroupChangeForm.pendingRole state serviceIdAci promotion.aciBytes with
  | some pniRole, some aciRole =>
    errorIf (pniRole ≠ aciRole)
      ("Unauthorized action: PROMOTE_MEMBER_PENDING_PNI_ACI_PROFILE_KEY has conflicting " ++
        "pending alias roles")
  | _, _ => []

def authorizeWhen (state : DecryptedGroup) (change : DecryptedGroupChange) (given : Bool)
    (action : GroupAction) : List String :=
  if given then authorize state change action {} else []

def validateChangeAuthorization (state : DecryptedGroup) (change : DecryptedGroupChange) :
    List String :=
  let check := authorize state change
  let checkWhen := authorizeWhen state change
  (change.newMembers.flatMap fun member =>
    check .addMember
      { targetAciBytes := some member.aciBytes, assignedRole := some member.role }) ++
  (change.deleteMembers.flatMap fun aciBytes =>
    check .removeMember { targetAciBytes := some aciBytes }) ++
  (change.modifyMemberRoles.flatMap fun modification =>
    check .modifyMemberRole { targetAciBytes := some modification.aciBytes }) ++
  (change.modifiedProfileKeys.flatMap fun modification =>
    check .modifyMemberProfileKey { targetAciBytes := some modification.aciBytes }) ++
  (change.newPendingMembers.flatMap fun member =>
    check .addMemberPendingProfileKey
      { targetServiceIdBytes := some member.serviceIdBytes, assignedRole := some member.role }) ++
  (change.deletePendingMembers.flatMap fun removal =>
    check .deleteMemberPendingProfileKey
      { targetServiceIdBytes := some removal.serviceIdBytes }) ++
  (change.promotePendingMembers.flatMap fun promotion =>
    check .promoteMemberPendingProfileKey { targetAciBytes := some promotion.aciBytes }) ++
  (change.promotePendingPniAciMembers.flatMap fun promotion =>
    check .promoteMemberPendingPniAciProfileKey
        { targetServiceIdBytes := some (serviceIdPni :: promotion.pniBytes) } ++
      aliasRoleErrors state promotion) ++
  checkWhen change.newTitle.isSome .modifyTitle ++
  checkWhen change.newAvatar.isSome .modifyAvatar ++
  checkWhen change.newTimer.isSome .modifyDisappearingMessages ++
  checkWhen change.newDescription.isSome .modifyDescription ++
  checkWhen change.newAttributeAccess.isSome .modifyAttributesAccess ++
  checkWhen change.newMemberAccess.isSome .modifyMembersAccess ++
  checkWhen change.newInviteLinkAccess.isSome .modifyInviteLinkAccess ++
  checkWhen change.newMemberLabelAccess.isSome .modifyMemberLabelAccess ++
  checkWhen change.newInviteLinkPassword.isSome .modifyInviteLinkPassword ++
  checkWhen change.newIsAnnouncementGroup.isSome .modifyAnnouncements ++
  (change.newRequestingMembers.flatMap fun member =>
    check .addMemberPendingAdminApproval { targetAciBytes := some member.aciBytes }) ++
  (change.deleteRequestingMembers.flatMap fun aciBytes =>
    check .deleteMemberPendingAdminApproval { targetAciBytes := some aciBytes }) ++
  (change.promoteRequestingMembers.flatMap fun promotion =>
    check .promoteMemberPendingAdminApproval { targetAciBytes := some promotion.aciBytes }) ++
  (change.newBannedMembers.flatMap fun member =>
    check .banMember { targetServiceIdBytes := some member.serviceIdBytes }) ++
  (change.deleteBannedMembers.flatMap fun member =>
    check .unbanMember { targetServiceIdBytes := some member.serviceIdBytes }) ++
  (change.modifyMemberLabels.flatMap fun modification =>
    check .modifyMemberLabel { targetAciBytes := some modification.aciBytes }) ++
  checkWhen (change.terminate = some true) .terminateGroup

def applyVerifiedChange (state : DecryptedGroup) (change : DecryptedGroupChange) :
    Except String DecryptedGroup := do
  let authorizationErrors := validateChangeAuthorization state change
  if authorizationErrors ≠ [] then
    throw ("UNAUTHORIZED_CHANGE: " ++ ", ".intercalate authorizationErrors)
  let structuralErrors := validateChangeStructure state change .canonical
  if structuralErrors ≠ [] then
    throw ("INVALID_CHANGE: " ++ ", ".intercalate structuralErrors)
  let nextState ← applyGroupChange state change
  if satisfiesLiveGroupAdministratorInvariant nextState then pure nextState
  else
    throw "INVALID_CHANGE: Every non-terminated group must have at least one administrator"

/-! ## Membership rules of an encrypted state

A server stores a state under the ciphertexts of its principals. -/

section Principals

variable (encryptUuid : Bytes → Bytes)

def memberUserId (member : DecryptedMember) : Bytes :=
  encryptUuid (serviceIdAci :: member.aciBytes)

def pendingUserId (member : DecryptedPendingMember) : Bytes :=
  if member.quarantined then member.serviceIdCipherText else encryptUuid member.serviceIdBytes

def requestingUserId (member : DecryptedRequestingMember) : Bytes :=
  if member.quarantined then member.aciCipherText.getD []
  else encryptUuid (serviceIdAci :: member.aciBytes)

def bannedUserId (member : DecryptedBannedMember) : Bytes :=
  if member.quarantined then member.serviceIdCipherText.getD []
  else encryptUuid member.serviceIdBytes

def labelled {α : Type} (label : String) (userId : α → Bytes) (entries : List α) :
    List (String × Bytes) :=
  entries.zipIdx.map fun entry => (s!"{label}[{entry.2}]", userId entry.1)

def occupants (group : DecryptedGroup) : List (String × Bytes) :=
  labelled "Group.members" (memberUserId encryptUuid) group.members ++
  labelled "Group.membersPendingProfileKey" (pendingUserId encryptUuid) group.pendingMembers ++
  labelled "Group.membersPendingAdminApproval" (requestingUserId encryptUuid)
    group.requestingMembers ++
  labelled "Group.membersBanned" (bannedUserId encryptUuid) group.bannedMembers

def occupyAll : List Bytes → List (String × Bytes) → Except String Unit
  | _, [] => pure ()
  | occupied, (label, key) :: entries =>
    if occupied.contains key then
      throw s!"Principal appears in multiple group-state entries ({label})"
    else occupyAll (key :: occupied) entries

def assertValidEncryptedGroupMembership (group : DecryptedGroup) : Except String Unit := do
  if 1000 < group.members.length then throw "Group exceeds the 1000-member limit"
  if 1000 < group.pendingMembers.length then
    throw "Group exceeds the 1000-pending-member limit"
  if 1000 < group.requestingMembers.length then
    throw "Group exceeds the 1000-requesting-member limit"
  if 1000 < group.bannedMembers.length then throw "Group exceeds the 1000-banned-member limit"
  occupyAll [] (occupants encryptUuid group)
  if satisfiesLiveGroupAdministratorInvariant group then pure ()
  else throw "Every non-terminated group must have at least one administrator"

end Principals

end SignalProtocol.Groups

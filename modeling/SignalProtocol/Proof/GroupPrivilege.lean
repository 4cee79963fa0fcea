import SignalProtocol.Proof.GroupChanges

/-! # Authorized changes

What the authorization of a change says about its actions when the editor is no administrator. -/

namespace SignalProtocol.Groups

open List

variable {aciBytes : Bytes} {α : Type}

/-- The role that the state gives an editor. -/
def editorRole (state : DecryptedGroup) (editor : Bytes) : MemberRole :=
  if editor.head? = some serviceIdAci then getMemberRole state (editor.drop 1) else .unknown

def targetsEditor (editor : Bytes) (context : GroupActionContext) : Bool :=
  (editor.head? = some serviceIdAci ∧ context.targetAciBytes = some (editor.drop 1)) ∨
    context.targetServiceIdBytes = some editor

def GroupAction.administratorOnly : GroupAction → Bool
  | modifyMemberRole | modifyAttributesAccess | modifyMembersAccess | modifyInviteLinkAccess
  | modifyInviteLinkPassword | modifyMemberLabelAccess | modifyAnnouncements | banMember
  | unbanMember | promoteMemberPendingAdminApproval | terminateGroup => true
  | _ => false

def GroupAction.selfOnly : GroupAction → Bool
  | removeMember | modifyMemberProfileKey | deleteMemberPendingProfileKey
  | promoteMemberPendingProfileKey | promoteMemberPendingPniAciProfileKey
  | addMemberPendingAdminApproval | deleteMemberPendingAdminApproval => true
  | _ => false

section Action

variable {state : DecryptedGroup} {editor : Bytes} {action : GroupAction}
  {context : GroupActionContext}

theorem canPerformAction_eq_true (hallow : canPerformAction state editor action context = true) :
    editor.length = 17 ∧ isBanned state editor = false ∧
      canRolePerformAction state (editorRole state editor) action {
        requesterIsBanned := false
        targetIsRequester := targetsEditor editor context
        assignedRole := context.assignedRole } = true := by
  simp only [canPerformAction] at hallow
  split at hallow
  · cases hallow
  · next hform =>
      have hlen : editor.length = 17 := by
        by_contra hwrong
        exact hform (.inl hwrong)
      have hrole : ((if editor.head? = some serviceIdAci then some (editor.drop 1)
          else none).map (getMemberRole state)).getD .unknown = editorRole state editor := by
        unfold editorRole
        split <;> rfl
      have htarget : targetsEditor editor context =
          (decide ((if editor.head? = some serviceIdAci then some (editor.drop 1)
              else none).isSome ∧
            context.targetAciBytes =
              if editor.head? = some serviceIdAci then some (editor.drop 1) else none) ||
            decide (context.targetServiceIdBytes = some editor)) := by
        unfold targetsEditor
        split <;> simp_all
      simp only [hrole, ← htarget] at hallow
      cases hbanned : isBanned state editor with
      | true => simp [hbanned, canRolePerformAction] at hallow
      | false => exact ⟨hlen, rfl, hbanned ▸ hallow⟩

section

variable (hordinary : editorRole state editor ≠ .administrator)

include hordinary

theorem denied_of_administratorOnly (hadmin : action.administratorOnly = true) :
    canPerformAction state editor action context = false := by
  by_contra hallow
  obtain ⟨-, -, hrole⟩ := canPerformAction_eq_true (Bool.not_eq_false _ ▸ hallow)
  cases action <;> simp_all [canRolePerformAction, GroupAction.administratorOnly]

theorem targetsEditor_of_selfOnly (hself : action.selfOnly = true)
    (hallow : canPerformAction state editor action context = true) :
    targetsEditor editor context = true := by
  obtain ⟨-, -, hrole⟩ := canPerformAction_eq_true hallow
  cases action <;> simp_all [canRolePerformAction, GroupAction.selfOnly]

theorem assignedRole_eq_default
    (hadds : action = .addMember ∨ action = .addMemberPendingProfileKey)
    (hallow : canPerformAction state editor action context = true) :
    context.assignedRole = some .default := by
  obtain ⟨-, -, hrole⟩ := canPerformAction_eq_true hallow
  obtain rfl | rfl := hadds
  all_goals
    simp only [canRolePerformAction, canAssignInitialRole, Bool.false_eq_true, if_false,
      Bool.and_eq_true, decide_eq_true_eq, hordinary, and_false, or_false] at hrole
    exact hrole.1

end

theorem eq_editor_of_aci {assignedRole : Option MemberRole} (htarget : targetsEditor editor
      { targetAciBytes := some aciBytes, assignedRole := assignedRole } = true) :
    serviceIdAci :: aciBytes = editor := by
  have haci : editor.head? = some serviceIdAci ∧ aciBytes = editor.drop 1 := by
    simpa [targetsEditor] using htarget
  obtain ⟨hkind, rfl⟩ := haci
  cases editor with
  | nil => cases hkind
  | cons kind uuid =>
    obtain rfl : kind = serviceIdAci := by simpa using hkind
    rfl

end Action

structure OrdinaryChange (change : DecryptedGroupChange) : Prop where
  newMembers : ∀ member ∈ change.newMembers, member.role = .default
  deleteMembers : ∀ aciBytes ∈ change.deleteMembers,
    serviceIdAci :: aciBytes = change.editorServiceIdBytes
  modifyMemberRoles : change.modifyMemberRoles = []
  modifiedProfileKeys : ∀ modification ∈ change.modifiedProfileKeys,
    serviceIdAci :: modification.aciBytes = change.editorServiceIdBytes
  newPendingMembers : ∀ member ∈ change.newPendingMembers, member.role = .default
  deletePendingMembers : ∀ removal ∈ change.deletePendingMembers,
    removal.serviceIdBytes = change.editorServiceIdBytes
  promotePendingMembers : ∀ promotion ∈ change.promotePendingMembers,
    serviceIdAci :: promotion.aciBytes = change.editorServiceIdBytes
  promotePendingPniAciMembers : ∀ promotion ∈ change.promotePendingPniAciMembers,
    serviceIdPni :: promotion.pniBytes = change.editorServiceIdBytes
  newAttributeAccess : change.newAttributeAccess = none
  newMemberAccess : change.newMemberAccess = none
  newInviteLinkAccess : change.newInviteLinkAccess = none
  newMemberLabelAccess : change.newMemberLabelAccess = none
  newInviteLinkPassword : change.newInviteLinkPassword = none
  newIsAnnouncementGroup : change.newIsAnnouncementGroup = none
  deleteRequestingMembers : ∀ aciBytes ∈ change.deleteRequestingMembers,
    serviceIdAci :: aciBytes = change.editorServiceIdBytes
  promoteRequestingMembers : change.promoteRequestingMembers = []
  newBannedMembers : change.newBannedMembers = []
  deleteBannedMembers : change.deleteBannedMembers = []
  terminate : change.terminate ≠ some true

section Change

variable {state : DecryptedGroup} {change : DecryptedGroupChange} {action : GroupAction}

theorem authorize_eq_nil_iff {context : GroupActionContext} :
    authorize state change action context = [] ↔
      canPerformAction state change.editorServiceIdBytes action context = true := by
  simp [authorize]

theorem authorizeWhen_eq_nil_iff {given : Bool} :
    authorizeWhen state change given action = [] ↔
      (given = true → canPerformAction state change.editorServiceIdBytes action {} = true) := by
  unfold authorizeWhen
  split
  · next hgiven => simp [hgiven, authorize_eq_nil_iff]
  · next hgiven => simp [hgiven]

theorem entries_eq_nil {entries : List α} {context : α → GroupActionContext}
    (hdenied : ∀ context, canPerformAction state change.editorServiceIdBytes action context = false)
    (hallow : ∀ entry ∈ entries,
      canPerformAction state change.editorServiceIdBytes action (context entry) = true) :
    entries = [] := by
  refine eq_nil_iff_forall_not_mem.mpr fun entry hentry => ?_
  have hallow := hallow entry hentry
  rw [hdenied] at hallow
  cases hallow

theorem value_eq_none {value : Option α}
    (hdenied : ∀ context, canPerformAction state change.editorServiceIdBytes action context = false)
    (hallow : value.isSome = true →
      canPerformAction state change.editorServiceIdBytes action {} = true) : value = none := by
  by_contra hgiven
  have hallow := hallow (Option.isSome_iff_ne_none.mpr hgiven)
  rw [hdenied] at hallow
  cases hallow

section

variable (hordinary : editorRole state change.editorServiceIdBytes ≠ .administrator)

include hordinary

theorem aci_of_selfOnly (hself : action.selfOnly = true)
    (hallow : canPerformAction state change.editorServiceIdBytes action
      { targetAciBytes := some aciBytes } = true) :
    serviceIdAci :: aciBytes = change.editorServiceIdBytes :=
  eq_editor_of_aci (targetsEditor_of_selfOnly hordinary hself hallow)

theorem serviceId_of_selfOnly {serviceIdBytes : Bytes} (hself : action.selfOnly = true)
    (hallow : canPerformAction state change.editorServiceIdBytes action
      { targetServiceIdBytes := some serviceIdBytes } = true) :
    serviceIdBytes = change.editorServiceIdBytes := by
  have htarget := targetsEditor_of_selfOnly hordinary hself hallow
  simpa [targetsEditor] using htarget

theorem ordinaryChange_of_authorized
    (hauth : validateChangeAuthorization state change = []) : OrdinaryChange change := by
  unfold validateChangeAuthorization at hauth
  dsimp only at hauth
  -- One conjunct for each kind of action, before the conjuncts are read.
  simp only [append_eq_nil_iff] at hauth
  simp only [and_assoc] at hauth
  simp only [flatMap_eq_nil_iff, append_eq_nil_iff, authorize_eq_nil_iff,
    authorizeWhen_eq_nil_iff] at hauth
  have hdenied : ∀ {action : GroupAction}, action.administratorOnly = true → ∀ context,
      canPerformAction state change.editorServiceIdBytes action context = false :=
    fun hadmin _ => denied_of_administratorOnly hordinary hadmin
  obtain ⟨hnew, hdelete, hroles, hkeys, hnewPending, hdeletePending, hpromote, hpniAci, -, -, -, -,
    hattributes, hmembers, hlink, hlabel, hpassword, hannounce, -, hdeleteRequesting,
    happrove, hban, hunban, -, hterminate⟩ := hauth
  exact {
    newMembers := fun member hmember => by
      simpa using assignedRole_eq_default hordinary (.inl rfl) (hnew member hmember)
    deleteMembers := fun aciBytes hmem => aci_of_selfOnly hordinary rfl (hdelete aciBytes hmem)
    modifyMemberRoles := entries_eq_nil (hdenied rfl) hroles
    modifiedProfileKeys := fun modification hmem =>
      aci_of_selfOnly hordinary rfl (hkeys modification hmem)
    newPendingMembers := fun member hmember => by
      simpa using assignedRole_eq_default hordinary (.inr rfl) (hnewPending member hmember)
    deletePendingMembers := fun removal hmem =>
      serviceId_of_selfOnly hordinary rfl (hdeletePending removal hmem)
    promotePendingMembers := fun promotion hmem =>
      aci_of_selfOnly hordinary rfl (hpromote promotion hmem)
    promotePendingPniAciMembers := fun promotion hmem =>
      serviceId_of_selfOnly hordinary rfl (hpniAci promotion hmem).1
    newAttributeAccess := value_eq_none (hdenied rfl) hattributes
    newMemberAccess := value_eq_none (hdenied rfl) hmembers
    newInviteLinkAccess := value_eq_none (hdenied rfl) hlink
    newMemberLabelAccess := value_eq_none (hdenied rfl) hlabel
    newInviteLinkPassword := value_eq_none (hdenied rfl) hpassword
    newIsAnnouncementGroup := value_eq_none (hdenied rfl) hannounce
    deleteRequestingMembers := fun aciBytes hmem =>
      aci_of_selfOnly hordinary rfl (hdeleteRequesting aciBytes hmem)
    promoteRequestingMembers := entries_eq_nil (hdenied rfl) happrove
    newBannedMembers := entries_eq_nil (hdenied rfl) hban
    deleteBannedMembers := entries_eq_nil (hdenied rfl) hunban
    terminate := fun hgiven => by
      have hallow := hterminate (by simpa using hgiven)
      rw [hdenied rfl] at hallow
      cases hallow }

end

theorem allowed_of_authorized (hauth : validateChangeAuthorization state change = [])
    (hactions : hasArrayAction change ∨ hasScalarAction change)
    (hterminate : change.terminate ≠ some false) :
    ∃ action context, canPerformAction state change.editorServiceIdBytes action context = true := by
  by_contra hnone
  have hdenied : ∀ {action : GroupAction} context,
      canPerformAction state change.editorServiceIdBytes action context = false := by
    intro action context
    by_contra hallow
    exact hnone ⟨action, context, by simpa using hallow⟩
  unfold validateChangeAuthorization at hauth
  dsimp only at hauth
  simp only [append_eq_nil_iff] at hauth
  simp only [and_assoc] at hauth
  simp only [flatMap_eq_nil_iff, append_eq_nil_iff, authorize_eq_nil_iff,
    authorizeWhen_eq_nil_iff] at hauth
  obtain ⟨hnew, hdelete, hroles, hkeys, hnewPending, hdeletePending, hpromote, hpniAci, htitle,
    havatar, htimer, hdescription, hattributes, hmembers, hlink, hlabel, hpassword, hannounce,
    hreq, hdeleteRequesting, happrove, hban, hunban, hlabels, hend⟩ := hauth
  have hnone : change.terminate = none := by
    cases hgiven : change.terminate with
    | none => rfl
    | some value =>
      cases value with
      | true =>
        have hallow := hend (by simpa using hgiven)
        rw [hdenied] at hallow
        cases hallow
      | false => exact absurd hgiven hterminate
  obtain harray | hscalar := hactions
  · simp [hasArrayAction, entries_eq_nil hdenied hnew, entries_eq_nil hdenied hdelete,
      entries_eq_nil hdenied hroles, entries_eq_nil hdenied hkeys,
      entries_eq_nil hdenied hnewPending, entries_eq_nil hdenied hdeletePending,
      entries_eq_nil hdenied hpromote,
      entries_eq_nil hdenied fun promotion hmem => (hpniAci promotion hmem).1,
      entries_eq_nil hdenied hreq, entries_eq_nil hdenied hdeleteRequesting,
      entries_eq_nil hdenied happrove, entries_eq_nil hdenied hban,
      entries_eq_nil hdenied hunban, entries_eq_nil hdenied hlabels] at harray
  · simp [hasScalarAction, value_eq_none hdenied htitle, value_eq_none hdenied havatar,
      value_eq_none hdenied htimer, value_eq_none hdenied hdescription,
      value_eq_none hdenied hattributes, value_eq_none hdenied hmembers,
      value_eq_none hdenied hlink, value_eq_none hdenied hlabel,
      value_eq_none hdenied hpassword, value_eq_none hdenied hannounce, hnone] at hscalar

end Change

/-! ## Changes of ordinary editors

An authorized change of an editor who is no administrator leaves the policy of the group and the
entries of the others as they are. -/

open Results

variable {α : Type}

def memberKey (member : DecryptedMember) : Bytes × MemberRole × Bytes :=
  (member.aciBytes, member.role, member.profileKey)

def isOther (editor : Bytes) (key : Bytes × MemberRole × Bytes) : Bool :=
  serviceIdAci :: key.1 ≠ editor

def otherMembers (editor : Bytes) (members : List DecryptedMember) :
    List (Bytes × MemberRole × Bytes) :=
  (members.map memberKey).filter (isOther editor)

/-- An invitation of the editor, or of the account that the editor's own promotion of a
phone-number identity names. -/
def isOwnInvitation (change : DecryptedGroupChange) (member : DecryptedPendingMember) : Bool :=
  member.serviceIdBytes = change.editorServiceIdBytes ∨
    change.promotePendingPniAciMembers.any fun promotion =>
      serviceIdPni :: promotion.pniBytes = change.editorServiceIdBytes ∧
        member.serviceIdBytes = serviceIdAci :: promotion.aciBytes

def isOwnRequest (change : DecryptedGroupChange) (member : DecryptedRequestingMember) : Bool :=
  serviceIdAci :: member.aciBytes = change.editorServiceIdBytes

def AdministratorSource (state : DecryptedGroup) (change : DecryptedGroupChange)
    (aciBytes : Bytes) : Prop :=
  (∃ member ∈ state.members, member.aciBytes = aciBytes ∧ member.role = .administrator) ∨
    ∃ invitation ∈ state.pendingMembers,
      invitation.serviceIdBytes = change.editorServiceIdBytes ∧
      invitation.role = .administrator ∧
      ((∃ promotion ∈ change.promotePendingMembers, promotion.aciBytes = aciBytes) ∨
        ∃ promotion ∈ change.promotePendingPniAciMembers, promotion.aciBytes = aciBytes)

/-- The service IDs of the invitations and of their removals are those of their ciphertexts, where
they have one. -/
structure Opened (openServiceId : Bytes → Bytes) (state : DecryptedGroup)
    (change : DecryptedGroupChange) : Prop where
  pending : ∀ member ∈ state.pendingMembers, member.serviceIdCipherText ≠ [] →
    member.serviceIdBytes = openServiceId member.serviceIdCipherText
  removals : ∀ removal ∈ change.deletePendingMembers, removal.serviceIdCipherText ≠ [] →
    removal.serviceIdBytes = openServiceId removal.serviceIdCipherText

/-- What the changes of an ordinary editor leave of the state. -/
structure NoEscalation (openServiceId : Bytes → Bytes) (state : DecryptedGroup)
    (change : DecryptedGroupChange) (current : DecryptedGroup) : Prop where
  members : (otherMembers change.editorServiceIdBytes state.members).Sublist
    (otherMembers change.editorServiceIdBytes current.members)
  administrators : ∀ member ∈ current.members, member.role = .administrator →
    AdministratorSource state change member.aciBytes
  pending : Opened openServiceId state change →
    (state.pendingMembers.filter fun member => ¬ isOwnInvitation change member).Sublist
      current.pendingMembers
  requesting : (state.requestingMembers.filter fun member => ¬ isOwnRequest change member).Sublist
    current.requestingMembers
  bannedMembers : current.bannedMembers = state.bannedMembers
  accessControl : current.accessControl = state.accessControl
  inviteLinkPassword : current.inviteLinkPassword = state.inviteLinkPassword
  isAnnouncementGroup : current.isAnnouncementGroup = state.isAnnouncementGroup
  terminated : current.terminated = state.terminated

structure EarlyKept (openServiceId : Bytes → Bytes) (state : DecryptedGroup)
    (change : DecryptedGroupChange) (current : DecryptedGroup) : Prop
    extends NoEscalation openServiceId state change current where
  old : ∀ member ∈ current.pendingMembers, member ∈ state.pendingMembers

theorem sublist_filter {kept entries : List α} {keep : α → Bool} (hsublist : kept.Sublist entries)
    (hkeep : ∀ entry ∈ kept, keep entry = true) : kept.Sublist (entries.filter keep) := by
  have hfiltered := hsublist.filter keep
  rwa [filter_eq_self.mpr hkeep] at hfiltered

theorem sublist_eraseP {kept entries : List α} {takes : α → Bool}
    (hsublist : kept.Sublist entries) (hkeep : ∀ entry ∈ kept, takes entry = false) :
    kept.Sublist (entries.eraseP takes) := by
  have herased := hsublist.eraseP (p := takes)
  rwa [eraseP_of_forall_not fun entry hentry => by simp [hkeep entry hentry]] at herased

theorem filter_of_modifyFirst {β : Type} {hasProperty : α → Bool} {modification : α → α}
    {entries modified : List α} {projection : α → β} {keep : β → Bool}
    (hdropped : ∀ entry, hasProperty entry = true →
      keep (projection entry) = false ∧ keep (projection (modification entry)) = false)
    (hmod : modifyFirst hasProperty modification entries = some modified) :
    (modified.map projection).filter keep = (entries.map projection).filter keep := by
  induction entries generalizing modified with
  | nil => cases hmod
  | cons first entries ih =>
    unfold modifyFirst at hmod
    split at hmod
    · next hfound =>
        cases hmod
        obtain ⟨hbefore, hafter⟩ := hdropped first hfound
        simp [hbefore, hafter]
    · obtain ⟨rest, hrest, rfl⟩ := Option.map_eq_some_iff.mp hmod
      simp only [map_cons, filter_cons, ih hrest]

theorem otherMembers_append (editor : Bytes) (members added : List DecryptedMember) :
    otherMembers editor (members ++ added) =
      otherMembers editor members ++ otherMembers editor added := by
  simp [otherMembers]

/-! ## Actions -/

section Actions

variable {openServiceId : Bytes → Bytes} {state current next : DecryptedGroup}
  {change : DecryptedGroupChange} {revision : ℤ}

theorem EarlyKept.refl (openServiceId : Bytes → Bytes) (state : DecryptedGroup)
    (change : DecryptedGroupChange) : EarlyKept openServiceId state change state where
  members := List.Sublist.refl _
  administrators := fun member hmemb hrole => .inl ⟨member, hmemb, rfl, hrole⟩
  pending := fun _ => filter_sublist
  requesting := filter_sublist
  bannedMembers := rfl
  accessControl := rfl
  inviteLinkPassword := rfl
  isAnnouncementGroup := rfl
  terminated := rfl
  old := fun _ hmemb => hmemb

/-- An invitation that stays is not the editor's. -/
theorem other_of_mem_filter {member : DecryptedPendingMember}
    (hmemb : member ∈ state.pendingMembers.filter fun member => ¬ isOwnInvitation change member) :
    member ∈ state.pendingMembers ∧
      member.serviceIdBytes ≠ change.editorServiceIdBytes ∧
      ∀ promotion ∈ change.promotePendingPniAciMembers,
        serviceIdPni :: promotion.pniBytes = change.editorServiceIdBytes →
          member.serviceIdBytes ≠ serviceIdAci :: promotion.aciBytes := by
  obtain ⟨hold, hother⟩ := mem_filter.mp hmemb
  refine ⟨hold, fun hown => ?_, fun promotion hpromotion heditor halias => ?_⟩
  · simp [isOwnInvitation, hown] at hother
  · have hown : isOwnInvitation change member = true := by
      unfold isOwnInvitation
      rw [decide_eq_true_eq]
      exact .inr (any_eq_true.mpr ⟨promotion, hpromotion, by simp [heditor, halias]⟩)
    simp [hown] at hother

section

variable (hchange : OrdinaryChange change)

include hchange

theorem deletePendingMember_kept {removal : DecryptedPendingMemberRemoval}
    (hmem : removal ∈ change.deletePendingMembers)
    (hkept : EarlyKept openServiceId state change current)
    (hok : deletePendingMember current removal = .ok next) :
    EarlyKept openServiceId state change next := by
  obtain ⟨-, rfl⟩ := deletePendingMember_eq_ok hok
  have heditor := hchange.deletePendingMembers removal hmem
  refine
    { hkept with
      pending := fun hopened => sublist_filter (hkept.pending hopened) fun member hmemb => ?_
      old := fun member hmemb => hkept.old member (mem_filter.mp hmemb).1 }
  obtain ⟨hold, hother, -⟩ := other_of_mem_filter hmemb
  have hspared : ¬ pendingTargetMatches member removal = true := by
    intro hmatches
    simp only [pendingTargetMatches, decide_eq_true_eq] at hmatches
    obtain ⟨hcipher, hsame⟩ | ⟨-, hsame⟩ := hmatches
    · have hmemberId := hopened.pending member hold (by rwa [hsame])
      have hremovalId := hopened.removals removal hmem hcipher
      rw [hsame, ← hremovalId] at hmemberId
      exact hother (hmemberId.trans heditor)
    · exact hother (hsame.trans heditor)
  simpa using hspared

theorem deleteRequestingMember_kept {target : Bytes}
    (hlen : change.editorServiceIdBytes.length = 17)
    (hmem : target ∈ change.deleteRequestingMembers)
    (hkept : EarlyKept openServiceId state change current)
    (hok : deleteRequestingMember current target = .ok next) :
    EarlyKept openServiceId state change next := by
  obtain ⟨-, rfl⟩ := deleteRequestingMember_eq_ok hok
  have heditor := hchange.deleteRequestingMembers target hmem
  have hplain : target.length ≠ 65 := by
    have hsize := congrArg List.length heditor
    simp only [length_cons] at hsize
    omega
  refine
    { hkept with
      requesting := sublist_filter hkept.requesting fun member hmemb => ?_ }
  have hother : ¬ serviceIdAci :: member.aciBytes = change.editorServiceIdBytes := by
    simpa [isOwnRequest] using (mem_filter.mp hmemb).2
  have hspared : ¬ requestingTargetMatches member target = true := by
    intro hmatches
    simp only [requestingTargetMatches, hplain, if_false, decide_eq_true_eq] at hmatches
    exact hother (hmatches.2 ▸ heditor)
  simpa using hspared

theorem deleteMember_kept {aciBytes : Bytes} (hmem : aciBytes ∈ change.deleteMembers)
    (hkept : EarlyKept openServiceId state change current)
    (hok : deleteMember current aciBytes = .ok next) :
    EarlyKept openServiceId state change next := by
  obtain ⟨-, rfl⟩ := deleteMember_eq_ok hok
  have heditor := hchange.deleteMembers aciBytes hmem
  have hsame : otherMembers change.editorServiceIdBytes
      (current.members.filter fun member => member.aciBytes ≠ aciBytes) =
      otherMembers change.editorServiceIdBytes current.members := by
    unfold otherMembers
    rw [filter_map, filter_map, filter_filter]
    refine congrArg (List.map memberKey) (filter_congr fun member _ => ?_)
    by_cases hown : member.aciBytes = aciBytes
    · simp [isOther, memberKey, hown, heditor]
    · simp [hown]
  exact
    { hkept with
      members := by
        rw [hsame]
        exact hkept.members
      administrators := fun member hmemb =>
        hkept.administrators member (mem_filter.mp hmemb).1 }

theorem applyDeletions_kept (hlen : change.editorServiceIdBytes.length = 17)
    (hkept : EarlyKept openServiceId state change current)
    (hok : applyDeletions current change = .ok next) :
    EarlyKept openServiceId state change next := by
  simp only [applyDeletions, hchange.deleteBannedMembers, bind_eq_ok_iff] at hok
  obtain ⟨uninvited, huninvited, unrequested, hunrequested, unbanned, hunbanned, hmembers⟩ := hok
  cases hunbanned
  have huninvitedKept : EarlyKept openServiceId state change uninvited :=
    foldlM_keeps _ (fun _ _ _ hmem hval => deletePendingMember_kept hchange hmem hval) hkept
      huninvited
  have hunrequestedKept : EarlyKept openServiceId state change unrequested :=
    foldlM_keeps _
      (fun _ _ _ hmem hval => deleteRequestingMember_kept hchange hlen hmem hval)
      huninvitedKept hunrequested
  exact foldlM_keeps _ (fun _ _ _ hmem hval => deleteMember_kept hchange hmem hval)
    hunrequestedKept hmembers

end

theorem NoEscalation.append {added : DecryptedMember}
    (hkept : NoEscalation openServiceId state change current)
    (hadded : added.role = .administrator → AdministratorSource state change added.aciBytes) :
    NoEscalation openServiceId state change
      { current with members := current.members ++ [added] } :=
  { hkept with
    members := by
      rw [otherMembers_append]
      exact hkept.members.trans (List.sublist_append_left _ _)
    administrators := by
      intro member hmemb hrole
      obtain hold | hnew := mem_append.mp hmemb
      · exact hkept.administrators member hold hrole
      · obtain rfl := mem_singleton.mp hnew
        exact hadded hrole }

theorem EarlyKept.promote {serviceIdBytes : Bytes} {pending : DecryptedPendingMember}
    (hkept : EarlyKept openServiceId state change current) (added : DecryptedMember)
    (hfound : current.pendingMembers.find? (hasServiceId serviceIdBytes) = some pending)
    (heditor : serviceIdBytes = change.editorServiceIdBytes)
    (hsource : pending ∈ state.pendingMembers →
      pending.serviceIdBytes = change.editorServiceIdBytes →
      added.role = .administrator → AdministratorSource state change added.aciBytes) :
    EarlyKept openServiceId state change { current with
      pendingMembers := current.pendingMembers.eraseP (hasServiceId serviceIdBytes)
      members := current.members ++ [added] } := by
  have hpend : pending.serviceIdBytes = serviceIdBytes := by
    simpa [hasServiceId] using find?_some hfound
  have happended := hkept.toNoEscalation.append (hsource
    (hkept.old pending (mem_of_find?_eq_some hfound)) (hpend.trans heditor))
  refine
    { happended with
      pending := fun hopened => sublist_eraseP (hkept.pending hopened) fun member hmemb => ?_
      old := fun member hmemb => hkept.old member (mem_of_mem_eraseP hmemb) }
  obtain ⟨-, hother, -⟩ := other_of_mem_filter hmemb
  simpa [hasServiceId, heditor] using hother

section

variable (hchange : OrdinaryChange change)

include hchange

theorem promotePendingMember_kept {promotion : DecryptedPendingMemberPromotion}
    (hmem : promotion ∈ change.promotePendingMembers)
    (hkept : EarlyKept openServiceId state change current)
    (hok : promotePendingMember revision current promotion = .ok next) :
    EarlyKept openServiceId state change next := by
  obtain ⟨-, -, pending, hfound, rfl⟩ := promotePendingMember_eq_ok hok
  exact hkept.promote _ hfound (hchange.promotePendingMembers promotion hmem)
    fun hold hpend hrole => .inr ⟨pending, hold, hpend, hrole, .inl ⟨promotion, hmem, rfl⟩⟩

theorem promotePendingPniAciMember_kept {promotion : DecryptedPniAciMemberPromotion}
    (hmem : promotion ∈ change.promotePendingPniAciMembers)
    (hkept : EarlyKept openServiceId state change current)
    (hok : promotePendingPniAciMember revision current promotion = .ok next) :
    EarlyKept openServiceId state change next := by
  obtain ⟨-, -, -, pending, hfound, rfl⟩ := promotePendingPniAciMember_eq_ok hok
  have heditor := hchange.promotePendingPniAciMembers promotion hmem
  have hpromoted := hkept.promote
    (memberFromPromotion promotion.toDecryptedPendingMemberPromotion pending.role revision)
    hfound heditor fun hold hpend hrole =>
      .inr ⟨pending, hold, hpend, hrole, .inr ⟨promotion, hmem, rfl⟩⟩
  refine
    { hpromoted with
      pending := fun hopened => sublist_filter (hpromoted.pending hopened) fun member hmemb => ?_
      old := fun member hmemb => hpromoted.old member (mem_filter.mp hmemb).1 }
  obtain ⟨-, -, halias⟩ := other_of_mem_filter hmemb
  simpa [hasServiceId] using halias promotion hmem heditor

theorem applyPromotions_kept (hkept : EarlyKept openServiceId state change current)
    (hok : applyPromotions current change = .ok next) :
    EarlyKept openServiceId state change next := by
  simp only [applyPromotions, hchange.promoteRequestingMembers, bind_eq_ok_iff] at hok
  obtain ⟨promoted, hpromoted, linked, hlinked, happroved⟩ := hok
  cases happroved
  have hpromotedKept : EarlyKept openServiceId state change promoted :=
    foldlM_keeps _ (fun _ _ _ hmem hval => promotePendingMember_kept hchange hmem hval) hkept
      hpromoted
  exact foldlM_keeps _ (fun _ _ _ hmem hval => promotePendingPniAciMember_kept hchange hmem hval)
    hpromotedKept hlinked

theorem addMember_kept {added : DecryptedAddMember}
    (hmem : added ∈ change.newMembers) (hkept : NoEscalation openServiceId state change current)
    (hok : addMember current added = .ok next) : NoEscalation openServiceId state change next := by
  obtain ⟨-, rfl⟩ := addMember_eq_ok hok
  refine hkept.append fun hrole => ?_
  have hdefault : added.role = .administrator := hrole
  rw [hchange.newMembers added hmem] at hdefault
  cases hdefault

end

theorem addPendingMember_kept {pending : DecryptedAddPendingMember}
    (hkept : NoEscalation openServiceId state change current)
    (hok : addPendingMember current pending = .ok next) :
    NoEscalation openServiceId state change next := by
  obtain ⟨-, rfl⟩ := addPendingMember_eq_ok hok
  exact
    { hkept with
      pending := fun hopened => (hkept.pending hopened).trans (List.sublist_append_left _ _) }

theorem addRequestingMember_kept {requesting : DecryptedAddRequestingMember}
    (hkept : NoEscalation openServiceId state change current)
    (hok : addRequestingMember current requesting = .ok next) :
    NoEscalation openServiceId state change next := by
  obtain ⟨-, rfl⟩ := addRequestingMember_eq_ok hok
  exact { hkept with requesting := hkept.requesting.trans (List.sublist_append_left _ _) }

theorem applyAdditions_kept (hchange : OrdinaryChange change)
    (hkept : NoEscalation openServiceId state change current)
    (hok : applyAdditions current change = .ok next) :
    NoEscalation openServiceId state change next := by
  simp only [applyAdditions, bind_eq_ok_iff] at hok
  obtain ⟨joined, hjoined, invited, hinvited, hrequested⟩ := hok
  have hjoinedKept : NoEscalation openServiceId state change joined :=
    foldlM_keeps _ (fun _ _ _ hmem hval => addMember_kept hchange hmem hval) hkept hjoined
  have hinvitedKept : NoEscalation openServiceId state change invited :=
    foldlM_keeps _ (fun _ _ _ _ hval => addPendingMember_kept hval) hjoinedKept hinvited
  exact foldlM_keeps _ (fun _ _ _ _ hval => addRequestingMember_kept hval) hinvitedKept
    hrequested

theorem NoEscalation.withMembers {members : List DecryptedMember}
    (hkept : NoEscalation openServiceId state change current)
    (hothers : otherMembers change.editorServiceIdBytes members =
      otherMembers change.editorServiceIdBytes current.members)
    (hroles : ∀ member ∈ members, ∃ old ∈ current.members,
      old.aciBytes = member.aciBytes ∧ old.role = member.role) :
    NoEscalation openServiceId state change { current with members } :=
  { hkept with
    members := by
      rw [hothers]
      exact hkept.members
    administrators := by
      intro member hmemb hrole
      obtain ⟨old, hold, haci, holdRole⟩ := hroles member hmemb
      rw [← haci]
      exact hkept.administrators old hold (holdRole.trans hrole) }

theorem old_of_modifyFirst {hasProperty : DecryptedMember → Bool}
    {modification : DecryptedMember → DecryptedMember} {entries modified : List DecryptedMember}
    (hmod : modifyFirst hasProperty modification entries = some modified)
    (hkeeps : ∀ member, (modification member).aciBytes = member.aciBytes ∧
      (modification member).role = member.role) :
    ∀ member ∈ modified, ∃ old ∈ entries,
      old.aciBytes = member.aciBytes ∧ old.role = member.role := by
  intro member hmemb
  obtain hold | ⟨old, hold, rfl⟩ := mem_of_modifyFirst hmod hmemb
  · exact ⟨member, hold, rfl, rfl⟩
  · exact ⟨old, hold, (hkeeps old).1.symm, (hkeeps old).2.symm⟩

theorem modifyMemberLabel_kept {modification : DecryptedModifyMemberLabel}
    (hkept : NoEscalation openServiceId state change current)
    (hok : modifyMemberLabel current modification = .ok next) :
    NoEscalation openServiceId state change next := by
  obtain ⟨members, hmembers, rfl⟩ := modifyMember_eq_ok hok
  refine hkept.withMembers ?_ (old_of_modifyFirst hmembers fun _ => ⟨rfl, rfl⟩)
  refine congrArg (List.filter _) (map_of_modifyFirst memberKey ?_ hmembers)
  intro member
  rfl

theorem modifyProfileKey_kept {modification : DecryptedProfileKeyUpdate}
    (hchange : OrdinaryChange change) (hmem : modification ∈ change.modifiedProfileKeys)
    (hkept : NoEscalation openServiceId state change current)
    (hok : modifyProfileKey current modification = .ok next) :
    NoEscalation openServiceId state change next := by
  obtain ⟨members, hmembers, rfl⟩ := modifyMember_eq_ok hok
  refine hkept.withMembers ?_ (old_of_modifyFirst hmembers fun _ => ⟨rfl, rfl⟩)
  refine filter_of_modifyFirst (fun member hown => ?_) hmembers
  have haci : member.aciBytes = modification.aciBytes := by simpa using hown
  have heditor := hchange.modifiedProfileKeys modification hmem
  simp [isOther, memberKey, haci, heditor]

theorem applyMemberModifications_kept (hchange : OrdinaryChange change)
    (hkept : NoEscalation openServiceId state change current)
    (hok : applyMemberModifications current change = .ok next) :
    NoEscalation openServiceId state change next := by
  simp only [applyMemberModifications, hchange.modifyMemberRoles, bind_eq_ok_iff] at hok
  obtain ⟨ranked, hranked, labelled, hlabelled, hkeyed⟩ := hok
  cases hranked
  have hlabelledKept : NoEscalation openServiceId state change labelled :=
    foldlM_keeps _ (fun _ _ _ _ hval => modifyMemberLabel_kept hval) hkept hlabelled
  exact foldlM_keeps _ (fun _ _ _ hmem hval => modifyProfileKey_kept hchange hmem hval)
    hlabelledKept hkeyed

end Actions

section Changes

variable {state : DecryptedGroup} {change : DecryptedGroupChange}

theorem applyAttributes_kept {openServiceId : Bytes → Bytes} {current : DecryptedGroup}
    (hchange : OrdinaryChange change) (hkept : NoEscalation openServiceId state change current) :
    NoEscalation openServiceId state change (applyAttributesAndAccessControl current change) := by
  have haccess : (applyAttributesAndAccessControl current change).accessControl =
      current.accessControl := by
    simp only [applyAttributesAndAccessControl, hchange.newAttributeAccess,
      hchange.newMemberAccess, hchange.newInviteLinkAccess, hchange.newMemberLabelAccess,
      accessAfter]
  have hpassword : (applyAttributesAndAccessControl current change).inviteLinkPassword =
      current.inviteLinkPassword := by
    simp only [applyAttributesAndAccessControl, hchange.newInviteLinkPassword, Option.getD_none]
  have hannounce : (applyAttributesAndAccessControl current change).isAnnouncementGroup =
      current.isAnnouncementGroup := by
    simp only [applyAttributesAndAccessControl, hchange.newIsAnnouncementGroup]
  exact
    { hkept with
      accessControl := haccess.trans hkept.accessControl
      inviteLinkPassword := hpassword.trans hkept.inviteLinkPassword
      isAnnouncementGroup := hannounce.trans hkept.isAnnouncementGroup }

theorem applyGroupChange_kept (openServiceId : Bytes → Bytes) {next : DecryptedGroup}
    (hchange : OrdinaryChange change) (hlen : change.editorServiceIdBytes.length = 17)
    (hterm : state.terminated = false) (hrev : change.revision = state.revision + 1)
    (hok : applyGroupChange state change = .ok next) :
    NoEscalation openServiceId state change next := by
  rw [applyGroupChange_eq hterm hrev, map_eq_pure_bind, bind_eq_ok_iff] at hok
  obtain ⟨ended, hactions, hnext⟩ := hok
  simp only [applyActions, bind_eq_ok_iff] at hactions
  obtain ⟨deleted, hdeleted, banned, hbanned, promoted, hpromoted, added, hadded, modified,
    hmod, hended⟩ := hactions
  have hstart := EarlyKept.refl openServiceId state change
  have hdeletedKept := applyDeletions_kept hchange hlen hstart hdeleted
  have hbannedKept : EarlyKept openServiceId state change banned := by
    rw [applyBans, hchange.newBannedMembers] at hbanned
    cases hbanned
    exact hdeletedKept
  have hpromotedKept := applyPromotions_kept hchange hbannedKept hpromoted
  have haddedKept := applyAdditions_kept hchange hpromotedKept.toNoEscalation hadded
  have hmodifiedKept := applyMemberModifications_kept hchange haddedKept hmod
  have hendedKept : NoEscalation openServiceId state change ended := by
    unfold applyTermination at hended
    split at hended
    · cases hended
      exact hmodifiedKept
    · next hterminate => exact absurd hterminate hchange.terminate
    · cases hended
  cases hnext
  exact { applyAttributes_kept hchange hendedKept with }

theorem terminate_ne_false {next : DecryptedGroup} (hterm : state.terminated = false)
    (hrev : change.revision = state.revision + 1)
    (hok : applyGroupChange state change = .ok next) : change.terminate ≠ some false := by
  intro hterminate
  rw [applyGroupChange_eq hterm hrev, map_eq_pure_bind, bind_eq_ok_iff] at hok
  obtain ⟨ended, hactions, -⟩ := hok
  simp only [applyActions, bind_eq_ok_iff] at hactions
  obtain ⟨-, -, -, -, -, -, -, -, modified, -, hended⟩ := hactions
  rw [applyTermination, hterminate] at hended
  cases hended

/-- No authorized and valid change of an editor who is no administrator touches the policy, the
ban list or the entries of the others, and an editor on the ban list has no such change. -/
theorem no_privilege_escalation (openServiceId : Bytes → Bytes) (state : DecryptedGroup)
    (change : DecryptedGroupChange) (form : DecryptedGroupChangeForm)
    (hauthorized : validateChangeAuthorization state change = [])
    (hvalid : validateChangeStructure state change form = []) :
    isBanned state change.editorServiceIdBytes = false ∧
      (editorRole state change.editorServiceIdBytes ≠ .administrator →
        ∃ next, applyGroupChange state change = .ok next ∧
          NoEscalation openServiceId state change next) := by
  simp only [validateChangeStructure, append_eq_nil_iff] at hvalid
  obtain ⟨hterminated, hrevision, hactions, next, hok⟩ := applied_of_structuralErrors hvalid.2
  obtain ⟨action, context, hallowed⟩ := allowed_of_authorized hauthorized hactions
    (terminate_ne_false hterminated hrevision hok)
  obtain ⟨hlength, hfree, -⟩ := canPerformAction_eq_true hallowed
  refine ⟨hfree, fun hordinary => ⟨next, hok, ?_⟩⟩
  exact applyGroupChange_kept openServiceId (ordinaryChange_of_authorized hordinary hauthorized)
    hlength hterminated hrevision hok

end Changes

/-- The invited member joins. -/
def exampleJoin : DecryptedGroupChange where
  editorServiceIdBytes := serviceIdAci :: List.replicate 16 3
  revision := 8
  promotePendingMembers :=
    [{ aciBytes := List.replicate 16 3
       profileKey := []
       role := some .default
       joinedAtRevision := some 8 }]

/-- The one ciphertext of the group is that of the invitation. -/
def exampleOpen (_ : Bytes) : Bytes := serviceIdAci :: List.replicate 16 3

theorem exampleJoin_keeps :
    Opened exampleOpen exampleGroup exampleJoin ∧
      ∃ next, applyGroupChange exampleGroup exampleJoin = .ok next ∧
        NoEscalation exampleOpen exampleGroup exampleJoin next :=
  ⟨⟨by decide, by decide⟩,
    (no_privilege_escalation exampleOpen exampleGroup exampleJoin .canonical (by decide)
      (by decide)).2 (by decide)⟩

end SignalProtocol.Groups

import SignalProtocol.Library.Results
import SignalProtocol.Groups.AccessControl

/-! # Inversion of the actions

What an action found in the state, and what it made of it, when it did not throw. -/

namespace SignalProtocol.Groups

open Results List

variable {state next : DecryptedGroup} {revision : ℤ} {aciBytes : Bytes}

theorem deletePendingMember_eq_ok {removal : DecryptedPendingMemberRemoval}
    (hok : deletePendingMember state removal = .ok next) :
    (∃ member ∈ state.pendingMembers, pendingTargetMatches member removal) ∧
      next = { state with
        pendingMembers :=
          state.pendingMembers.filter fun member => ¬ pendingTargetMatches member removal } := by
  unfold deletePendingMember at hok
  split at hok
  · cases hok
  · next hfound =>
      cases hok
      exact ⟨any_eq_true.mp (by simpa using hfound), rfl⟩

theorem deleteRequestingMember_eq_ok {target : Bytes}
    (hok : deleteRequestingMember state target = .ok next) :
    (∃ member ∈ state.requestingMembers, requestingTargetMatches member target) ∧
      next = { state with
        requestingMembers :=
          state.requestingMembers.filter fun member =>
            ¬ requestingTargetMatches member target } := by
  unfold deleteRequestingMember at hok
  split at hok
  · cases hok
  · next hfound =>
      cases hok
      exact ⟨any_eq_true.mp (by simpa using hfound), rfl⟩

theorem deleteBannedMember_eq_ok {removal : DecryptedDeleteBannedMember}
    (hok : deleteBannedMember state removal = .ok next) :
    (∃ member ∈ state.bannedMembers, bannedTargetMatches member removal) ∧
      next = { state with
        bannedMembers :=
          state.bannedMembers.filter fun member => ¬ bannedTargetMatches member removal } := by
  unfold deleteBannedMember at hok
  split at hok
  · cases hok
  · next hfound =>
      cases hok
      exact ⟨any_eq_true.mp (by simpa using hfound), rfl⟩

theorem deleteMember_eq_ok (hok : deleteMember state aciBytes = .ok next) :
    (∃ member ∈ state.members, member.aciBytes = aciBytes) ∧
      next = { state with
        members := state.members.filter fun member => member.aciBytes ≠ aciBytes } := by
  unfold deleteMember at hok
  split at hok
  · cases hok
  · next hfound =>
      cases hok
      refine ⟨?_, rfl⟩
      simpa using hfound

theorem banMember_eq_ok {banned : DecryptedAddBannedMember}
    (hok : banMember state banned = .ok next) :
    (∀ member ∈ state.bannedMembers,
      ¬ banMatches member banned.serviceIdBytes banned.serviceIdCipherText) ∧
      next = { state with bannedMembers := state.bannedMembers ++ [bannedEntry banned] } := by
  unfold banMember at hok
  split at hok
  · cases hok
  · next habsent =>
      cases hok
      exact ⟨by simpa using habsent, rfl⟩

variable {message : String}

theorem assertMemberDestinationAvailable_bind_eq_ok {rest : Except String DecryptedGroup}
    (hok : (assertMemberDestinationAvailable state aciBytes message >>= fun _ => rest) = .ok next) :
    (∀ member ∈ state.members, member.aciBytes ≠ aciBytes) ∧ rest = .ok next := by
  unfold assertMemberDestinationAvailable at hok
  split at hok
  · cases hok
  · next habsent => exact ⟨by simpa using habsent, hok⟩

theorem promotePendingMember_eq_ok {promotion : DecryptedPendingMemberPromotion}
    (hok : promotePendingMember revision state promotion = .ok next) :
    promotion.aciBytes.length = 16 ∧
      (∀ member ∈ state.members, member.aciBytes ≠ promotion.aciBytes) ∧
      ∃ pending,
        state.pendingMembers.find? (hasServiceId (serviceIdAci :: promotion.aciBytes)) =
          some pending ∧
        next = { state with
          pendingMembers :=
            state.pendingMembers.eraseP (hasServiceId (serviceIdAci :: promotion.aciBytes))
          members := state.members ++ [memberFromPromotion promotion pending.role revision] } := by
  unfold promotePendingMember at hok
  split at hok
  · cases hok
  · next hlen =>
      obtain ⟨habsent, hrest⟩ := assertMemberDestinationAvailable_bind_eq_ok hok
      dsimp only at hrest
      split at hrest
      · cases hrest
      · next pending hfound =>
          cases hrest
          exact ⟨by simpa using hlen, habsent, pending, hfound, rfl⟩

theorem promotePendingPniAciMember_eq_ok {promotion : DecryptedPniAciMemberPromotion}
    (hok : promotePendingPniAciMember revision state promotion = .ok next) :
    promotion.aciBytes.length = 16 ∧ promotion.pniBytes.length = 16 ∧
      (∀ member ∈ state.members, member.aciBytes ≠ promotion.aciBytes) ∧
      ∃ pending,
        state.pendingMembers.find? (hasServiceId (serviceIdPni :: promotion.pniBytes)) =
          some pending ∧
        next = { state with
          pendingMembers :=
            (state.pendingMembers.eraseP
              (hasServiceId (serviceIdPni :: promotion.pniBytes))).filter fun member =>
                ¬ hasServiceId (serviceIdAci :: promotion.aciBytes) member
          members := state.members ++
            [memberFromPromotion promotion.toDecryptedPendingMemberPromotion pending.role
              revision] } := by
  unfold promotePendingPniAciMember at hok
  by_cases hlen : promotion.aciBytes.length = 16
  · by_cases hpniLength : promotion.pniBytes.length = 16
    · simp only [hlen, hpniLength, ne_eq, not_true_eq_false, if_false] at hok
      obtain ⟨habsent, hrest⟩ := assertMemberDestinationAvailable_bind_eq_ok hok
      split at hrest
      · cases hrest
      · next pending hfound =>
          split at hrest
          · cases hrest
          · cases hrest
            exact ⟨hlen, hpniLength, habsent, pending, hfound, rfl⟩
    · simp only [hlen, hpniLength, ne_eq, not_true_eq_false, not_false_eq_true, if_false,
        if_true] at hok
      cases hok
  · simp only [hlen, ne_eq, not_false_eq_true, if_true] at hok
    cases hok

theorem promoteRequestingMember_eq_ok {approval : DecryptedApproveMember}
    (hok : promoteRequestingMember revision state approval = .ok next) :
    (∀ member ∈ state.members, member.aciBytes ≠ approval.aciBytes) ∧
      ∃ requesting,
        state.requestingMembers.find? (hasAci approval.aciBytes) = some requesting ∧
        next = { state with
          requestingMembers := state.requestingMembers.eraseP (hasAci approval.aciBytes)
          members := state.members ++
            [newMember approval.aciBytes requesting.profileKey approval.role revision] } := by
  unfold promoteRequestingMember at hok
  obtain ⟨habsent, hrest⟩ := assertMemberDestinationAvailable_bind_eq_ok hok
  split at hrest
  · cases hrest
  · next requesting hfound =>
      cases hrest
      exact ⟨habsent, requesting, hfound, rfl⟩

theorem addMember_eq_ok {member : DecryptedAddMember} (hok : addMember state member = .ok next) :
    (∀ other ∈ state.members, other.aciBytes ≠ member.aciBytes) ∧
      next = { state with
        members := state.members ++
          [newMember member.aciBytes member.profileKey member.role
            (member.joinedAtRevision.getD 0)] } := by
  unfold addMember at hok
  obtain ⟨habsent, hrest⟩ := assertMemberDestinationAvailable_bind_eq_ok hok
  cases hrest
  exact ⟨habsent, rfl⟩

theorem addPendingMember_eq_ok {pending : DecryptedAddPendingMember}
    (hok : addPendingMember state pending = .ok next) :
    (∀ member ∈ state.pendingMembers, ¬ pendingMatches pending member) ∧
      next = { state with pendingMembers := state.pendingMembers ++ [pendingEntry pending] } := by
  unfold addPendingMember at hok
  split at hok
  · cases hok
  · next habsent =>
      cases hok
      refine ⟨fun member hmember hmatches => habsent ?_, rfl⟩
      exact any_eq_true.mpr ⟨member, hmember, hmatches⟩

theorem addRequestingMember_eq_ok {requesting : DecryptedAddRequestingMember}
    (hok : addRequestingMember state requesting = .ok next) :
    (∀ member ∈ state.requestingMembers, ¬ requestingMatches requesting member) ∧
      next = { state with
        requestingMembers := state.requestingMembers ++ [requestingEntry requesting] } := by
  unfold addRequestingMember at hok
  split at hok
  · cases hok
  · next habsent =>
      cases hok
      refine ⟨fun member hmember hmatches => habsent ?_, rfl⟩
      exact any_eq_true.mpr ⟨member, hmember, hmatches⟩

theorem modifyMember_eq_ok {modification : DecryptedMember → DecryptedMember}
    (hok : modifyMember aciBytes modification message state = .ok next) :
    ∃ members,
      modifyFirst (fun member => member.aciBytes = aciBytes) modification state.members =
        some members ∧
      next = { state with members } := by
  unfold modifyMember at hok
  split at hok
  · next members hmembers =>
      cases hok
      exact ⟨members, hmembers, rfl⟩
  · cases hok

theorem mem_of_modifyFirst {α : Type} {hasProperty : α → Bool} {modification : α → α}
    {entries modified : List α} {entry : α}
    (hmod : modifyFirst hasProperty modification entries = some modified)
    (hentry : entry ∈ modified) : entry ∈ entries ∨ ∃ old ∈ entries, entry = modification old := by
  induction entries generalizing modified with
  | nil => cases hmod
  | cons first entries ih =>
    unfold modifyFirst at hmod
    split at hmod
    · cases hmod
      obtain rfl | hrest := mem_cons.mp hentry
      · exact .inr ⟨first, mem_cons_self, rfl⟩
      · exact .inl (mem_cons_of_mem _ hrest)
    · obtain ⟨rest, hrest, rfl⟩ := Option.map_eq_some_iff.mp hmod
      obtain rfl | hmem := mem_cons.mp hentry
      · exact .inl mem_cons_self
      · obtain hold | ⟨old, hold, rfl⟩ := ih hrest hmem
        · exact .inl (mem_cons_of_mem _ hold)
        · exact .inr ⟨old, mem_cons_of_mem _ hold, rfl⟩

theorem map_of_modifyFirst {α β : Type} {hasProperty : α → Bool} {modification : α → α}
    {entries modified : List α} (projection : α → β)
    (hkeeps : ∀ entry, projection (modification entry) = projection entry)
    (hmod : modifyFirst hasProperty modification entries = some modified) :
    modified.map projection = entries.map projection := by
  induction entries generalizing modified with
  | nil => cases hmod
  | cons first entries ih =>
    unfold modifyFirst at hmod
    split at hmod
    · cases hmod
      simp [hkeeps]
    · obtain ⟨rest, hrest, rfl⟩ := Option.map_eq_some_iff.mp hmod
      simp [ih hrest]

/-! ## Fields of states and changes

The field validators of a state as one predicate, the facts that those of a change give, and what
each action keeps of the former when it has the latter. -/

variable {aciBytes : Bytes} {group : DecryptedGroup} {error label : String} {α : Type}

variable {wrong : Bool} {value : Bytes} {entries : List α} {role : MemberRole} {path : String}
  {errors : String → α → List String} {good : α → Prop}

@[simp] theorem errorIf_eq_nil_iff :
    errorIf wrong error = [] ↔ wrong = false := by
  cases wrong <;> simp [errorIf]

theorem entryErrors_eq_nil_iff (hgood : ∀ path entry, errors path entry = [] ↔ good entry) :
    entryErrors label entries errors = [] ↔ ∀ entry ∈ entries, good entry := by
  simp only [entryErrors, flatMap_eq_nil_iff, hgood]
  constructor
  · intro hentries entry hentry
    obtain ⟨index, hidx⟩ := mem_iff_getElem?.mp hentry
    exact hentries (entry, index) (mk_mem_zipIdx_iff_getElem?.mpr hidx)
  · intro hentries pair hpair
    exact hentries pair.1 (mem_iff_getElem?.mpr ⟨pair.2, mem_zipIdx_iff_getElem?.mp hpair⟩)

@[simp] theorem nilUuidError_eq_nil_iff :
    nilUuidError value label = [] ↔ isNilUuid value = false :=
  errorIf_eq_nil_iff

/-- An absent identity is not the reserved one. -/
@[simp] theorem nilPniError_eq_nil_iff {pniBytes : Bytes} :
    nilPniError pniBytes label = [] ↔ isNilUuid pniBytes = false := by
  cases pniBytes with
  | nil => simp [nilPniError, isNilUuid]
  | cons byte bytes => simp [nilPniError]

def isNilServiceId (value : Bytes) : Bool := value.length = 17 ∧ isNilUuid (value.drop 1)

@[simp] theorem nilServiceIdError_eq_nil_iff :
    nilServiceIdError value label = [] ↔ isNilServiceId value = false :=
  errorIf_eq_nil_iff

@[simp] theorem roleError_eq_nil_iff :
    roleError role path = [] ↔ isStoredMemberRole role = true := by
  simp [roleError]

@[simp] theorem timestampError_eq_nil_iff {timestamp : ℤ} :
    timestampError timestamp path = [] ↔ isCanonicalTimestamp timestamp = true := by
  simp [timestampError]

structure MemberValid (revision : ℤ) (member : DecryptedMember) : Prop where
  aci : isNilUuid member.aciBytes = false
  pni : isNilUuid member.pniBytes = false
  role : isStoredMemberRole member.role = true
  joined_safe : isSafeInteger member.joinedAtRevision = true
  joined_nonneg : 0 ≤ member.joinedAtRevision
  joined_le : member.joinedAtRevision ≤ revision

structure PendingValid (member : DecryptedPendingMember) : Prop where
  serviceId : isNilServiceId member.serviceIdBytes = false
  addedBy : isNilUuid member.addedByAci = false
  role : isStoredMemberRole member.role = true
  timestamp : isCanonicalTimestamp member.timestamp = true

structure RequestingValid (member : DecryptedRequestingMember) : Prop where
  aci : isNilUuid member.aciBytes = false
  timestamp : isCanonicalTimestamp member.timestamp = true

structure BannedValid (member : DecryptedBannedMember) : Prop where
  serviceId : isNilServiceId member.serviceIdBytes = false
  timestamp : isCanonicalTimestamp member.timestamp = true

structure AccessValid (access : AccessControl) : Prop where
  attributes : isRoleAccessRequirement access.attributes = true
  members : isRoleAccessRequirement access.members = true
  memberLabel : isRoleAccessRequirement access.memberLabel = true
  addFromInviteLink : isInviteLinkAccessRequirement access.addFromInviteLink = true

structure FieldsValid (revision : ℤ) (group : DecryptedGroup) : Prop where
  members : ∀ member ∈ group.members, MemberValid revision member
  pending : ∀ member ∈ group.pendingMembers, PendingValid member
  requesting : ∀ member ∈ group.requestingMembers, RequestingValid member
  banned : ∀ member ∈ group.bannedMembers, BannedValid member
  access : AccessValid group.accessControl
  announcement : isAnnouncementState group.isAnnouncementGroup = true
  password : group.inviteLinkPassword.length = 0 ∨ group.inviteLinkPassword.length = 16

def RevisionValid (revision : ℤ) : Prop := isSafeInteger revision = true ∧ 0 ≤ revision

theorem validateGroupIdentifiers_eq_nil_iff :
    validateGroupIdentifiers group = [] ↔
      (∀ member ∈ group.members,
        isNilUuid member.aciBytes = false ∧ isNilUuid member.pniBytes = false) ∧
      (∀ member ∈ group.pendingMembers,
        isNilServiceId member.serviceIdBytes = false ∧ isNilUuid member.addedByAci = false) ∧
      (∀ member ∈ group.requestingMembers, isNilUuid member.aciBytes = false) ∧
      ∀ member ∈ group.bannedMembers, isNilServiceId member.serviceIdBytes = false := by
  unfold validateGroupIdentifiers
  simp only [append_eq_nil_iff, and_assoc]
  refine and_congr (entryErrors_eq_nil_iff fun path member => ?_)
    (and_congr (entryErrors_eq_nil_iff fun path member => ?_)
      (and_congr (entryErrors_eq_nil_iff fun path member => ?_)
        (entryErrors_eq_nil_iff fun path member => ?_)))
  · simp
  · simp
  · simp
  · simp

theorem validateGroupAccessControl_eq_nil_iff :
    validateGroupAccessControl group = [] ↔ AccessValid group.accessControl := by
  simp only [validateGroupAccessControl, append_eq_nil_iff, errorIf_eq_nil_iff, and_assoc,
    Bool.not_eq_true, decide_eq_false_iff_not, Bool.not_eq_false]
  constructor
  · rintro ⟨attributes, members, memberLabel, addFromInviteLink⟩
    exact { attributes, members, memberLabel, addFromInviteLink }
  · intro haccess
    exact ⟨haccess.attributes, haccess.members, haccess.memberLabel, haccess.addFromInviteLink⟩

theorem validateGroupMemberRoles_eq_nil_iff :
    validateGroupMemberRoles group = [] ↔
      (∀ member ∈ group.members, isStoredMemberRole member.role = true) ∧
      ∀ member ∈ group.pendingMembers, isStoredMemberRole member.role = true := by
  unfold validateGroupMemberRoles
  rw [append_eq_nil_iff]
  refine and_congr (entryErrors_eq_nil_iff fun path member => ?_)
    (entryErrors_eq_nil_iff fun path member => ?_)
  · exact roleError_eq_nil_iff
  · exact roleError_eq_nil_iff

theorem validateGroupCanonicalFields_eq_nil_iff :
    validateGroupCanonicalFields group = [] ↔
      RevisionValid group.revision ∧ isAnnouncementState group.isAnnouncementGroup = true ∧
      (group.inviteLinkPassword.length = 0 ∨ group.inviteLinkPassword.length = 16) ∧
      (∀ member ∈ group.members, isSafeInteger member.joinedAtRevision = true ∧
        0 ≤ member.joinedAtRevision ∧ member.joinedAtRevision ≤ group.revision) ∧
      (∀ member ∈ group.pendingMembers, isCanonicalTimestamp member.timestamp = true) ∧
      (∀ member ∈ group.requestingMembers, isCanonicalTimestamp member.timestamp = true) ∧
      ∀ member ∈ group.bannedMembers, isCanonicalTimestamp member.timestamp = true := by
  unfold validateGroupCanonicalFields RevisionValid
  simp only [append_eq_nil_iff, and_assoc]
  rw [← and_assoc (a := isSafeInteger group.revision = true)]
  refine and_congr ?_ (and_congr ?_ (and_congr ?_
    (and_congr (entryErrors_eq_nil_iff fun path member => ?_)
      (and_congr (entryErrors_eq_nil_iff fun path member => timestampError_eq_nil_iff)
        (and_congr (entryErrors_eq_nil_iff fun path member => timestampError_eq_nil_iff)
          (entryErrors_eq_nil_iff fun path member => timestampError_eq_nil_iff))))))
  · simp
  · simp
  · simp only [errorIf_eq_nil_iff, decide_eq_false_iff_not]
    omega
  · simp

theorem stateFieldErrors_eq_nil_iff :
    stateFieldErrors group = [] ↔
      RevisionValid group.revision ∧ FieldsValid group.revision group := by
  simp only [stateFieldErrors, append_eq_nil_iff, validateGroupIdentifiers_eq_nil_iff,
    validateGroupAccessControl_eq_nil_iff, validateGroupMemberRoles_eq_nil_iff,
    validateGroupCanonicalFields_eq_nil_iff]
  constructor
  · rintro ⟨⟨⟨⟨hmembers, hpend, hreq, hbanned⟩, haccess⟩, hroles, hpendingRoles⟩,
      hrev, hannounce, hpassword, hjoined, hpendingTimes, hrequestingTimes, hbannedTimes⟩
    refine ⟨hrev, ?_, ?_, ?_, ?_, haccess, hannounce, hpassword⟩
    · intro member hmemb
      obtain ⟨hsafe, hnonneg, hle⟩ := hjoined member hmemb
      exact ⟨(hmembers member hmemb).1, (hmembers member hmemb).2, hroles member hmemb,
        hsafe, hnonneg, hle⟩
    · intro member hmemb
      exact ⟨(hpend member hmemb).1, (hpend member hmemb).2,
        hpendingRoles member hmemb, hpendingTimes member hmemb⟩
    · intro member hmemb
      exact ⟨hreq member hmemb, hrequestingTimes member hmemb⟩
    · intro member hmemb
      exact ⟨hbanned member hmemb, hbannedTimes member hmemb⟩
  · rintro ⟨hrev, hvalid⟩
    refine ⟨⟨⟨⟨?_, ?_, ?_, ?_⟩, hvalid.access⟩, ?_, ?_⟩, hrev, hvalid.announcement,
      hvalid.password, ?_, ?_, ?_, ?_⟩
    · exact fun member hmemb =>
        ⟨(hvalid.members member hmemb).aci, (hvalid.members member hmemb).pni⟩
    · exact fun member hmemb =>
        ⟨(hvalid.pending member hmemb).serviceId, (hvalid.pending member hmemb).addedBy⟩
    · exact fun member hmemb => (hvalid.requesting member hmemb).aci
    · exact fun member hmemb => (hvalid.banned member hmemb).serviceId
    · exact fun member hmemb => (hvalid.members member hmemb).role
    · exact fun member hmemb => (hvalid.pending member hmemb).role
    · exact fun member hmemb =>
        ⟨(hvalid.members member hmemb).joined_safe, (hvalid.members member hmemb).joined_nonneg,
          (hvalid.members member hmemb).joined_le⟩
    · exact fun member hmemb => (hvalid.pending member hmemb).timestamp
    · exact fun member hmemb => (hvalid.requesting member hmemb).timestamp
    · exact fun member hmemb => (hvalid.banned member hmemb).timestamp

structure ChangeValid (change : DecryptedGroupChange) : Prop where
  revision : isSafeInteger change.revision = true ∧ 1 ≤ change.revision
  newMembers : ∀ member ∈ change.newMembers, isNilUuid member.aciBytes = false ∧
    isStoredMemberRole member.role = true ∧ member.joinedAtRevision = some change.revision
  promotePending : ∀ promotion ∈ change.promotePendingMembers, isNilUuid promotion.aciBytes = false
  promotePniAci : ∀ promotion ∈ change.promotePendingPniAciMembers,
    isNilUuid promotion.aciBytes = false
  promoteRequesting : ∀ approval ∈ change.promoteRequestingMembers,
    isNilUuid approval.aciBytes = false ∧ isStoredMemberRole approval.role = true
  newPending : ∀ pending ∈ change.newPendingMembers,
    isNilServiceId pending.serviceIdBytes = false ∧
      isNilUuid (pending.addedByAci.getD []) = false ∧ isStoredMemberRole pending.role = true ∧
      isCanonicalTimestamp (pending.timestamp.getD 0) = true
  newRequesting : ∀ entry ∈ change.newRequestingMembers, isNilUuid entry.aciBytes = false ∧
    isCanonicalTimestamp (entry.timestamp.getD 0) = true
  newBanned : ∀ entry ∈ change.newBannedMembers, isNilServiceId entry.serviceIdBytes = false ∧
    isCanonicalTimestamp (entry.timestamp.getD 0) = true
  modifyRoles : ∀ modification ∈ change.modifyMemberRoles,
    isStoredMemberRole modification.role = true
  access : ∀ access ∈ change.newAttributeAccess, isRoleAccessRequirement access = true
  memberAccess : ∀ access ∈ change.newMemberAccess, isRoleAccessRequirement access = true
  labelAccess : ∀ access ∈ change.newMemberLabelAccess, isRoleAccessRequirement access = true
  linkAccess : ∀ access ∈ change.newInviteLinkAccess, isInviteLinkAccessRequirement access = true
  announcement : ∀ state ∈ change.newIsAnnouncementGroup, isAnnouncementState state = true
  password : ∀ password ∈ change.newInviteLinkPassword, password.length = 16

theorem good_of_entryErrors (herrors : entryErrors label entries errors = [])
    (hgood : ∀ path entry, errors path entry = [] → good entry) :
    ∀ entry ∈ entries, good entry := by
  intro entry hentry
  obtain ⟨index, hidx⟩ := mem_iff_getElem?.mp hentry
  have hempty := flatMap_eq_nil_iff.mp herrors (entry, index)
    (mk_mem_zipIdx_iff_getElem?.mpr hidx)
  exact hgood _ entry hempty

theorem optionalError_eq_nil_iff {value : Option α} {inDomain : α → Bool} :
    optionalError value inDomain error = [] ↔ ∀ given ∈ value, inDomain given = true := by
  cases value <;> simp [optionalError]

theorem canonicalError_eq_nil_iff :
    DecryptedGroupChangeForm.canonical.canonicalError wrong error = [] ↔ wrong = false := by
  simp [DecryptedGroupChangeForm.canonicalError]

theorem canonical_getD {timestamp : Option ℤ}
    (hnone : DecryptedGroupChangeForm.canonical.canonicalError
      (¬ timestamp.any isCanonicalTimestamp) error = []) :
    isCanonicalTimestamp (timestamp.getD 0) = true := by
  rw [canonicalError_eq_nil_iff] at hnone
  cases timestamp with
  | none => simp at hnone
  | some timestamp => simpa using hnone

theorem changeValid_of_errors {state : DecryptedGroup} {change : DecryptedGroupChange}
    (herrors : changeFieldErrors state change .canonical = []) : ChangeValid change := by
  simp only [changeFieldErrors, append_eq_nil_iff, and_assoc] at herrors
  obtain ⟨hidentifiers, haccess, hroles, hcanon⟩ := herrors
  simp only [validateChangeIdentifiers, append_eq_nil_iff, and_assoc] at hidentifiers
  obtain ⟨-, hnewIds, -, hpendingIds, hpniIds, -, -, hnewPendingIds, -, hrequestingIds, -,
    happrovalIds, hbannedIds, -, -⟩ := hidentifiers
  simp only [validateChangeAccessControl, append_eq_nil_iff, and_assoc,
    optionalError_eq_nil_iff] at haccess
  obtain ⟨hattributes, hmembers, hlabel, hlink⟩ := haccess
  simp only [validateChangeMemberRoles, append_eq_nil_iff, and_assoc] at hroles
  obtain ⟨hnewRoles, -, -, hnewPendingRoles, hmodifyRoles, happrovalRoles⟩ := hroles
  simp only [validateChangeCanonicalFields, append_eq_nil_iff, and_assoc,
    optionalError_eq_nil_iff] at hcanon
  obtain ⟨hrev, hannounce, hpassword, hnewJoined, -, -, hnewPendingFields,
    hrequestingFields, hbannedFields⟩ := hcanon
  have hnewIds : ∀ member ∈ change.newMembers, isNilUuid member.aciBytes = false :=
    good_of_entryErrors hnewIds fun _ _ => nilUuidError_eq_nil_iff.mp
  have hnewRoles : ∀ member ∈ change.newMembers, isStoredMemberRole member.role = true :=
    good_of_entryErrors hnewRoles fun _ _ => roleError_eq_nil_iff.mp
  have hnewJoined : ∀ member ∈ change.newMembers, member.joinedAtRevision = some change.revision :=
    good_of_entryErrors hnewJoined fun path member hempty => by
      have hwrong := (append_eq_nil_iff.mp hempty).2
      simpa [DecryptedGroupChangeForm.joinedAtErrors, canonicalError_eq_nil_iff] using hwrong
  have hpendingIds : ∀ promotion ∈ change.promotePendingMembers,
      isNilUuid promotion.aciBytes = false :=
    good_of_entryErrors hpendingIds fun _ _ => nilUuidError_eq_nil_iff.mp
  have hpniIds : ∀ promotion ∈ change.promotePendingPniAciMembers,
      isNilUuid promotion.aciBytes = false :=
    good_of_entryErrors hpniIds fun path promotion hempty =>
      nilUuidError_eq_nil_iff.mp (append_eq_nil_iff.mp hempty).1
  have happrovalIds : ∀ approval ∈ change.promoteRequestingMembers,
      isNilUuid approval.aciBytes = false :=
    good_of_entryErrors happrovalIds fun _ _ => nilUuidError_eq_nil_iff.mp
  have happrovalRoles : ∀ approval ∈ change.promoteRequestingMembers,
      isStoredMemberRole approval.role = true :=
    good_of_entryErrors happrovalRoles fun _ _ => roleError_eq_nil_iff.mp
  have hnewPendingIds : ∀ pending ∈ change.newPendingMembers,
      isNilServiceId pending.serviceIdBytes = false ∧
        isNilUuid (pending.addedByAci.getD []) = false :=
    good_of_entryErrors hnewPendingIds fun path pending hempty => by
      obtain ⟨hserviceId, haddedBy⟩ := append_eq_nil_iff.mp hempty
      refine ⟨nilServiceIdError_eq_nil_iff.mp hserviceId, ?_⟩
      cases hadded : pending.addedByAci with
      | none => rfl
      | some addedByAci => simpa [hadded] using haddedBy
  have hnewPendingRoles : ∀ pending ∈ change.newPendingMembers,
      isStoredMemberRole pending.role = true :=
    good_of_entryErrors hnewPendingRoles fun _ _ => roleError_eq_nil_iff.mp
  have hnewPendingTimes : ∀ pending ∈ change.newPendingMembers,
      isCanonicalTimestamp (pending.timestamp.getD 0) = true :=
    good_of_entryErrors hnewPendingFields fun path pending hempty =>
      canonical_getD (append_eq_nil_iff.mp hempty).2
  have hrequestingIds : ∀ entry ∈ change.newRequestingMembers, isNilUuid entry.aciBytes = false :=
    good_of_entryErrors hrequestingIds fun _ _ => nilUuidError_eq_nil_iff.mp
  have hrequestingTimes : ∀ entry ∈ change.newRequestingMembers,
      isCanonicalTimestamp (entry.timestamp.getD 0) = true :=
    good_of_entryErrors hrequestingFields fun path entry hempty =>
      canonical_getD (append_eq_nil_iff.mp hempty).2
  have hbannedIds : ∀ entry ∈ change.newBannedMembers,
      isNilServiceId entry.serviceIdBytes = false :=
    good_of_entryErrors hbannedIds fun _ _ => nilServiceIdError_eq_nil_iff.mp
  have hbannedTimes : ∀ entry ∈ change.newBannedMembers,
      isCanonicalTimestamp (entry.timestamp.getD 0) = true :=
    good_of_entryErrors hbannedFields fun path entry hempty =>
      canonical_getD (append_eq_nil_iff.mp hempty).2
  have hmodifyRoles : ∀ modification ∈ change.modifyMemberRoles,
      isStoredMemberRole modification.role = true :=
    good_of_entryErrors hmodifyRoles fun _ _ => roleError_eq_nil_iff.mp
  exact {
    revision := by simpa using hrev
    newMembers := fun member hmemb =>
      ⟨hnewIds member hmemb, hnewRoles member hmemb, hnewJoined member hmemb⟩
    promotePending := hpendingIds
    promotePniAci := hpniIds
    promoteRequesting := fun approval happroval =>
      ⟨happrovalIds approval happroval, happrovalRoles approval happroval⟩
    newPending := fun pending hpend =>
      ⟨(hnewPendingIds pending hpend).1, (hnewPendingIds pending hpend).2,
        hnewPendingRoles pending hpend, hnewPendingTimes pending hpend⟩
    newRequesting := fun entry hentry =>
      ⟨hrequestingIds entry hentry, hrequestingTimes entry hentry⟩
    newBanned := fun entry hentry => ⟨hbannedIds entry hentry, hbannedTimes entry hentry⟩
    modifyRoles := hmodifyRoles
    access := hattributes
    memberAccess := hmembers
    labelAccess := hlabel
    linkAccess := hlink
    announcement := hannounce
    password := by simpa using hpassword }

/-! ## What an action keeps -/

section Actions

variable {revision : ℤ} {state next : DecryptedGroup}

theorem FieldsValid.mono {later : ℤ} (hvalid : FieldsValid revision state)
    (hle : revision ≤ later) : FieldsValid later state :=
  { hvalid with
    members := fun member hmemb =>
      { hvalid.members member hmemb with
        joined_le := Int.le_trans (hvalid.members member hmemb).joined_le hle } }

theorem FieldsValid.withMembers (hvalid : FieldsValid revision state)
    {members : List DecryptedMember} (hmembers : ∀ member ∈ members, MemberValid revision member) :
    FieldsValid revision { state with members } :=
  { hvalid with members := hmembers }

theorem FieldsValid.withPending (hvalid : FieldsValid revision state)
    {pendingMembers : List DecryptedPendingMember}
    (hpend : ∀ member ∈ pendingMembers, PendingValid member) :
    FieldsValid revision { state with pendingMembers } :=
  { hvalid with pending := hpend }

theorem FieldsValid.withRequesting (hvalid : FieldsValid revision state)
    {requestingMembers : List DecryptedRequestingMember}
    (hreq : ∀ member ∈ requestingMembers, RequestingValid member) :
    FieldsValid revision { state with requestingMembers } :=
  { hvalid with requesting := hreq }

theorem FieldsValid.withBanned (hvalid : FieldsValid revision state)
    {bannedMembers : List DecryptedBannedMember}
    (hbanned : ∀ member ∈ bannedMembers, BannedValid member) :
    FieldsValid revision { state with bannedMembers } :=
  { hvalid with banned := hbanned }

theorem deletePendingMember_keeps {removal : DecryptedPendingMemberRemoval}
    (hvalid : FieldsValid revision state) (hok : deletePendingMember state removal = .ok next) :
    FieldsValid revision next := by
  obtain ⟨-, rfl⟩ := deletePendingMember_eq_ok hok
  exact hvalid.withPending fun member hmemb =>
    hvalid.pending member (mem_filter.mp hmemb).1

theorem deleteRequestingMember_keeps {target : Bytes} (hvalid : FieldsValid revision state)
    (hok : deleteRequestingMember state target = .ok next) : FieldsValid revision next := by
  obtain ⟨-, rfl⟩ := deleteRequestingMember_eq_ok hok
  exact hvalid.withRequesting fun member hmemb =>
    hvalid.requesting member (mem_filter.mp hmemb).1

theorem deleteBannedMember_keeps {removal : DecryptedDeleteBannedMember}
    (hvalid : FieldsValid revision state) (hok : deleteBannedMember state removal = .ok next) :
    FieldsValid revision next := by
  obtain ⟨-, rfl⟩ := deleteBannedMember_eq_ok hok
  exact hvalid.withBanned fun member hmemb =>
    hvalid.banned member (mem_filter.mp hmemb).1

theorem deleteMember_keeps (hvalid : FieldsValid revision state)
    (hok : deleteMember state aciBytes = .ok next) : FieldsValid revision next := by
  obtain ⟨-, rfl⟩ := deleteMember_eq_ok hok
  exact hvalid.withMembers fun member hmemb =>
    hvalid.members member (mem_filter.mp hmemb).1

theorem forall_append_singleton {added : α} (hentries : ∀ entry ∈ entries, good entry)
    (hadded : good added) : ∀ entry ∈ entries ++ [added], good entry := by
  intro entry hentry
  obtain hold | hnew := mem_append.mp hentry
  · exact hentries entry hold
  · rw [mem_singleton.mp hnew]
    exact hadded

theorem banMember_keeps {banned : DecryptedAddBannedMember}
    (hserviceId : isNilServiceId banned.serviceIdBytes = false)
    (hstamp : isCanonicalTimestamp (banned.timestamp.getD 0) = true)
    (hvalid : FieldsValid revision state) (hok : banMember state banned = .ok next) :
    FieldsValid revision next := by
  obtain ⟨-, rfl⟩ := banMember_eq_ok hok
  exact hvalid.withBanned (forall_append_singleton hvalid.banned ⟨hserviceId, hstamp⟩)

theorem newMember_valid {profileKey : Bytes}
    (hrev : RevisionValid revision) (haci : isNilUuid aciBytes = false)
    (hrole : isStoredMemberRole role = true) :
    MemberValid revision (newMember aciBytes profileKey role revision) where
  aci := haci
  pni := rfl
  role := hrole
  joined_safe := hrev.1
  joined_nonneg := hrev.2
  joined_le := Int.le_refl _

theorem FieldsValid.promote {promotion : DecryptedPendingMemberPromotion}
    {pending : DecryptedPendingMember} {invited : List DecryptedPendingMember}
    (hvalid : FieldsValid revision state) (hrev : RevisionValid revision)
    (haci : isNilUuid promotion.aciBytes = false) (hpending : pending ∈ state.pendingMembers)
    (hinvited : ∀ member ∈ invited, member ∈ state.pendingMembers) :
    FieldsValid revision { state with
      pendingMembers := invited
      members := state.members ++ [memberFromPromotion promotion pending.role revision] } := by
  have hmemb : MemberValid revision (memberFromPromotion promotion pending.role revision) :=
    newMember_valid hrev haci (hvalid.pending pending hpending).role
  exact (hvalid.withPending fun member hmem =>
    hvalid.pending member (hinvited member hmem)).withMembers
      (forall_append_singleton hvalid.members hmemb)

theorem promotePendingMember_keeps {promotion : DecryptedPendingMemberPromotion}
    (hrev : RevisionValid revision) (haci : isNilUuid promotion.aciBytes = false)
    (hvalid : FieldsValid revision state)
    (hok : promotePendingMember revision state promotion = .ok next) :
    FieldsValid revision next := by
  obtain ⟨-, -, pending, hfound, rfl⟩ := promotePendingMember_eq_ok hok
  exact hvalid.promote hrev haci (mem_of_find?_eq_some hfound) fun _ => mem_of_mem_eraseP

theorem promotePendingPniAciMember_keeps {promotion : DecryptedPniAciMemberPromotion}
    (hrev : RevisionValid revision) (haci : isNilUuid promotion.aciBytes = false)
    (hvalid : FieldsValid revision state)
    (hok : promotePendingPniAciMember revision state promotion = .ok next) :
    FieldsValid revision next := by
  obtain ⟨-, -, -, pending, hfound, rfl⟩ := promotePendingPniAciMember_eq_ok hok
  exact hvalid.promote hrev haci (mem_of_find?_eq_some hfound) fun _ hmem =>
    mem_of_mem_eraseP (mem_filter.mp hmem).1

theorem promoteRequestingMember_keeps {approval : DecryptedApproveMember}
    (hrev : RevisionValid revision) (haci : isNilUuid approval.aciBytes = false)
    (hrole : isStoredMemberRole approval.role = true) (hvalid : FieldsValid revision state)
    (hok : promoteRequestingMember revision state approval = .ok next) :
    FieldsValid revision next := by
  obtain ⟨-, requesting, -, rfl⟩ := promoteRequestingMember_eq_ok hok
  exact (hvalid.withRequesting fun member hmem =>
    hvalid.requesting member (mem_of_mem_eraseP hmem)).withMembers
      (forall_append_singleton hvalid.members (newMember_valid hrev haci hrole))

theorem addMember_keeps {member : DecryptedAddMember} (hrev : RevisionValid revision)
    (haci : isNilUuid member.aciBytes = false) (hrole : isStoredMemberRole member.role = true)
    (hjoined : member.joinedAtRevision = some revision) (hvalid : FieldsValid revision state)
    (hok : addMember state member = .ok next) : FieldsValid revision next := by
  obtain ⟨-, rfl⟩ := addMember_eq_ok hok
  rw [hjoined, Option.getD_some]
  exact hvalid.withMembers
    (forall_append_singleton hvalid.members (newMember_valid hrev haci hrole))

theorem addPendingMember_keeps {pending : DecryptedAddPendingMember}
    (hserviceId : isNilServiceId pending.serviceIdBytes = false)
    (haddedBy : isNilUuid (pending.addedByAci.getD []) = false)
    (hrole : isStoredMemberRole pending.role = true)
    (hstamp : isCanonicalTimestamp (pending.timestamp.getD 0) = true)
    (hvalid : FieldsValid revision state) (hok : addPendingMember state pending = .ok next) :
    FieldsValid revision next := by
  obtain ⟨-, rfl⟩ := addPendingMember_eq_ok hok
  exact hvalid.withPending (forall_append_singleton hvalid.pending
    ⟨hserviceId, haddedBy, hrole, hstamp⟩)

theorem addRequestingMember_keeps {requesting : DecryptedAddRequestingMember}
    (haci : isNilUuid requesting.aciBytes = false)
    (hstamp : isCanonicalTimestamp (requesting.timestamp.getD 0) = true)
    (hvalid : FieldsValid revision state)
    (hok : addRequestingMember state requesting = .ok next) : FieldsValid revision next := by
  obtain ⟨-, rfl⟩ := addRequestingMember_eq_ok hok
  exact hvalid.withRequesting (forall_append_singleton hvalid.requesting ⟨haci, hstamp⟩)

theorem modifyMember_keeps {modification : DecryptedMember → DecryptedMember} {message : String}
    (hmodification : ∀ member, MemberValid revision member →
      MemberValid revision (modification member)) (hvalid : FieldsValid revision state)
    (hok : modifyMember aciBytes modification message state = .ok next) :
    FieldsValid revision next := by
  obtain ⟨members, hmembers, rfl⟩ := modifyMember_eq_ok hok
  refine hvalid.withMembers fun member hmemb => ?_
  obtain hold | ⟨old, hold, rfl⟩ := mem_of_modifyFirst hmembers hmemb
  · exact hvalid.members member hold
  · exact hmodification old (hvalid.members old hold)

theorem modifyMemberRole_keeps {modification : DecryptedModifyMemberRole}
    (hrole : isStoredMemberRole modification.role = true) (hvalid : FieldsValid revision state)
    (hok : modifyMemberRole state modification = .ok next) : FieldsValid revision next := by
  unfold modifyMemberRole at hok
  refine modifyMember_keeps (fun member hmemb => ?_) hvalid hok
  exact { hmemb with role := hrole }

theorem modifyMemberLabel_keeps {modification : DecryptedModifyMemberLabel}
    (hvalid : FieldsValid revision state)
    (hok : modifyMemberLabel state modification = .ok next) : FieldsValid revision next := by
  unfold modifyMemberLabel at hok
  refine modifyMember_keeps (fun member hmemb => ?_) hvalid hok
  exact { hmemb with }

theorem modifyProfileKey_keeps {modification : DecryptedProfileKeyUpdate}
    (hvalid : FieldsValid revision state)
    (hok : modifyProfileKey state modification = .ok next) : FieldsValid revision next := by
  unfold modifyProfileKey at hok
  refine modifyMember_keeps (fun member hmemb => ?_) hvalid hok
  exact { hmemb with }

end Actions

section Change

variable {state next : DecryptedGroup} {change : DecryptedGroupChange}

theorem applyDeletions_keeps {revision : ℤ} (hvalid : FieldsValid revision state)
    (hok : applyDeletions state change = .ok next) : FieldsValid revision next := by
  simp only [applyDeletions, bind_eq_ok_iff] at hok
  obtain ⟨noPending, hpend, noRequesting, hreq, noBanned, hbanned, hmembers⟩ := hok
  have h₁ : FieldsValid revision noPending := foldlM_keeps (FieldsValid revision)
    (fun _ _ _ _ => deletePendingMember_keeps) hvalid hpend
  have h₂ : FieldsValid revision noRequesting := foldlM_keeps (FieldsValid revision)
    (fun _ _ _ _ => deleteRequestingMember_keeps) h₁ hreq
  have h₃ : FieldsValid revision noBanned := foldlM_keeps (FieldsValid revision)
    (fun _ _ _ _ => deleteBannedMember_keeps) h₂ hbanned
  exact foldlM_keeps (FieldsValid revision) (fun _ _ _ _ => deleteMember_keeps) h₃ hmembers

theorem accessAfter_valid {inDomain : AccessRequired → Bool} {current : AccessRequired}
    {given : Option AccessRequired} (hcur : inDomain current = true)
    (hgiven : ∀ access ∈ given, inDomain access = true) :
    inDomain (accessAfter current given) = true := by
  unfold accessAfter
  split
  · exact hcur
  · exact hcur
  · exact hgiven _ rfl

variable (hchange : ChangeValid change)

include hchange

theorem ChangeValid.revisionValid : RevisionValid change.revision :=
  ⟨hchange.revision.1, Int.le_trans (by decide) hchange.revision.2⟩

theorem applyBans_keeps {revision : ℤ} (hvalid : FieldsValid revision state)
    (hok : applyBans state change = .ok next) : FieldsValid revision next := by
  refine foldlM_keeps (FieldsValid revision) (fun _ banned _ hbanned => ?_) hvalid hok
  obtain ⟨hserviceId, hstamp⟩ := hchange.newBanned banned hbanned
  exact banMember_keeps hserviceId hstamp

theorem applyPromotions_keeps (hvalid : FieldsValid change.revision state)
    (hok : applyPromotions state change = .ok next) : FieldsValid change.revision next := by
  simp only [applyPromotions, bind_eq_ok_iff] at hok
  obtain ⟨promoted, hpromoted, promotedPni, hpromotedPni, happroved⟩ := hok
  have h₁ : FieldsValid change.revision promoted :=
    foldlM_keeps (FieldsValid change.revision)
      (fun _ promotion _ hpromotion => promotePendingMember_keeps hchange.revisionValid
        (hchange.promotePending promotion hpromotion)) hvalid hpromoted
  have h₂ : FieldsValid change.revision promotedPni :=
    foldlM_keeps (FieldsValid change.revision)
      (fun _ promotion _ hpromotion => promotePendingPniAciMember_keeps hchange.revisionValid
        (hchange.promotePniAci promotion hpromotion)) h₁ hpromotedPni
  refine foldlM_keeps (FieldsValid change.revision) (fun _ approval _ happroval => ?_) h₂
    happroved
  obtain ⟨haci, hrole⟩ := hchange.promoteRequesting approval happroval
  exact promoteRequestingMember_keeps hchange.revisionValid haci hrole

theorem applyAdditions_keeps (hvalid : FieldsValid change.revision state)
    (hok : applyAdditions state change = .ok next) : FieldsValid change.revision next := by
  simp only [applyAdditions, bind_eq_ok_iff] at hok
  obtain ⟨added, hadded, invited, hinvited, hrequested⟩ := hok
  have h₁ : FieldsValid change.revision added := by
    refine foldlM_keeps (FieldsValid change.revision) (fun _ member _ hmemb => ?_) hvalid hadded
    obtain ⟨haci, hrole, hjoined⟩ := hchange.newMembers member hmemb
    exact addMember_keeps hchange.revisionValid haci hrole hjoined
  have h₂ : FieldsValid change.revision invited := by
    refine foldlM_keeps (FieldsValid change.revision) (fun _ pending _ hpend => ?_) h₁ hinvited
    obtain ⟨hserviceId, haddedBy, hrole, hstamp⟩ := hchange.newPending pending hpend
    exact addPendingMember_keeps hserviceId haddedBy hrole hstamp
  refine foldlM_keeps (FieldsValid change.revision) (fun _ entry _ hentry => ?_) h₂ hrequested
  obtain ⟨haci, hstamp⟩ := hchange.newRequesting entry hentry
  exact addRequestingMember_keeps haci hstamp

variable {revision : ℤ}

theorem applyMemberModifications_keeps (hvalid : FieldsValid revision state)
    (hok : applyMemberModifications state change = .ok next) : FieldsValid revision next := by
  simp only [applyMemberModifications, bind_eq_ok_iff] at hok
  obtain ⟨withRoles, hroles, withLabels, hlabels, hprofileKeys⟩ := hok
  have h₁ : FieldsValid revision withRoles := foldlM_keeps (FieldsValid revision)
    (fun _ modification _ hmem => modifyMemberRole_keeps (hchange.modifyRoles modification hmem))
    hvalid hroles
  have h₂ : FieldsValid revision withLabels := foldlM_keeps (FieldsValid revision)
    (fun _ _ _ _ => modifyMemberLabel_keeps) h₁ hlabels
  exact foldlM_keeps (FieldsValid revision) (fun _ _ _ _ => modifyProfileKey_keeps) h₂
    hprofileKeys

theorem applyAttributes_keeps (hvalid : FieldsValid revision state) :
    FieldsValid revision (applyAttributesAndAccessControl state change) :=
  { hvalid with
    access :=
      { attributes := accessAfter_valid hvalid.access.attributes hchange.access
        members := accessAfter_valid hvalid.access.members hchange.memberAccess
        memberLabel := accessAfter_valid hvalid.access.memberLabel hchange.labelAccess
        addFromInviteLink := accessAfter_valid hvalid.access.addFromInviteLink hchange.linkAccess }
    announcement := by
      simp only [applyAttributesAndAccessControl]
      split
      · exact hvalid.announcement
      · exact hvalid.announcement
      · next given _ hgiven => exact hchange.announcement _ hgiven
    password := by
      simp only [applyAttributesAndAccessControl]
      cases hgiven : change.newInviteLinkPassword with
      | none => exact hvalid.password
      | some password => exact .inr (hchange.password password hgiven) }

end Change

end SignalProtocol.Groups

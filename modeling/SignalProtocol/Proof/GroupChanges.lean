import SignalProtocol.Proof.GroupFields

/-! # Replay and application

The validator replays the entries of a change one by one, each as a change of its own, on a shadow
of the state. -/

namespace SignalProtocol.Groups

open Results List

variable {result : Except String DecryptedGroup} {shadow : Shadow} {change : DecryptedGroupChange}

/-- The shadow is the state that an application has reached, or it has errors and so has the
application. -/
def Agrees (shadow : Shadow) : Except String DecryptedGroup → Prop
  | .ok reached => shadow = (reached, [])
  | .error _ => shadow.2 ≠ []

theorem Agrees.errors_eq_nil_iff
    (hagrees : Agrees shadow result) : shadow.2 = [] ↔ ∃ reached, result = .ok reached := by
  cases result with
  | ok reached =>
    have hshadow : shadow = (reached, []) := hagrees
    simp [hshadow]
  | error message =>
    have herrors : shadow.2 ≠ [] := hagrees
    simp [herrors]

theorem Agrees.validateStep (hagrees : Agrees shadow result)
    (step : DecryptedGroup → Except String DecryptedGroup) :
    Agrees (validateStep shadow (step shadow.1)) (result >>= step) := by
  cases result with
  | ok reached =>
    have hshadow : shadow = (reached, []) := hagrees
    rw [hshadow, ok_bind]
    cases step reached with
    | ok next => rfl
    | error message => exact cons_ne_nil _ _
  | error message =>
    have herrors : shadow.2 ≠ [] := hagrees
    rw [error_bind]
    cases step shadow.1 with
    | ok next => exact herrors
    | error message => exact append_ne_nil_of_left_ne_nil herrors _

/-- The induction is on the entries that are left. -/
theorem Agrees.validateSteps {α : Type} {action : Action α}
    {apply : DecryptedGroup → DecryptedGroupChange → Except String DecryptedGroup}
    {current : α → DecryptedGroupChange}
    (hsingle : ∀ state entry, apply state (current entry) = action state entry) (entries : List α)
    (hagrees : Agrees shadow result) :
    Agrees (validateSteps entries apply current shadow)
      (result >>= fun state => entries.foldlM action state) := by
  induction entries generalizing shadow result with
  | nil =>
    simpa only [Groups.validateSteps, foldl_nil, foldlM_nil, bind_pure] using hagrees
  | cons entry entries ih =>
    have hstep := hagrees.validateStep fun state => action state entry
    have hrest := ih hstep
    rw [bind_assoc] at hrest
    simpa only [Groups.validateSteps, foldl_cons, foldlM_cons, hsingle] using hrest

/-! ## The change of one entry -/

section Single

variable (editorServiceIdBytes : Bytes) (revision : ℤ) (state : DecryptedGroup) (aciBytes : Bytes)

theorem applyDeletions_pending (removal : DecryptedPendingMemberRemoval) :
    applyDeletions state
        { emptyGroupChange editorServiceIdBytes revision with
          deletePendingMembers := [removal] } =
      deletePendingMember state removal := by
  simp only [applyDeletions, emptyGroupChange, foldlM_cons, foldlM_nil, bind_pure]

theorem applyDeletions_requesting :
    applyDeletions state
        { emptyGroupChange editorServiceIdBytes revision with
          deleteRequestingMembers := [aciBytes] } =
      deleteRequestingMember state aciBytes := by
  simp only [applyDeletions, emptyGroupChange, foldlM_cons, foldlM_nil, bind_pure, pure_bind]

theorem applyDeletions_banned (removal : DecryptedDeleteBannedMember) :
    applyDeletions state
        { emptyGroupChange editorServiceIdBytes revision with
          deleteBannedMembers := [removal] } =
      deleteBannedMember state removal := by
  simp only [applyDeletions, emptyGroupChange, foldlM_cons, foldlM_nil, bind_pure, pure_bind]

theorem applyDeletions_member :
    applyDeletions state
        { emptyGroupChange editorServiceIdBytes revision with deleteMembers := [aciBytes] } =
      deleteMember state aciBytes := by
  simp only [applyDeletions, emptyGroupChange, foldlM_cons, foldlM_nil, bind_pure, pure_bind]

theorem applyBans_member (banned : DecryptedAddBannedMember) :
    applyBans state
        { emptyGroupChange editorServiceIdBytes revision with newBannedMembers := [banned] } =
      banMember state banned := by
  simp only [applyBans, foldlM_cons, foldlM_nil, bind_pure]

theorem applyPromotions_pending (promotion : DecryptedPendingMemberPromotion) :
    applyPromotions state
        { emptyGroupChange editorServiceIdBytes revision with
          promotePendingMembers := [promotion] } =
      promotePendingMember revision state promotion := by
  simp only [applyPromotions, emptyGroupChange, foldlM_cons, foldlM_nil, bind_pure]

theorem applyPromotions_pniAci (promotion : DecryptedPniAciMemberPromotion) :
    applyPromotions state
        { emptyGroupChange editorServiceIdBytes revision with
          promotePendingPniAciMembers := [promotion] } =
      promotePendingPniAciMember revision state promotion := by
  simp only [applyPromotions, emptyGroupChange, foldlM_cons, foldlM_nil, bind_pure, pure_bind]

theorem applyPromotions_requesting (approval : DecryptedApproveMember) :
    applyPromotions state
        { emptyGroupChange editorServiceIdBytes revision with
          promoteRequestingMembers := [approval] } =
      promoteRequestingMember revision state approval := by
  simp only [applyPromotions, emptyGroupChange, foldlM_cons, foldlM_nil, bind_pure, pure_bind]

theorem applyAdditions_member (member : DecryptedAddMember) :
    applyAdditions state
        { emptyGroupChange editorServiceIdBytes revision with newMembers := [member] } =
      addMember state member := by
  simp only [applyAdditions, emptyGroupChange, foldlM_cons, foldlM_nil, bind_pure]

theorem applyAdditions_pending (pending : DecryptedAddPendingMember) :
    applyAdditions state
        { emptyGroupChange editorServiceIdBytes revision with newPendingMembers := [pending] } =
      addPendingMember state pending := by
  simp only [applyAdditions, emptyGroupChange, foldlM_cons, foldlM_nil, bind_pure, pure_bind]

theorem applyAdditions_requesting (requesting : DecryptedAddRequestingMember) :
    applyAdditions state
        { emptyGroupChange editorServiceIdBytes revision with
          newRequestingMembers := [requesting] } =
      addRequestingMember state requesting := by
  simp only [applyAdditions, emptyGroupChange, foldlM_cons, foldlM_nil, bind_pure, pure_bind]

theorem applyMemberModifications_role (modification : DecryptedModifyMemberRole) :
    applyMemberModifications state
        { emptyGroupChange editorServiceIdBytes revision with
          modifyMemberRoles := [modification] } =
      modifyMemberRole state modification := by
  simp only [applyMemberModifications, emptyGroupChange, foldlM_cons, foldlM_nil, bind_pure]

theorem applyMemberModifications_label (modification : DecryptedModifyMemberLabel) :
    applyMemberModifications state
        { emptyGroupChange editorServiceIdBytes revision with
          modifyMemberLabels := [modification] } =
      modifyMemberLabel state modification := by
  simp only [applyMemberModifications, emptyGroupChange, foldlM_cons, foldlM_nil,
    bind_pure, pure_bind]

theorem applyMemberModifications_profileKey (modification : DecryptedProfileKeyUpdate) :
    applyMemberModifications state
        { emptyGroupChange editorServiceIdBytes revision with
          modifiedProfileKeys := [modification] } =
      modifyProfileKey state modification := by
  simp only [applyMemberModifications, emptyGroupChange, foldlM_cons, foldlM_nil,
    bind_pure, pure_bind]

def terminateGroup : Action Bool := fun state terminate =>
  applyTermination state
    { emptyGroupChange editorServiceIdBytes revision with terminate := some terminate }

theorem foldlM_terminateGroup (change : DecryptedGroupChange) :
    change.terminate.toList.foldlM (terminateGroup editorServiceIdBytes revision) state =
      applyTermination state change := by
  cases hterminate : change.terminate with
  | none =>
    simp [applyTermination, hterminate]
  | some terminate =>
    cases terminate <;> simp [terminateGroup, applyTermination, hterminate]

end Single

def applyActions (state : DecryptedGroup) (change : DecryptedGroupChange) :
    Except String DecryptedGroup := do
  let state ← applyDeletions state change
  let state ← applyBans state change
  let state ← applyPromotions state change
  let state ← applyAdditions state change
  let state ← applyMemberModifications state change
  applyTermination state change

variable (state : DecryptedGroup)

theorem replay_agrees (change : DecryptedGroupChange) :
    Agrees (replay state change) (applyActions state change) := by
  let editor := change.editorServiceIdBytes
  let revision := change.revision
  have hstart : Agrees (state, []) (.ok state) := rfl
  have hdeletions := (((hstart.validateSteps (applyDeletions_pending editor revision)
    change.deletePendingMembers).validateSteps (applyDeletions_requesting editor revision)
    change.deleteRequestingMembers).validateSteps (applyDeletions_banned editor revision)
    change.deleteBannedMembers).validateSteps (applyDeletions_member editor revision)
    change.deleteMembers
  have hbans := hdeletions.validateSteps (applyBans_member editor revision)
    change.newBannedMembers
  have hpromotions := ((hbans.validateSteps (applyPromotions_pending editor revision)
    change.promotePendingMembers).validateSteps (applyPromotions_pniAci editor revision)
    change.promotePendingPniAciMembers).validateSteps
    (applyPromotions_requesting editor revision) change.promoteRequestingMembers
  have hadditions := ((hpromotions.validateSteps (applyAdditions_member editor revision)
    change.newMembers).validateSteps (applyAdditions_pending editor revision)
    change.newPendingMembers).validateSteps (applyAdditions_requesting editor revision)
    change.newRequestingMembers
  have hmodifications := ((hadditions.validateSteps
    (applyMemberModifications_role editor revision) change.modifyMemberRoles).validateSteps
    (applyMemberModifications_label editor revision) change.modifyMemberLabels).validateSteps
    (applyMemberModifications_profileKey editor revision) change.modifiedProfileKeys
  have hsingle : ∀ state terminate,
      applyTermination state
          { emptyGroupChange editor revision with terminate := some terminate } =
        terminateGroup editor revision state terminate := fun _ _ => rfl
  have htermination := hmodifications.validateSteps hsingle change.terminate.toList
  simp only [foldlM_terminateGroup, ok_bind, bind_assoc] at htermination
  simp only [applyActions, applyDeletions, applyBans, applyPromotions, applyAdditions,
    applyMemberModifications, bind_assoc]
  exact htermination

theorem applyTermination_attributes (change : DecryptedGroupChange) :
    applyTermination (applyAttributesAndAccessControl state change) change =
      (applyAttributesAndAccessControl · change) <$> applyTermination state change := by
  unfold applyTermination
  cases change.terminate with
  | none => rfl
  | some terminate => cases terminate <;> rfl

variable {state : DecryptedGroup}

theorem applyGroupChange_eq
    (hterm : state.terminated = false) (hrev : change.revision = state.revision + 1) :
    applyGroupChange state change =
      (fun final =>
        { applyAttributesAndAccessControl final change with revision := change.revision }) <$>
        applyActions state change := by
  unfold applyGroupChange applyActions
  simp only [hterm, hrev, applyTermination_attributes, map_eq_pure_bind, bind_assoc, pure_bind]
  simp

theorem applyGroupChange_terminated (change : DecryptedGroupChange)
    (hterm : state.terminated = true) :
    applyGroupChange state change = .error "INVALID_CHANGE: Group is terminated" := by
  simp [applyGroupChange, hterm]

theorem structuralErrors_eq_nil_iff (hrev : change.revision = state.revision + 1)
    (hactions : hasArrayAction change ∨ hasScalarAction change) :
    structuralErrors state change = [] ↔ ∃ next, applyGroupChange state change = .ok next := by
  cases hterm : state.terminated with
  | true =>
    simp [structuralErrors, hterm, applyGroupChange_terminated change hterm]
  | false =>
    have hreplay := (replay_agrees state change).errors_eq_nil_iff
    have herrors : structuralErrors state change = (replay state change).2 := by
      obtain harray | hscalar := hactions
      · simp [structuralErrors, hterm, hrev, errorIf, harray]
      · simp [structuralErrors, hterm, hrev, errorIf, hscalar]
    rw [herrors, hreplay, applyGroupChange_eq hterm hrev]
    cases applyActions state change with
    | ok final => simp
    | error message => simp

/-! ## Validation and application of changes

A canonical change without validation errors can be applied, and the state after it has no field
errors. -/

variable {state : DecryptedGroup} {change : DecryptedGroupChange}

theorem applyGroupChange_keeps {next : DecryptedGroup} (hchange : ChangeValid change)
    (hvalid : FieldsValid state.revision state) (hrev : change.revision = state.revision + 1)
    (hok : applyGroupChange state change = .ok next) :
    next.revision = change.revision ∧ FieldsValid change.revision next := by
  have hlater : FieldsValid change.revision state := hvalid.mono (by omega)
  cases hterm : state.terminated with
  | true =>
    rw [applyGroupChange_terminated change hterm] at hok
    cases hok
  | false =>
    rw [applyGroupChange_eq hterm hrev, map_eq_pure_bind, bind_eq_ok_iff] at hok
    obtain ⟨final, hactions, hnext⟩ := hok
    simp only [applyActions, bind_eq_ok_iff] at hactions
    obtain ⟨deleted, hdeleted, banned, hbanned, promoted, hpromoted, added, hadded, modified,
      hmod, hfinal⟩ := hactions
    have hmodifiedValid : FieldsValid change.revision modified :=
      applyMemberModifications_keeps hchange
        (applyAdditions_keeps hchange (applyPromotions_keeps hchange
            (applyBans_keeps hchange (applyDeletions_keeps hlater hdeleted) hbanned)
            hpromoted) hadded) hmod
    have hfinalValid : FieldsValid change.revision final := by
      unfold applyTermination at hfinal
      split at hfinal
      · cases hfinal
        exact hmodifiedValid
      · cases hfinal
        exact { hmodifiedValid with }
      · cases hfinal
    cases hnext
    exact ⟨rfl, { applyAttributes_keeps hchange hfinalValid with }⟩

theorem applied_of_structuralErrors (herrors : structuralErrors state change = []) :
    state.terminated = false ∧ change.revision = state.revision + 1 ∧
      (hasArrayAction change ∨ hasScalarAction change) ∧
      ∃ next, applyGroupChange state change = .ok next := by
  have hrev : change.revision = state.revision + 1 := by
    simp only [structuralErrors, append_eq_nil_iff, errorIf_eq_nil_iff,
      decide_eq_false_iff_not, ne_eq, not_not] at herrors
    exact herrors.1
  have hactions : hasArrayAction change ∨ hasScalarAction change := by
    by_contra hnone
    obtain ⟨harray, hscalar⟩ := not_or.mp hnone
    simp only [structuralErrors, append_eq_nil_iff] at herrors
    have hempty := herrors.2
    split at hempty
    · cases hempty
    · rw [if_pos ⟨harray, hscalar⟩] at hempty
      cases hempty
  have happlied := (structuralErrors_eq_nil_iff hrev hactions).mp herrors
  refine ⟨?_, hrev, hactions, happlied⟩
  by_contra hlive
  obtain ⟨next, hnext⟩ := happlied
  rw [applyGroupChange_terminated change (by simpa using hlive)] at hnext
  cases hnext

/-- A canonical change without errors leads to a state without errors, and a change without errors
in its own fields has structural errors exactly when its application throws. -/
theorem validation_agrees_with_application (state : DecryptedGroup)
    (change : DecryptedGroupChange) :
    (validateChangeStructure state change .canonical = [] →
      ∃ next, applyGroupChange state change = .ok next ∧
        validateGroupIdentifiers next = [] ∧ validateGroupAccessControl next = [] ∧
        validateGroupMemberRoles next = [] ∧ validateGroupCanonicalFields next = []) ∧
    ∀ form, changeFieldErrors state change form = [] → change.revision = state.revision + 1 →
      hasArrayAction change ∨ hasScalarAction change →
        ∃ structural,
          validateChangeStructure state change form = stateFieldErrors state ++ structural ∧
          (structural ≠ [] ↔ ∃ error, applyGroupChange state change = .error error) := by
  constructor
  · intro hvalid
    simp only [validateChangeStructure, append_eq_nil_iff] at hvalid
    obtain ⟨⟨hstate, hfields⟩, hstructural⟩ := hvalid
    have hchange : ChangeValid change := changeValid_of_errors hfields
    obtain ⟨-, hrevision, -, next, hnext⟩ := applied_of_structuralErrors hstructural
    have hbefore : FieldsValid state.revision state := (stateFieldErrors_eq_nil_iff.mp hstate).2
    obtain ⟨hnextRevision, hafter⟩ := applyGroupChange_keeps hchange hbefore hrevision hnext
    have herrors : stateFieldErrors next = [] := by
      refine stateFieldErrors_eq_nil_iff.mpr ⟨?_, ?_⟩
      · rw [hnextRevision]
        exact hchange.revisionValid
      · rw [hnextRevision]
        exact hafter
    simp only [stateFieldErrors, append_eq_nil_iff, and_assoc] at herrors
    exact ⟨next, hnext, herrors⟩
  · intro form hfields hrevision hactions
    refine ⟨structuralErrors state change, ?_, ?_⟩
    · rw [validateChangeStructure, hfields, append_nil]
    · rw [ne_eq, structuralErrors_eq_nil_iff hrevision hactions]
      cases applyGroupChange state change with
      | ok next => simp
      | error message => simp

def exampleMember (number : UInt8) (role : MemberRole) : DecryptedMember where
  aciBytes := List.replicate 16 number
  role
  profileKey := []
  joinedAtRevision := 0
  pniBytes := []
  labelEmoji := ""
  labelString := ""

def exampleInvitation : DecryptedPendingMember where
  serviceIdBytes := serviceIdAci :: List.replicate 16 3
  role := .default
  addedByAci := List.replicate 16 1
  timestamp := 5
  serviceIdCipherText := [9]
  quarantined := false

def exampleGroup : DecryptedGroup where
  title := "Group"
  avatar := ""
  disappearingMessagesTimer := 0
  accessControl :=
    { attributes := .member
      members := .member
      addFromInviteLink := .unsatisfiable
      memberLabel := .member }
  revision := 7
  members := [exampleMember 1 .administrator, exampleMember 2 .default]
  pendingMembers := [exampleInvitation]
  requestingMembers := []
  inviteLinkPassword := []
  description := ""
  isAnnouncementGroup := .disabled
  bannedMembers := []
  terminated := false

/-- The invited member joins and the second one leaves. -/
def examplePromotion : DecryptedGroupChange where
  editorServiceIdBytes := serviceIdAci :: List.replicate 16 1
  revision := 8
  deleteMembers := [List.replicate 16 2]
  promotePendingMembers :=
    [{ aciBytes := List.replicate 16 3
       profileKey := []
       role := some .default
       joinedAtRevision := some 8 }]

/-- The second member leaves twice. -/
def exampleDuplicate : DecryptedGroupChange where
  editorServiceIdBytes := serviceIdAci :: List.replicate 16 1
  revision := 8
  deleteMembers := [List.replicate 16 2, List.replicate 16 2]

theorem examples_validated :
    (∃ next, applyGroupChange exampleGroup examplePromotion = .ok next ∧
      validateGroupIdentifiers next = [] ∧ validateGroupAccessControl next = [] ∧
      validateGroupMemberRoles next = [] ∧ validateGroupCanonicalFields next = []) ∧
    ∃ structural,
      validateChangeStructure exampleGroup exampleDuplicate .canonical =
        stateFieldErrors exampleGroup ++ structural ∧
      (structural ≠ [] ↔ ∃ error, applyGroupChange exampleGroup exampleDuplicate = .error error) :=
  ⟨(validation_agrees_with_application exampleGroup examplePromotion).1 (by decide),
    (validation_agrees_with_application exampleGroup exampleDuplicate).2 .canonical
      (by decide) (by decide) (.inl (by decide))⟩

end SignalProtocol.Groups

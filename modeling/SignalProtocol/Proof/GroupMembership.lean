import SignalProtocol.Proof.GroupChanges
import SignalProtocol.Library.Transition

/-! # Rosters

The four lists of a state, without what a change of an entry may modify. -/

namespace SignalProtocol.Groups

open Results List

variable {α β : Type}

structure Roster where
  acis : List Bytes
  pending : List DecryptedPendingMember
  requesting : List DecryptedRequestingMember
  banned : List DecryptedBannedMember

def roster (group : DecryptedGroup) : Roster where
  acis := group.members.map DecryptedMember.aciBytes
  pending := group.pendingMembers
  requesting := group.requestingMembers
  banned := group.bannedMembers

namespace Roster

variable (encryptUuid : Bytes → Bytes)

def kept (before : Roster) (change : DecryptedGroupChange) : Roster where
  acis := change.deleteMembers.foldl (fun acis aci => acis.filter (· ≠ aci)) before.acis
  pending :=
    let left := change.deletePendingMembers.foldl
      (fun left removal => left.filter fun member => ¬ pendingTargetMatches member removal)
      before.pending
    let left := change.promotePendingMembers.foldl
      (fun left promotion => left.eraseP (hasServiceId (serviceIdAci :: promotion.aciBytes))) left
    change.promotePendingPniAciMembers.foldl
      (fun left promotion =>
        (left.eraseP (hasServiceId (serviceIdPni :: promotion.pniBytes))).filter fun member =>
          ¬ hasServiceId (serviceIdAci :: promotion.aciBytes) member) left
  requesting :=
    let left := change.deleteRequestingMembers.foldl
      (fun left target => left.filter fun member => ¬ requestingTargetMatches member target)
      before.requesting
    change.promoteRequestingMembers.foldl
      (fun left approval => left.eraseP (hasAci approval.aciBytes)) left
  banned := change.deleteBannedMembers.foldl
    (fun left removal => left.filter fun member => ¬ bannedTargetMatches member removal)
    before.banned

/-- The entries that a change adds, by promotions among them. -/
def added (change : DecryptedGroupChange) : Roster where
  acis :=
    change.promotePendingMembers.map DecryptedPendingMemberPromotion.aciBytes ++
    change.promotePendingPniAciMembers.map (fun promotion => promotion.aciBytes) ++
    change.promoteRequestingMembers.map DecryptedApproveMember.aciBytes ++
    change.newMembers.map DecryptedAddMember.aciBytes
  pending := change.newPendingMembers.map pendingEntry
  requesting := change.newRequestingMembers.map requestingEntry
  banned := change.newBannedMembers.map bannedEntry

def append (first second : Roster) : Roster where
  acis := first.acis ++ second.acis
  pending := first.pending ++ second.pending
  requesting := first.requesting ++ second.requesting
  banned := first.banned ++ second.banned

def userIds (encryptUuid : Bytes → Bytes) (entries : Roster) : List Bytes :=
  entries.acis.map (fun aci => encryptUuid (serviceIdAci :: aci)) ++
  entries.pending.map (pendingUserId encryptUuid) ++
  entries.requesting.map (requestingUserId encryptUuid) ++
  entries.banned.map (bannedUserId encryptUuid)

theorem userIds_append_perm (first second : Roster) :
    ((first.append second).userIds encryptUuid).Perm
      (first.userIds encryptUuid ++ second.userIds encryptUuid) := by
  rw [perm_iff_count]
  intro userId
  simp only [userIds, append, map_append, count_append]
  omega

theorem foldl_sublist {update : List α → β → List α}
    (hupdate : ∀ entries change, (update entries change).Sublist entries) (changes : List β)
    (entries : List α) : (changes.foldl update entries).Sublist entries := by
  induction changes generalizing entries with
  | nil => exact List.Sublist.refl entries
  | cons change changes ih => exact (ih (update entries change)).trans (hupdate entries change)

theorem userIds_kept_sublist (before : Roster) (change : DecryptedGroupChange) :
    ((before.kept change).userIds encryptUuid).Sublist (before.userIds encryptUuid) := by
  have hacis : (before.kept change).acis.Sublist before.acis :=
    foldl_sublist (fun _ _ => filter_sublist) _ _
  have hpend : (before.kept change).pending.Sublist before.pending :=
    ((foldl_sublist (fun _ _ => filter_sublist.trans eraseP_sublist) _ _).trans
      (foldl_sublist (fun _ _ => eraseP_sublist) _ _)).trans
        (foldl_sublist (fun _ _ => filter_sublist) _ _)
  have hreq : (before.kept change).requesting.Sublist before.requesting :=
    (foldl_sublist (fun _ _ => eraseP_sublist) _ _).trans
      (foldl_sublist (fun _ _ => filter_sublist) _ _)
  have hbanned : (before.kept change).banned.Sublist before.banned :=
    foldl_sublist (fun _ _ => filter_sublist) _ _
  unfold userIds
  exact (((hacis.map _).append (hpend.map _)).append (hreq.map _)).append
    (hbanned.map _)

end Roster

/-! ## The roster after a list of actions -/

theorem Roster.foldl_mk (acis : List Bytes → α → List Bytes)
    (pending : List DecryptedPendingMember → α → List DecryptedPendingMember)
    (requesting : List DecryptedRequestingMember → α → List DecryptedRequestingMember)
    (banned : List DecryptedBannedMember → α → List DecryptedBannedMember) (entries : List α)
    (before : Roster) :
    entries.foldl (fun before entry => (⟨acis before.acis entry, pending before.pending entry,
        requesting before.requesting entry, banned before.banned entry⟩ : Roster)) before =
      ⟨entries.foldl acis before.acis, entries.foldl pending before.pending,
        entries.foldl requesting before.requesting, entries.foldl banned before.banned⟩ := by
  induction entries generalizing before with
  | nil => rfl
  | cons entry entries ih => exact ih _

abbrev same {α β : Type} (entries : List α) (_ : β) : List α := entries

@[simp] theorem foldl_same (entries : List α) (changes : List β) :
    changes.foldl same entries = entries :=
  foldl_fixed changes

@[simp] theorem foldl_append_entry (entry : β → α) (entries : List α) (changes : List β) :
    changes.foldl (fun entries change => entries ++ [entry change]) entries =
      entries ++ changes.map entry := by
  induction changes generalizing entries with
  | nil => simp
  | cons change changes ih => simp [ih]

section Phases

variable {state next : DecryptedGroup} {change : DecryptedGroupChange}

theorem roster_foldlM {action : Action α} {entries : List α} (acis : List Bytes → α → List Bytes)
    (pending : List DecryptedPendingMember → α → List DecryptedPendingMember)
    (requesting : List DecryptedRequestingMember → α → List DecryptedRequestingMember)
    (banned : List DecryptedBannedMember → α → List DecryptedBannedMember)
    (hstep : ∀ state entry next, action state entry = .ok next →
      roster next = ⟨acis (roster state).acis entry, pending (roster state).pending entry,
        requesting (roster state).requesting entry, banned (roster state).banned entry⟩)
    (hrun : entries.foldlM action state = .ok next) :
    roster next = ⟨entries.foldl acis (roster state).acis,
      entries.foldl pending (roster state).pending,
      entries.foldl requesting (roster state).requesting,
      entries.foldl banned (roster state).banned⟩ := by
  rw [← Roster.foldl_mk]
  exact foldlM_view roster hstep hrun

theorem roster_deletions (hok : applyDeletions state change = .ok next) :
    roster next =
      { acis := change.deleteMembers.foldl (fun acis aci => acis.filter (· ≠ aci))
          (roster state).acis
        pending := change.deletePendingMembers.foldl
          (fun left removal => left.filter fun member => ¬ pendingTargetMatches member removal)
          (roster state).pending
        requesting := change.deleteRequestingMembers.foldl
          (fun left target => left.filter fun member => ¬ requestingTargetMatches member target)
          (roster state).requesting
        banned := change.deleteBannedMembers.foldl
          (fun left removal => left.filter fun member => ¬ bannedTargetMatches member removal)
          (roster state).banned } := by
  simp only [applyDeletions, bind_eq_ok_iff] at hok
  obtain ⟨first, hfst, second, hsnd, third, hthird, hnext⟩ := hok
  have hpend := roster_foldlM same
    (fun left removal => left.filter fun member => ¬ pendingTargetMatches member removal) same same
    (fun _ _ _ hstep => by rw [(deletePendingMember_eq_ok hstep).2]; rfl) hfst
  have hreq := roster_foldlM same same
    (fun left target => left.filter fun member => ¬ requestingTargetMatches member target) same
    (fun _ _ _ hstep => by rw [(deleteRequestingMember_eq_ok hstep).2]; rfl) hsnd
  have hbanned := roster_foldlM same same same
    (fun left removal => left.filter fun member => ¬ bannedTargetMatches member removal)
    (fun _ _ _ hstep => by rw [(deleteBannedMember_eq_ok hstep).2]; rfl) hthird
  have hmembers := roster_foldlM (fun acis aci => acis.filter (· ≠ aci)) same same same
    (fun state aci next hstep => by
      rw [(deleteMember_eq_ok hstep).2]
      simp only [roster, filter_map]
      rfl) hnext
  rw [hmembers, hbanned, hreq, hpend]
  simp only [foldl_same]

theorem roster_bans (hok : applyBans state change = .ok next) :
    roster next =
      { roster state with
        banned := (roster state).banned ++ change.newBannedMembers.map bannedEntry } := by
  have hbanned := roster_foldlM same same same (fun left banned => left ++ [bannedEntry banned])
    (fun _ _ _ hstep => by rw [(banMember_eq_ok hstep).2]; rfl) hok
  rw [hbanned]
  simp only [foldl_same, foldl_append_entry]

theorem roster_promotions (hok : applyPromotions state change = .ok next) :
    roster next =
      { acis := (roster state).acis ++
          change.promotePendingMembers.map DecryptedPendingMemberPromotion.aciBytes ++
          change.promotePendingPniAciMembers.map (fun promotion => promotion.aciBytes) ++
          change.promoteRequestingMembers.map DecryptedApproveMember.aciBytes
        pending := change.promotePendingPniAciMembers.foldl
          (fun left promotion =>
            (left.eraseP (hasServiceId (serviceIdPni :: promotion.pniBytes))).filter fun member =>
              ¬ hasServiceId (serviceIdAci :: promotion.aciBytes) member)
          (change.promotePendingMembers.foldl (fun left promotion =>
            left.eraseP (hasServiceId (serviceIdAci :: promotion.aciBytes))) (roster state).pending)
        requesting := change.promoteRequestingMembers.foldl
          (fun left approval => left.eraseP (hasAci approval.aciBytes)) (roster state).requesting
        banned := (roster state).banned } := by
  simp only [applyPromotions, bind_eq_ok_iff] at hok
  obtain ⟨first, hfst, second, hsnd, hnext⟩ := hok
  have hpend := roster_foldlM
    (fun acis promotion => acis ++ [DecryptedPendingMemberPromotion.aciBytes promotion])
    (fun left promotion => left.eraseP (hasServiceId (serviceIdAci :: promotion.aciBytes)))
    same same
    (fun state promotion next hstep => by
      obtain ⟨-, -, pending, -, rfl⟩ := promotePendingMember_eq_ok hstep
      simp [roster, memberFromPromotion, newMember]) hfst
  have hpniAci := roster_foldlM
    (fun acis promotion => acis ++ [promotion.aciBytes])
    (fun left promotion =>
      (left.eraseP (hasServiceId (serviceIdPni :: promotion.pniBytes))).filter fun member =>
        ¬ hasServiceId (serviceIdAci :: promotion.aciBytes) member) same same
    (fun state promotion next hstep => by
      obtain ⟨-, -, -, pending, -, rfl⟩ := promotePendingPniAciMember_eq_ok hstep
      simp [roster, memberFromPromotion, newMember]) hsnd
  have hreq := roster_foldlM
    (fun acis approval => acis ++ [DecryptedApproveMember.aciBytes approval]) same
    (fun left approval => left.eraseP (hasAci approval.aciBytes)) same
    (fun state approval next hstep => by
      obtain ⟨-, requesting, -, rfl⟩ := promoteRequestingMember_eq_ok hstep
      simp [roster, newMember]) hnext
  rw [hreq, hpniAci, hpend]
  simp only [foldl_same, foldl_append_entry]

theorem roster_additions (hok : applyAdditions state change = .ok next) :
    roster next =
      { acis := (roster state).acis ++ change.newMembers.map DecryptedAddMember.aciBytes
        pending := (roster state).pending ++ change.newPendingMembers.map pendingEntry
        requesting :=
          (roster state).requesting ++ change.newRequestingMembers.map requestingEntry
        banned := (roster state).banned } := by
  simp only [applyAdditions, bind_eq_ok_iff] at hok
  obtain ⟨first, hfst, second, hsnd, hnext⟩ := hok
  have hmembers := roster_foldlM
    (fun acis member => acis ++ [DecryptedAddMember.aciBytes member]) same same same
    (fun state member next hstep => by
      obtain ⟨-, rfl⟩ := addMember_eq_ok hstep
      simp [roster, newMember]) hfst
  have hpend := roster_foldlM same (fun left pending => left ++ [pendingEntry pending]) same
    same (fun _ _ _ hstep => by rw [(addPendingMember_eq_ok hstep).2]; rfl) hsnd
  have hreq := roster_foldlM same same
    (fun left requesting => left ++ [requestingEntry requesting]) same
    (fun _ _ _ hstep => by rw [(addRequestingMember_eq_ok hstep).2]; rfl) hnext
  rw [hreq, hpend, hmembers]
  simp only [foldl_same, foldl_append_entry]

theorem roster_modifyMember {aciBytes : Bytes} {modification : DecryptedMember → DecryptedMember}
    {message : String} (hok : modifyMember aciBytes modification message state = .ok next)
    (hkeeps : ∀ member, (modification member).aciBytes = member.aciBytes) :
    roster next = roster state := by
  obtain ⟨members, hmembers, rfl⟩ := modifyMember_eq_ok hok
  have hacis := map_of_modifyFirst DecryptedMember.aciBytes hkeeps hmembers
  simp [roster, hacis]

theorem roster_modifications (hok : applyMemberModifications state change = .ok next) :
    roster next = roster state := by
  simp only [applyMemberModifications, bind_eq_ok_iff] at hok
  obtain ⟨first, hfst, second, hsnd, hnext⟩ := hok
  have hroles := roster_foldlM same same same same
    (fun state modification next hstep => by
      unfold modifyMemberRole at hstep
      exact roster_modifyMember hstep fun _ => rfl) hfst
  have hlabels := roster_foldlM same same same same
    (fun state modification next hstep => by
      unfold modifyMemberLabel at hstep
      exact roster_modifyMember hstep fun _ => rfl) hsnd
  have hprofileKeys := roster_foldlM same same same same
    (fun state modification next hstep => by
      unfold modifyProfileKey at hstep
      exact roster_modifyMember hstep fun _ => rfl) hnext
  rw [hprofileKeys, hlabels, hroles]
  simp only [foldl_same]

theorem roster_termination (hok : applyTermination state change = .ok next) :
    roster next = roster state := by
  unfold applyTermination at hok
  split at hok
  · cases hok
    rfl
  · cases hok
    rfl
  · cases hok

theorem roster_applyGroupChange (hok : applyGroupChange state change = .ok next) :
    roster next = ((roster state).kept change).append (Roster.added change) := by
  simp only [applyGroupChange] at hok
  split at hok
  · cases hok
  · split at hok
    · cases hok
    · simp only [bind_eq_ok_iff] at hok
      obtain ⟨deleted, hdeleted, banned, hbanned, promoted, hpromoted, added, hadded, modified,
        hmod, final, hfinal, hnext⟩ := hok
      cases hnext
      calc
        roster { final with revision := change.revision } = roster final := rfl
        _ = roster (applyAttributesAndAccessControl modified change) := roster_termination hfinal
        _ = roster modified := rfl
        _ = roster added := roster_modifications hmod
        _ = ((roster state).kept change).append (Roster.added change) := by
          rw [roster_additions hadded, roster_promotions hpromoted, roster_bans hbanned,
            roster_deletions hdeleted]
          simp only [Roster.kept, Roster.added, Roster.append, append_assoc]

end Phases

end SignalProtocol.Groups

/-! ## Membership rules after a change

A verified change keeps the membership rules of the wire exactly when the principals that it adds
are apart from each other and from the entries that it keeps, and no list grows beyond its cap. -/

namespace SignalProtocol.Groups

open Results List

section Wire

variable {encryptUuid : Bytes → Bytes}

theorem occupyAll_eq_ok_iff {occupied : List Bytes} {entries : List (String × Bytes)} :
    occupyAll occupied entries = .ok () ↔
      (entries.map Prod.snd).Nodup ∧ ∀ key ∈ entries.map Prod.snd, key ∉ occupied := by
  induction entries generalizing occupied with
  | nil => simp [occupyAll]
  | cons entry entries ih =>
    obtain ⟨label, key⟩ := entry
    unfold occupyAll
    split
    · next hoccupied =>
        have hmem : key ∈ occupied := by simpa using hoccupied
        simp [hmem]
    · next hfree =>
        have habsent : key ∉ occupied := by simpa using hfree
        rw [ih]
        simp only [map_cons, nodup_cons]
        constructor
        · rintro ⟨hnodup, hrest⟩
          refine ⟨⟨fun hmem => hrest key hmem mem_cons_self, hnodup⟩, ?_⟩
          intro other hmem
          obtain rfl | hlater := mem_cons.mp hmem
          · exact habsent
          · exact fun hocc => hrest other hlater (mem_cons_of_mem _ hocc)
        · rintro ⟨⟨hnew, hnodup⟩, hrest⟩
          refine ⟨hnodup, fun other hmem hocc => ?_⟩
          obtain rfl | hprev := mem_cons.mp hocc
          · exact hnew hmem
          · exact hrest other (mem_cons_of_mem _ hmem) hprev

theorem labelled_snd {α : Type} (label : String) (userId : α → Bytes) (entries : List α) :
    (labelled label userId entries).map Prod.snd = entries.map userId := by
  calc
    (labelled label userId entries).map Prod.snd
      = (entries.zipIdx.map Prod.fst).map userId := by
        simp only [labelled, map_map]
        rfl
    _ = entries.map userId := by rw [List.zipIdx_map_fst]

theorem occupants_snd (encryptUuid : Bytes → Bytes) (group : DecryptedGroup) :
    (occupants encryptUuid group).map Prod.snd = (roster group).userIds encryptUuid := by
  simp only [occupants, map_append, labelled_snd, Roster.userIds, roster, map_map]
  rfl

structure WireRules (encryptUuid : Bytes → Bytes) (group : DecryptedGroup) : Prop where
  distinct : ((roster group).userIds encryptUuid).Nodup
  members_le : group.members.length ≤ 1000
  pending_le : group.pendingMembers.length ≤ 1000
  requesting_le : group.requestingMembers.length ≤ 1000
  banned_le : group.bannedMembers.length ≤ 1000
  administrator : satisfiesLiveGroupAdministratorInvariant group = true

theorem assertValidEncryptedGroupMembership_eq_ok_iff {group : DecryptedGroup} :
    assertValidEncryptedGroupMembership encryptUuid group = .ok () ↔
      WireRules encryptUuid group := by
  have hoccupy : occupyAll [] (occupants encryptUuid group) = .ok () ↔
      ((roster group).userIds encryptUuid).Nodup := by
    simp [occupyAll_eq_ok_iff, ← occupants_snd]
  unfold assertValidEncryptedGroupMembership
  constructor
  · intro hok
    have hmembers : group.members.length ≤ 1000 := by
      by_contra hlarge
      simp [Nat.not_le.mp hlarge] at hok
    have hpend : group.pendingMembers.length ≤ 1000 := by
      by_contra hlarge
      simp [Nat.not_lt.mpr hmembers, Nat.not_le.mp hlarge] at hok
    have hreq : group.requestingMembers.length ≤ 1000 := by
      by_contra hlarge
      simp [Nat.not_lt.mpr hmembers, Nat.not_lt.mpr hpend, Nat.not_le.mp hlarge] at hok
    have hbanned : group.bannedMembers.length ≤ 1000 := by
      by_contra hlarge
      simp [Nat.not_lt.mpr hmembers, Nat.not_lt.mpr hpend, Nat.not_lt.mpr hreq,
        Nat.not_le.mp hlarge] at hok
    simp only [Nat.not_lt.mpr hmembers, Nat.not_lt.mpr hpend, Nat.not_lt.mpr hreq,
      Nat.not_lt.mpr hbanned, if_false, bind_eq_ok_iff] at hok
    obtain ⟨⟨⟩, hoccupied, hadmin⟩ := hok
    refine ⟨hoccupy.mp hoccupied, hmembers, hpend, hreq, hbanned, ?_⟩
    split at hadmin
    · assumption
    · cases hadmin
  · intro hrules
    have hoccupied := hoccupy.mpr hrules.distinct
    simp [hoccupied, hrules.administrator, Nat.not_lt.mpr hrules.members_le,
      Nat.not_lt.mpr hrules.pending_le, Nat.not_lt.mpr hrules.requesting_le,
      Nat.not_lt.mpr hrules.banned_le]

end Wire

section Verified

variable {state next : DecryptedGroup} {change : DecryptedGroupChange}

theorem applyVerifiedChange_eq_ok (hok : applyVerifiedChange state change = .ok next) :
    validateChangeAuthorization state change = [] ∧
      validateChangeStructure state change .canonical = [] ∧
      applyGroupChange state change = .ok next ∧
      satisfiesLiveGroupAdministratorInvariant next = true := by
  unfold applyVerifiedChange at hok
  by_cases hauth : validateChangeAuthorization state change = []
  · by_cases hstructural : validateChangeStructure state change .canonical = []
    · simp only [hauth, hstructural, ne_eq, not_true_eq_false, if_false, bind_eq_ok_iff] at hok
      obtain ⟨applied, happlied, hadmin⟩ := hok
      split at hadmin
      · next hlive =>
          cases hadmin
          exact ⟨hauth, hstructural, happlied, hlive⟩
      · cases hadmin
    · simp [hauth, hstructural] at hok
  · simp [hauth] at hok

/-- The principals that a change adds are apart, and every list has room for them. -/
structure AddsApart (encryptUuid : Bytes → Bytes) (state : DecryptedGroup)
    (change : DecryptedGroupChange) : Prop where
  once : ((Roster.added change).userIds encryptUuid).Nodup
  apart : ∀ userId ∈ (Roster.added change).userIds encryptUuid,
    userId ∉ ((roster state).kept change).userIds encryptUuid
  members_le :
    ((roster state).kept change).acis.length + (Roster.added change).acis.length ≤ 1000
  pending_le :
    ((roster state).kept change).pending.length + (Roster.added change).pending.length ≤ 1000
  requesting_le : ((roster state).kept change).requesting.length +
    (Roster.added change).requesting.length ≤ 1000
  banned_le :
    ((roster state).kept change).banned.length + (Roster.added change).banned.length ≤ 1000

theorem wireRules_iff_addsApart {encryptUuid : Bytes → Bytes} (hstate : WireRules encryptUuid state)
    (hok : applyVerifiedChange state change = .ok next) :
    WireRules encryptUuid next ↔ AddsApart encryptUuid state change := by
  obtain ⟨-, -, happlied, hadmin⟩ := applyVerifiedChange_eq_ok hok
  have hroster := roster_applyGroupChange happlied
  have hkept : (((roster state).kept change).userIds encryptUuid).Nodup :=
    (Roster.userIds_kept_sublist encryptUuid (roster state) change).nodup hstate.distinct
  have hdist : ((roster next).userIds encryptUuid).Nodup ↔
      ((Roster.added change).userIds encryptUuid).Nodup ∧
      ∀ userId ∈ (Roster.added change).userIds encryptUuid,
        userId ∉ ((roster state).kept change).userIds encryptUuid := by
    rw [hroster, (Roster.userIds_append_perm encryptUuid _ _).nodup_iff, nodup_append]
    constructor
    · rintro ⟨-, hadded, hdisjoint⟩
      exact ⟨hadded, fun userId hmem hold => hdisjoint userId hold userId hmem rfl⟩
    · rintro ⟨hadded, hdisjoint⟩
      refine ⟨hkept, hadded, fun userId hold other hmem heq => ?_⟩
      exact hdisjoint other hmem (heq ▸ hold)
  have hmembers : next.members.length =
      ((roster state).kept change).acis.length + (Roster.added change).acis.length := by
    have hacis := congrArg (fun entries => entries.acis.length) hroster
    simpa [roster, Roster.append] using hacis
  have hpend : next.pendingMembers.length =
      ((roster state).kept change).pending.length + (Roster.added change).pending.length := by
    have hlists := congrArg (fun entries => entries.pending.length) hroster
    simpa [roster, Roster.append] using hlists
  have hreq : next.requestingMembers.length =
      ((roster state).kept change).requesting.length + (Roster.added change).requesting.length := by
    have hlists := congrArg (fun entries => entries.requesting.length) hroster
    simpa [roster, Roster.append] using hlists
  have hbanned : next.bannedMembers.length =
      ((roster state).kept change).banned.length + (Roster.added change).banned.length := by
    have hlists := congrArg (fun entries => entries.banned.length) hroster
    simpa [roster, Roster.append] using hlists
  constructor
  · intro hrules
    obtain ⟨honce, hapart⟩ := hdist.mp hrules.distinct
    exact ⟨honce, hapart, hmembers ▸ hrules.members_le, hpend ▸ hrules.pending_le,
      hreq ▸ hrules.requesting_le, hbanned ▸ hrules.banned_le⟩
  · intro hadds
    exact ⟨hdist.mpr ⟨hadds.once, hadds.apart⟩, hmembers ▸ hadds.members_le,
      hpend ▸ hadds.pending_le, hreq ▸ hadds.requesting_le,
      hbanned ▸ hadds.banned_le, hadmin⟩

end Verified

/-- The states that verified changes lead to, as long as what they add is apart. -/
def apartChanges (encryptUuid : Bytes → Bytes) (start : DecryptedGroup) :
    TransitionSystem DecryptedGroup where
  init state := state = start
  step state next := ∃ change,
    applyVerifiedChange state change = .ok next ∧ AddsApart encryptUuid state change

/-- From a state that the wire accepts, a verified change leads to such a state exactly when what
it adds is apart, and a run of changes whose additions are apart never leaves these states. -/
theorem membership_after_verified_changes (encryptUuid : Bytes → Bytes) (start : DecryptedGroup)
    (hstart : assertValidEncryptedGroupMembership encryptUuid start = .ok ()) :
    (∀ change next, applyVerifiedChange start change = .ok next →
      (assertValidEncryptedGroupMembership encryptUuid next = .ok () ↔
        AddsApart encryptUuid start change)) ∧
    ∀ state, (apartChanges encryptUuid start).Reachable state →
      assertValidEncryptedGroupMembership encryptUuid state = .ok () := by
  simp only [assertValidEncryptedGroupMembership_eq_ok_iff] at hstart ⊢
  constructor
  · intro change next hok
    exact wireRules_iff_addsApart hstart hok
  · intro state hreachable
    refine hreachable.invariant ?_ ?_
    · rintro first rfl
      exact hstart
    · rintro before after hbefore ⟨change, hok, hapart⟩
      exact (wireRules_iff_addsApart hbefore hok).mpr hapart

/-- A ciphertext of 65 bytes. -/
def exampleUserId (serviceIdBytes : Bytes) : Bytes := serviceIdBytes ++ List.replicate 48 0

def exampleBan : DecryptedGroupChange where
  editorServiceIdBytes := serviceIdAci :: List.replicate 16 1
  revision := 8
  newBannedMembers :=
    [{ serviceIdBytes := serviceIdAci :: List.replicate 16 3
       timestamp := some 9
       serviceIdCipherText := none
       quarantined := false }]

theorem invited_and_banned :
    ¬ ∀ state change next,
      assertValidEncryptedGroupMembership exampleUserId state = .ok () →
      applyVerifiedChange state change = .ok next →
      assertValidEncryptedGroupMembership exampleUserId next = .ok () := by
  intro hrules
  let banned : DecryptedGroup :=
    { exampleGroup with
      revision := 8
      bannedMembers :=
        [{ serviceIdBytes := serviceIdAci :: List.replicate 16 3
           timestamp := 9
           serviceIdCipherText := none
           quarantined := false }] }
  have haccepted : assertValidEncryptedGroupMembership exampleUserId banned = .ok () :=
    hrules exampleGroup exampleBan banned (by decide) (by decide)
  have hrefused : assertValidEncryptedGroupMembership exampleUserId banned ≠ .ok () := by
    decide
  exact hrefused haccepted

def exampleRemoval : DecryptedGroupChange where
  editorServiceIdBytes := serviceIdAci :: List.replicate 16 1
  revision := 8
  deleteMembers := [List.replicate 16 2]
  newBannedMembers :=
    [{ serviceIdBytes := serviceIdAci :: List.replicate 16 2
       timestamp := some 9
       serviceIdCipherText := none
       quarantined := false }]

def exampleRemoved : DecryptedGroup :=
  { exampleGroup with
    revision := 8
    members := [exampleMember 1 .administrator]
    bannedMembers :=
      [{ serviceIdBytes := serviceIdAci :: List.replicate 16 2
         timestamp := 9
         serviceIdCipherText := none
         quarantined := false }] }

theorem exampleRemoval_apart : AddsApart exampleUserId exampleGroup exampleRemoval where
  once := by decide
  apart := by decide
  members_le := by decide
  pending_le := by decide
  requesting_le := by decide
  banned_le := by decide

theorem exampleRemoved_accepted :
    assertValidEncryptedGroupMembership exampleUserId exampleRemoved = .ok () :=
  (membership_after_verified_changes exampleUserId exampleGroup (by decide)).2
    exampleRemoved
    (.step (.of_init rfl) ⟨exampleRemoval, by decide, exampleRemoval_apart⟩)

end SignalProtocol.Groups

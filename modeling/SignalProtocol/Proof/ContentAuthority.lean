import SignalProtocol.Groups.ReceiveAuthorization

/-! # Authority of delivered group content

What an authorized verdict says about the stored state and the sender, and under which conversation
the application gets the content. -/

namespace SignalProtocol.Groups

open Results List

variable {state : DecryptedGroup} {claim : GroupContentClaim} {context : GroupContentContext}
  {environment : ReceiveEnvironment} {groupId authorized bound : String} {revision : ℤ}
  {transcript : Bool} {input : GroupReceiveInput} {evaluator : Option ReceiveEnvironment}

theorem hexDigit_isHexDigit {value : ℕ} (hval : value < 16) :
    isHexDigit (hexDigit value) = true := by
  have hall : ∀ value < 16, isHexDigit (hexDigit value) = true := by decide
  exact hall value hval

theorem bytesToHex_toList (bytes : Bytes) : (bytesToHex bytes).toList =
    bytes.flatMap fun byte => [hexDigit (byte.toNat / 16), hexDigit (byte.toNat % 16)] := by
  rw [bytesToHex, String.toList_ofList]

theorem GroupParams.groupIdOf_managed (params : GroupParams) (masterKey : Bytes) :
    isManagedGroupId (params.groupIdOf masterKey) = true := by
  rw [isManagedGroupId, decide_eq_true_iff, GroupParams.groupIdOf, bytesToHex_toList]
  constructor
  · rw [length_flatMap]
    simp [params.identifier_length]
  · rw [all_flatMap, all_eq_true]
    intro byte _
    have hbyte := byte.toNat_lt
    have hhigh := hexDigit_isHexDigit (show byte.toNat / 16 < 16 by omega)
    have hlow := hexDigit_isHexDigit (Nat.mod_lt byte.toNat (show 0 < 16 by decide))
    simp [hhigh, hlow]

section

variable (hmanaged : isManagedGroupId groupId = true)

include hmanaged

theorem managed_hexDigits :
    ∀ character ∈ groupId.toList, isHexDigit character = true := by
  obtain ⟨-, hdigits⟩ := of_decide_eq_true hmanaged
  exact all_eq_true.mp hdigits

theorem managed_ne_empty : groupId ≠ "" := by
  rintro rfl
  revert hmanaged
  decide

theorem extractGroupId_of_managed :
    extractGroupId groupId = groupId := by
  rw [extractGroupId, if_neg]
  intro hprefixed
  have hstarts := isPrefixOf_iff_prefix.mp hprefixed
  have hmember : 'o' ∈ groupId.toList := hstarts.subset (by decide)
  have hdigit := managed_hexDigits hmanaged 'o' hmember
  revert hdigit
  decide

end

theorem directConversationId_not_managed (userId recipientUserId : String) :
    isManagedGroupId (directConversationId userId recipientUserId) = false := by
  have hstart : ∀ first second : String, 'm' ∈ (s!"dm:{first}_{second}").toList := by
    intro first second
    change 'm' ∈ ("dm:" ++ first ++ "_" ++ second).toList
    rw [String.toList_append, String.toList_append, String.toList_append, append_assoc,
      append_assoc]
    exact mem_append_left _ (by decide)
  rw [Bool.eq_false_iff]
  intro hmanaged
  have hdigit : isHexDigit 'm' = true := by
    refine managed_hexDigits hmanaged 'm' ?_
    rw [directConversationId]
    split
    · exact hstart _ _
    · exact hstart _ _
  revert hdigit
  decide

/-- The stored state that a decision on a context reads: one that covers its revision, or the one
after the fetcher has answered that it is fresh for the claim. -/
def StoredFor (environment : ReceiveEnvironment) (groupId : String) (context : GroupContentContext)
    (state : DecryptedGroup) : Prop :=
  (environment.groupState groupId = some state ∧ context.revision ≤ state.revision) ∨
    (∃ revision, environment.ensureFresh groupId context.claim = .fresh revision) ∧
      environment.updatedState groupId = some state

def MaySend (environment : ReceiveEnvironment) (senderId : String) (state : DecryptedGroup) : Prop :=
  ∃ resolveAci senderAci, environment.resolveAci = some resolveAci ∧
    resolveAci senderId = .ok (some senderAci) ∧ hasMember state senderAci = true ∧
    canPerformAction state (serviceIdAci :: senderAci) .sendMessage {} = true

theorem stateFor_storedFor (hstate : stateFor environment groupId context = .ok state) :
    StoredFor environment groupId context state := by
  have hupdate : stateFor.update environment groupId context = .ok state →
      StoredFor environment groupId context state := by
    intro hfresh
    rw [stateFor.update] at hfresh
    cases hanswer : environment.ensureFresh groupId context.claim with
    | denied reason => rw [hanswer] at hfresh; cases hfresh
    | unavailable reason retryAfterMs => rw [hanswer] at hfresh; cases hfresh
    | fresh revision =>
      rw [hanswer] at hfresh
      dsimp only at hfresh
      cases hupdated : environment.updatedState groupId with
      | none => rw [hupdated] at hfresh; cases hfresh
      | some updated =>
        rw [hupdated] at hfresh
        cases hfresh
        exact .inr ⟨⟨revision, hanswer⟩, hupdated⟩
  rw [stateFor] at hstate
  cases hstored : environment.groupState groupId with
  | none =>
    rw [hstored] at hstate
    exact hupdate hstate
  | some stored =>
    rw [hstored] at hstate
    dsimp only at hstate
    split at hstate
    · rename_i hcovers
      cases hstate
      exact .inl ⟨hstored, hcovers⟩
    · exact hupdate hstate

theorem authorizeContent_authorized (hverdict : authorizeContent environment input groupId state =
      .ok (.authorized authorized revision)) :
    authorized = groupId ∧
    (∃ localAci, environment.localAci = some localAci ∧ hasMember state localAci = true) ∧
    (input.claim.transcript = true ∨ MaySend environment input.senderId state) := by
  rw [authorizeContent] at hverdict
  cases hlocal : environment.localAci with
  | none => rw [hlocal] at hverdict; cases hverdict
  | some localAci =>
  cases hresolve : environment.resolveAci with
  | none => rw [hlocal, hresolve] at hverdict; cases hverdict
  | some resolveAci =>
    rw [hlocal, hresolve] at hverdict
    dsimp only at hverdict
    split at hverdict
    · cases hverdict
    rename_i hmember
    have hlocalMember : ∃ aci, some localAci = some aci ∧ hasMember state aci = true :=
      ⟨localAci, rfl, not_not.mp hmember⟩
    split at hverdict
    · rename_i htranscript
      cases hverdict
      exact ⟨rfl, hlocalMember, .inl htranscript⟩
    cases hsender : resolveAci input.senderId with
    | error error => rw [hsender] at hverdict; cases hverdict
    | ok found =>
      cases found with
      | none => rw [hsender] at hverdict; cases hverdict
      | some senderAci =>
        rw [hsender] at hverdict
        dsimp only at hverdict
        split at hverdict
        · cases hverdict
        rename_i hsenderMember
        obtain ⟨serviceId, hserviceId, hrole⟩ := bind_eq_ok_iff.mp hverdict
        rw [serviceIdBinary] at hserviceId
        split at hserviceId
        · cases hserviceId
        cases hserviceId
        split at hrole
        · cases hrole
        rename_i hsend
        cases hrole
        exact ⟨rfl, hlocalMember, .inr ⟨resolveAci, senderAci, hresolve, hsender,
          not_not.mp hsenderMember, not_not.mp hsend⟩⟩

structure AuthorizedClaim (params : GroupParams) (environment : ReceiveEnvironment)
    (input : GroupReceiveInput) (groupId : String) (context : GroupContentContext)
    (state : DecryptedGroup) : Prop where
  context_eq : input.claim.context = some (.decoded context)
  valid : context.isValid = true
  derives : params.groupIdOf context.masterKey = groupId
  bound : ∀ bound, input.claim.groupId = some bound → bound = groupId
  stored : StoredFor environment groupId context state
  recipient : ∃ localAci, environment.localAci = some localAci ∧ hasMember state localAci = true
  sender : input.claim.transcript = true ∨ MaySend environment input.senderId state

theorem stateFor_error :
    stateFor environment groupId context ≠ .error (.authorized authorized revision) := by
  have hupdate : stateFor.update environment groupId context ≠
      .error (.authorized authorized revision) := by
    rw [stateFor.update]
    split
    · rintro ⟨⟩
    · rintro ⟨⟩
    · split
      · rintro ⟨⟩
      · rintro ⟨⟩
  rw [stateFor]
  split
  · split
    · rintro ⟨⟩
    · exact hupdate
  · exact hupdate

theorem groupOfContext_eq_ok {params : GroupParams}
    (hgroup : groupOfContext params claim = .ok ⟨groupId, some context⟩) :
    claim.context = some (.decoded context) ∧ context.isValid = true ∧
      params.groupIdOf context.masterKey = groupId ∧
      ∀ bound, claim.groupId = some bound → bound = groupId := by
  rw [groupOfContext] at hgroup
  cases hctx : claim.context with
  | none => rw [hctx] at hgroup; cases hgroup
  | some member =>
    cases member with
    | malformed => rw [hctx] at hgroup; cases hgroup
    | decoded decoded =>
      rw [hctx] at hgroup
      dsimp only at hgroup
      split at hgroup
      · cases hgroup
      rename_i hvalid
      split at hgroup
      · cases hgroup
      rename_i hmismatch
      cases hgroup
      refine ⟨rfl, not_not.mp hvalid, rfl, fun bound hbound => ?_⟩
      by_contra hne
      exact hmismatch ⟨by rw [hbound]; rfl, by rw [hbound]; simpa using hne⟩

theorem evaluateGroupContent_authorized {params : GroupParams}
    (hverdict : evaluateGroupContent params environment input =
      .ok (.authorized groupId revision)) :
    ∃ context state, AuthorizedClaim params environment input groupId context state := by
  rw [evaluateGroupContent] at hverdict
  cases hgroup : groupOfContext params input.claim with
  | error denial => rw [hgroup] at hverdict; cases hverdict
  | ok group =>
    obtain ⟨named, carried⟩ := group
    rw [hgroup] at hverdict
    dsimp only at hverdict
    unfold evaluate at hverdict
    split at hverdict
    · cases hverdict
    split at hverdict
    · cases hverdict
    split at hverdict
    · cases hverdict
    cases carried with
    | none => cases hverdict
    | some context =>
      dsimp only at hverdict
      cases hstate : stateFor environment named context with
      | error verdict =>
        rw [hstate] at hverdict
        cases hverdict
        exact absurd hstate stateFor_error
      | ok state =>
        rw [hstate] at hverdict
        obtain ⟨rfl, hrecip, hsender⟩ := authorizeContent_authorized hverdict
        obtain ⟨hctx, hvalid, hderives, hbound⟩ := groupOfContext_eq_ok hgroup
        exact ⟨context, state, hctx, hvalid, hderives, hbound, stateFor_storedFor hstate,
          hrecip, hsender⟩

section

variable {ownUserId : String} (content : CommittedContent ownUserId)

def CommittedContent.boundGroup : Option String :=
  match content.transportGroupId with
  | some transportGroupId => some (extractGroupId transportGroupId)
  | none =>
    if content.inspected.senderKeyDistributionOnly then none else content.distributionGroupId

/-- The claim that `decideGroupContent` classifies. -/
def CommittedContent.claimed : Option GroupContentClaim :=
  classifyGroupContent
    (if content.messageType = senderKeyType then content.transportGroupId else none)
    content.inspected

inductive Classified : Option GroupContentClaim → Option String → Prop where
  | bound (bound raw : String) (hbound : content.boundGroup = some bound)
      (hraw : bound = raw ∨ bound = extractGroupId raw) :
      Classified (boundClaim bound content.inspected.groupContext false) (some raw)
  | transcript (destination : String) (hbound : content.boundGroup = none)
      (hdestination : content.inspected.destination = some destination) :
      Classified (boundClaim destination content.inspected.groupContext true) none
  | pairwise (hbound : content.boundGroup = none)
      (hdestination : content.inspected.destination = none) :
      Classified (content.inspected.groupContext.map fun context => ⟨none, some context, false⟩) none
  | distributionOnly (hbound : content.boundGroup = none)
      (hdestination : content.inspected.destination = none) : Classified none none

theorem CommittedContent.classified :
    Classified content content.claimed (resolvedGroupIdOf content) := by
  have htransport : (if content.messageType = senderKeyType then content.transportGroupId
      else none) = content.transportGroupId := by
    split
    · rfl
    · rename_i htype
      have hnone := mt content.transport_iff.mp htype
      exact (Option.not_isSome_iff_eq_none.mp hnone).symm
  rw [claimed, htransport, resolvedGroupIdOf]
  unfold classifyGroupContent
  cases hgroup : content.transportGroupId with
  | some transportGroupId =>
    refine .bound _ _ ?_ (.inr rfl)
    rw [boundGroup, hgroup]
  | none =>
    dsimp only
    rw [Option.none_or]
    cases hlabel : content.inspected.senderKeyDistribution with
    | some label =>
      have hdistribution : content.distributionGroupId = some (extractGroupId label) := by
        rw [distributionGroupId, hlabel, Option.map_some]
      dsimp only
      cases honly : content.inspected.senderKeyDistributionOnly with
      | true =>
        have hsync : content.inspected.sync = none := inspectContent_only honly
        refine .distributionOnly ?_ ?_
        · rw [boundGroup, hgroup, honly]
          rfl
        · rw [InspectedContent.destination, hsync]
          rfl
      | false =>
        rw [if_neg (by simp), hdistribution]
        refine .bound _ _ ?_ (.inl rfl)
        rw [boundGroup, hgroup, honly, hdistribution]
        rfl
    | none =>
      have hdistribution : content.distributionGroupId = none := by
        rw [distributionGroupId, hlabel, Option.map_none]
      have hbound : content.boundGroup = none := by
        rw [boundGroup, hgroup, hdistribution]
        exact ite_self none
      rw [hdistribution, ite_self]
      dsimp only
      cases hsync : content.inspected.sync with
      | none =>
        exact .pairwise hbound (by rw [InspectedContent.destination, hsync]; rfl)
      | some sync =>
        cases sync with
        | sent destination =>
          exact .transcript destination hbound
            (by rw [InspectedContent.destination, hsync]; rfl)
        | other => exact .pairwise hbound (by rw [InspectedContent.destination, hsync]; rfl)

theorem CommittedContent.sender_eq {destination : String}
    (hdest : content.inspected.destination = some destination) :
    content.senderUserId = ownUserId := by
  have hsync : content.inspected.sync.isSome = true := by
    cases hcase : content.inspected.sync with
    | none =>
      rw [InspectedContent.destination, hcase] at hdest
      cases hdest
    | some sync => rfl
  have hcheck := content.checked
  rw [checkCommittedContent] at hcheck
  split at hcheck
  · cases hcheck
  obtain ⟨_, hrefuse, -⟩ := bind_eq_ok_iff.mp hcheck
  rw [refuseSyncFromOtherAccount] at hrefuse
  split at hrefuse
  · cases hrefuse
  · rename_i hown
    by_contra hother
    exact hown ⟨hsync, hother⟩

/-- The conversation of an envelope: the destination of a transcript, the group, or the sender. -/
theorem conversationId_eq (groupId : Option String) :
    (decryptedEnvelopeOf content groupId).conversationId =
      orElseText content.inspected.destination
        (orElseText groupId (directConversationId ownUserId content.senderUserId)) := by
  have hconv : content.inspected.conversationId = content.inspected.destination :=
    inspectContent_conversationId content.plaintext
  rw [decryptedEnvelopeOf]
  dsimp only
  split
  · rename_i htransport
    obtain ⟨-, hother⟩ := of_decide_eq_true htransport
    have hnone : content.inspected.destination = none := by
      cases hdest : content.inspected.destination with
      | none => rfl
      | some destination => exact absurd (content.sender_eq hdest) hother
    rw [hnone]
    cases groupId with
    | none => rfl
    | some groupId =>
      by_cases hempty : groupId = ""
      · simp [orElseText, hempty]
      · simp [orElseText, hempty]
  · rw [hconv]

/-! ## Authority -/

/-- The authority behind content that is delivered under a managed group: a valid context that
derives the group, a verified state that covers it, the own account among its members, and a sender
who is the own account with a transcript or a member who may send. -/
structure HasAuthority (params : GroupParams) (environment : ReceiveEnvironment)
    (groupId : String) : Prop where
  state : ∃ context state, content.inspected.groupContext = some (.decoded context) ∧
    context.isValid = true ∧ params.groupIdOf context.masterKey = groupId ∧
    StoredFor environment groupId context state ∧
    (∃ localAci, environment.localAci = some localAci ∧ hasMember state localAci = true) ∧
    ((content.inspected.destination.isSome ∧ content.senderUserId = ownUserId) ∨
      MaySend environment content.senderUserId state)

/-- Content of a managed group is delivered with authority, and content that its transport binds to
a managed group is delivered under that group. -/
def DeliversWithAuthority (params : GroupParams) : Prop :=
  ∀ evaluator groupId, decideGroupContent params evaluator content = .ok (.authorized groupId) →
    (isManagedGroupId (decryptedEnvelopeOf content groupId).conversationId = true →
      ∃ environment, evaluator = some environment ∧
        HasAuthority content params environment
          (decryptedEnvelopeOf content groupId).conversationId) ∧
    ∀ bound, content.boundGroup = some bound → isManagedGroupId bound = true →
      (decryptedEnvelopeOf content groupId).conversationId = bound

/-- A transcript to another conversation in content that its transport binds to a group: a managed
destination with no context, or a context of the bound group. -/
def Misdirected (params : GroupParams) : Prop :=
  ∃ bound destination, content.boundGroup = some bound ∧
    content.inspected.destination = some destination ∧ destination ≠ "" ∧ destination ≠ bound ∧
    ((content.inspected.groupContext = none ∧ isManagedGroupId bound = false ∧
        isManagedGroupId destination = true) ∨
      ∃ context, content.inspected.groupContext = some (.decoded context) ∧
        context.isValid = true ∧ params.groupIdOf context.masterKey = bound)

variable {content} {params : GroupParams}

theorem decideGroupContent_of_claim {groupId : Option String}
    (hclaim : content.claimed = some claim)
    (hdecided : decideGroupContent params evaluator content = .ok (.authorized groupId)) :
    ∃ environment authorized context state, evaluator = some environment ∧
      AuthorizedClaim params environment
        ⟨claim, content.senderUserId, content.senderDeviceId⟩ authorized context state ∧
      groupId = if claim.transcript then resolvedGroupIdOf content else some authorized := by
  unfold decideGroupContent at hdecided
  rw [CommittedContent.claimed] at hclaim
  dsimp only at hdecided
  rw [hclaim] at hdecided
  cases evaluator with
  | none => cases hdecided
  | some environment =>
    dsimp only at hdecided
    obtain ⟨verdict, hverdict, hrest⟩ := bind_eq_ok_iff.mp hdecided
    cases verdict with
    | denied reason => cases hrest
    | unavailable reason retryAfterMs => cases hrest
    | authorized authorized revision =>
      obtain ⟨context, state, hauth⟩ := evaluateGroupContent_authorized hverdict
      cases hrest
      exact ⟨environment, authorized, context, state, rfl, hauth, rfl⟩

theorem decideGroupContent_of_none (hclaim : content.claimed = none) :
    decideGroupContent params evaluator content =
      .ok (.authorized (resolvedGroupIdOf content)) := by
  unfold decideGroupContent
  rw [CommittedContent.claimed] at hclaim
  dsimp only
  rw [hclaim]
  rfl

theorem boundClaim_eq_none {context : Option ContextMember}
    (hnone : boundClaim bound context transcript = none) :
    context = none ∧ isManagedGroupId bound = false := by
  rw [boundClaim] at hnone
  split at hnone
  · cases hnone
  · rename_i hneither
    rw [not_or, Option.not_isSome_iff_eq_none, Bool.not_eq_true] at hneither
    exact hneither

theorem boundClaim_eq_some {context : Option ContextMember}
    (hsome : boundClaim bound context transcript = some claim) :
    claim = ⟨some bound, context, transcript⟩ := by
  rw [boundClaim] at hsome
  split at hsome
  · exact (Option.some.inj hsome).symm
  · cases hsome

section

variable (hdirected : ¬ Misdirected content params)

include hdirected

theorem unclaimed_not_managed (hclaim : content.claimed = none) :
    isManagedGroupId (decryptedEnvelopeOf content (resolvedGroupIdOf content)).conversationId =
      false ∧
    ∀ bound, content.boundGroup = some bound → isManagedGroupId bound = false := by
  have hdirect := directConversationId_not_managed ownUserId content.senderUserId
  have hclassified := content.classified
  rw [hclaim] at hclassified
  rw [conversationId_eq]
  generalize resolvedGroupIdOf content = resolved at hclassified
  generalize hnone : (none : Option GroupContentClaim) = claimed at hclassified
  cases hclassified with
  | bound bound raw hbound hraw =>
    obtain ⟨hctx, hunmanaged⟩ := boundClaim_eq_none hnone.symm
    refine ⟨?_, fun other hother => ?_⟩
    swap
    · cases hbound.symm.trans hother
      exact hunmanaged
    have hrawUnmanaged : isManagedGroupId raw = false := by
      rcases hraw with rfl | rfl
      · exact hunmanaged
      · rw [Bool.eq_false_iff]
        intro hmanaged
        rw [extractGroupId_of_managed hmanaged, hmanaged] at hunmanaged
        cases hunmanaged
    have hgroup : isManagedGroupId (orElseText (some raw)
        (directConversationId ownUserId content.senderUserId)) = false := by
      rw [orElseText]
      split
      · exact hdirect
      · exact hrawUnmanaged
    cases hdest : content.inspected.destination with
    | none => exact hgroup
    | some destination =>
      rw [orElseText]
      split
      · exact hgroup
      rename_i hnonempty
      rw [Bool.eq_false_iff]
      intro hmanaged
      refine hdirected ⟨bound, destination, hbound, hdest, hnonempty, ?_,
        .inl ⟨hctx, hunmanaged, hmanaged⟩⟩
      rintro rfl
      rw [hunmanaged] at hmanaged
      cases hmanaged
  | transcript destination hbound hdest =>
    obtain ⟨-, hunmanaged⟩ := boundClaim_eq_none hnone.symm
    refine ⟨?_, fun other hother => by cases hbound.symm.trans hother⟩
    rw [hdest, orElseText]
    split
    · exact hdirect
    · exact hunmanaged
  | pairwise hbound hdest =>
    refine ⟨?_, fun other hother => by cases hbound.symm.trans hother⟩
    rw [hdest]
    exact hdirect
  | distributionOnly hbound hdest =>
    refine ⟨?_, fun other hother => by cases hbound.symm.trans hother⟩
    rw [hdest]
    exact hdirect

theorem claimed_conversation (hclaim : content.claimed = some claim)
    (hauth : AuthorizedClaim params environment
      ⟨claim, content.senderUserId, content.senderDeviceId⟩ authorized context state) :
    content.inspected.groupContext = some (.decoded context) ∧
    (claim.transcript = true → content.inspected.destination.isSome) ∧
    (∀ bound, content.boundGroup = some bound → authorized = bound) ∧
    (decryptedEnvelopeOf content
      (if claim.transcript then resolvedGroupIdOf content else some authorized)).conversationId =
        authorized := by
  have hmanaged : isManagedGroupId authorized = true := by
    rw [← hauth.derives]
    exact params.groupIdOf_managed _
  have hnonempty := managed_ne_empty hmanaged
  have hclassified := content.classified
  rw [hclaim] at hclassified
  rw [conversationId_eq]
  generalize resolvedGroupIdOf content = resolved at hclassified
  generalize hsome : some claim = claimed at hclassified
  cases hclassified with
  | bound bound raw hbound hraw =>
    obtain rfl := boundClaim_eq_some hsome.symm
    have hctx := hauth.context_eq
    have hsame := hauth.bound bound rfl
    refine ⟨hctx, fun htranscript => (by cases htranscript), fun other hother => ?_, ?_⟩
    · cases hbound.symm.trans hother
      exact hsame.symm
    rw [if_neg (by simp)]
    have hgroup : orElseText (some authorized)
        (directConversationId ownUserId content.senderUserId) = authorized := by
      rw [orElseText]
      exact if_neg hnonempty
    rw [hgroup]
    cases hdest : content.inspected.destination with
    | none => rfl
    | some destination =>
      rw [orElseText]
      split
      · rfl
      rename_i hdestinationNonempty
      by_contra hother
      refine hdirected ⟨bound, destination, hbound, hdest, hdestinationNonempty, ?_,
        .inr ⟨context, hctx, hauth.valid, ?_⟩⟩
      · rwa [hsame]
      · rw [hauth.derives, hsame]
  | transcript destination hbound hdest =>
    obtain rfl := boundClaim_eq_some hsome.symm
    have hsame := hauth.bound destination rfl
    refine ⟨hauth.context_eq, fun _ => by rw [hdest]; rfl, fun other hother => ?_, ?_⟩
    · cases hbound.symm.trans hother
    rw [if_pos rfl, hdest, hsame, orElseText]
    exact if_neg hnonempty
  | pairwise hbound hdest =>
    obtain ⟨member, hmember, rfl⟩ := Option.map_eq_some_iff.mp hsome.symm
    refine ⟨hmember.trans hauth.context_eq, fun htranscript => (by cases htranscript),
      fun other hother => (by cases hbound.symm.trans hother), ?_⟩
    rw [if_neg (by simp), hdest]
    exact if_neg hnonempty
  | distributionOnly hbound hdest => cases hsome

theorem deliversWithAuthority_of_directed :
    DeliversWithAuthority content params := by
  intro evaluator groupId hdecided
  cases hclaim : content.claimed with
  | none =>
    cases (decideGroupContent_of_none hclaim).symm.trans hdecided
    obtain ⟨hunmanaged, hbound⟩ := unclaimed_not_managed hdirected hclaim
    refine ⟨fun hmanaged => ?_, fun bound hbounded hmanaged => ?_⟩
    · rw [hunmanaged] at hmanaged
      cases hmanaged
    · rw [hbound bound hbounded] at hmanaged
      cases hmanaged
  | some claim =>
    obtain ⟨environment, authorized, context, state, rfl, hauth, rfl⟩ :=
      decideGroupContent_of_claim hclaim hdecided
    obtain ⟨hctx, htranscript, hbound, hconv⟩ :=
      claimed_conversation hdirected hclaim hauth
    rw [hconv]
    refine ⟨fun _ => ⟨environment, rfl, ⟨context, state, hctx, hauth.valid,
      hauth.derives, hauth.stored, hauth.recipient, ?_⟩⟩,
      fun bound hbounded _ => hbound bound hbounded⟩
    rcases hauth.sender with hsent | hmember
    · have hsome := htranscript hsent
      obtain ⟨destination, hdest⟩ := Option.isSome_iff_exists.mp hsome
      exact .inl ⟨hsome, content.sender_eq hdest⟩
    · exact .inr hmember

end

def soleMember : DecryptedMember where
  aciBytes := List.replicate 16 1
  role := .administrator
  profileKey := []
  joinedAtRevision := 0
  pniBytes := []
  labelEmoji := ""
  labelString := ""

def soleGroup (revision : ℤ) : DecryptedGroup where
  title := ""
  avatar := ""
  disappearingMessagesTimer := 0
  accessControl := ⟨.member, .member, .unsatisfiable, .member⟩
  revision
  members := [soleMember]
  pendingMembers := []
  requestingMembers := []
  inviteLinkPassword := []
  description := ""
  isAnnouncementGroup := .disabled
  bannedMembers := []
  terminated := false

def soleEnvironment (ownUserId : String) (revision : ℤ) : ReceiveEnvironment where
  ownUserId
  localAci := some soleMember.aciBytes
  resolveAci := some fun _ => .ok (some soleMember.aciBytes)
  isGroupBlocked _ := false
  admitContext _ _ _ _ := true
  groupState _ := some (soleGroup revision)
  ensureFresh _ _ := .unavailable .updatePending 0
  updatedState _ := none

theorem evaluateGroupContent_sole
    (hvalid : context.isValid = true) (hderives : params.groupIdOf context.masterKey = bound)
    (senderId : String) (senderDeviceId : ℕ) :
    evaluateGroupContent params (soleEnvironment ownUserId context.revision)
      ⟨⟨some bound, some (.decoded context), false⟩, senderId, senderDeviceId⟩ =
        .ok (.authorized bound context.revision) := by
  have hgroup : groupOfContext params ⟨some bound, some (.decoded context), false⟩ =
      .ok ⟨bound, some context⟩ := by
    rw [groupOfContext]
    dsimp only
    rw [if_neg (not_not.mpr hvalid), hderives, if_neg (by simp)]
    rfl
  have hstate : stateFor (soleEnvironment ownUserId context.revision) bound context =
      .ok (soleGroup context.revision) := by
    rw [stateFor]
    exact if_pos le_rfl
  rw [evaluateGroupContent, hgroup]
  dsimp only
  unfold evaluate
  rw [if_neg (by simp), if_neg (by simp [soleEnvironment]), if_neg (by simp [soleEnvironment])]
  dsimp only
  rw [hstate]
  rfl

theorem not_deliversWithAuthority_of_misdirected (hmisdirected : Misdirected content params) :
    ¬ DeliversWithAuthority content params := by
  obtain ⟨bound, destination, hbound, hdest, hnonempty, hother, hcase⟩ := hmisdirected
  intro hdelivers
  have hconv : ∀ groupId, (decryptedEnvelopeOf content groupId).conversationId = destination := by
    intro groupId
    rw [conversationId_eq, hdest]
    exact if_neg hnonempty
  have hclaim : content.claimed = boundClaim bound content.inspected.groupContext false := by
    have hclassified := content.classified
    generalize content.claimed = claimed at hclassified
    generalize resolvedGroupIdOf content = resolved at hclassified
    cases hclassified with
    | bound found raw hfound hraw =>
      cases hfound.symm.trans hbound
      rfl
    | transcript _ hnone _ => cases hnone.symm.trans hbound
    | pairwise hnone _ => cases hnone.symm.trans hbound
    | distributionOnly hnone _ => cases hnone.symm.trans hbound
  rcases hcase with ⟨hctx, hunmanaged, hmanaged⟩ | ⟨context, hctx, hvalid, hderives⟩
  · have hnone : content.claimed = none := by
      rw [hclaim, hctx, boundClaim, if_neg (by simp [hunmanaged])]
    obtain ⟨hauthority, -⟩ := hdelivers none _ (decideGroupContent_of_none hnone)
    obtain ⟨environment, hevaluator, -⟩ := hauthority (by rw [hconv]; exact hmanaged)
    cases hevaluator
  · have hsome : content.claimed = some ⟨some bound, some (.decoded context), false⟩ := by
      rw [hclaim, hctx, boundClaim, if_pos (.inl rfl)]
    have hdecided : decideGroupContent params (some (soleEnvironment ownUserId context.revision))
        content = .ok (.authorized (some bound)) := by
      unfold decideGroupContent
      rw [CommittedContent.claimed] at hsome
      dsimp only
      rw [hsome]
      dsimp only
      rw [evaluateGroupContent_sole hvalid hderives]
      rfl
    obtain ⟨-, hunder⟩ := hdelivers _ _ hdecided
    have hmanaged : isManagedGroupId bound = true := by
      rw [← hderives]
      exact params.groupIdOf_managed _
    exact hother ((hconv _).symm.trans (hunder bound hbound hmanaged))

end

/-- Managed-group content is delivered with authority, and content that its transport binds to a
managed group under that group, whatever the client answers, exactly when the content is not
misdirected. -/
theorem deliversWithAuthority_iff {ownUserId : String} (params : GroupParams)
    (content : CommittedContent ownUserId) :
    DeliversWithAuthority content params ↔ ¬ Misdirected content params :=
  ⟨fun hdelivers hmisdirected => not_deliversWithAuthority_of_misdirected hmisdirected hdelivers,
    deliversWithAuthority_of_directed⟩

/-- Master keys of one byte name groups of that byte. -/
def repeatParams : GroupParams where
  groupIdentifier masterKey := List.replicate groupIdentifierLen (masterKey.headD 0)
  identifier_length _ := length_replicate

def managedId : String := repeatParams.groupIdOf (List.replicate 32 7)

/-- A transcript to a managed group that an own device sends under the sender key of another group,
without a group context. -/
def strayTranscript : CommittedContent "alice" where
  messageId := "m1"
  senderUserId := "alice"
  senderDeviceId := 2
  messageType := senderKeyType
  envelopeTimestamp := none
  serverTimestamp := none
  arrivedSealed := false
  plaintext := .object { sync := some (.sent managedId 1 none) }
  text := ""
  transportGroupId := some "team"
  receivedAt := 1
  transport_iff := ⟨fun _ => rfl, fun _ => rfl⟩
  checked := by decide

/-- It needs no decision, even of a client without groups, and is delivered under the managed
group. -/
theorem strayTranscript_unauthorized :
    decideGroupContent repeatParams none strayTranscript = .ok (.authorized (some "team")) ∧
    (decryptedEnvelopeOf strayTranscript (some "team")).conversationId = managedId ∧
    isManagedGroupId managedId = true ∧ strayTranscript.inspected.groupContext = none ∧
    ¬ DeliversWithAuthority strayTranscript repeatParams := by
  have hdecided : decideGroupContent repeatParams none strayTranscript =
      .ok (.authorized (some "team")) := by decide
  have hconversation : (decryptedEnvelopeOf strayTranscript (some "team")).conversationId =
      managedId := by decide
  have hmanaged : isManagedGroupId managedId = true := by decide
  refine ⟨hdecided, hconversation, hmanaged, rfl, fun hdelivers => ?_⟩
  obtain ⟨hauthority, -⟩ := hdelivers none _ hdecided
  obtain ⟨environment, hnone, -⟩ := hauthority (by rw [hconversation]; exact hmanaged)
  cases hnone

end SignalProtocol.Groups

import SignalProtocol.Proof.HostedSession

/-! # Interrupted publications

The next call that meets no failure finishes the publication exactly when its plan leaves the
pending material as it is. -/

namespace SignalProtocol.Hosted

open Results

variable {platform : FingerprintPlatform} {identity : LocalIdentity}
variable {plans : PreKeyPublicationPlan → Prop} {world : World}

variable {retryPending : Option StoredPendingPreKeyPublication} {target : RegistrationPreKeys}
  {fingerprint : String}

variable {status : PreKeyStatus} {α : Type}

variable (step : TransportM α)

theorem await_idle (hidle : world.outcomes = []) : await step world = step world := by
  rw [await, get_bind, hidle]

theorem authenticatedPost_idle (hidle : world.outcomes = []) :
    authenticatedPost step world = step world := by
  rw [authenticatedPost, get_bind, hidle]
  exact await_idle step hidle

theorem currentIdentity_idle (hidle : world.outcomes = [])
    (hdev : world.identity = some identity) : currentIdentity world = .ok identity world := by
  rw [currentIdentity, await_idle _ hidle, get_bind, hdev]
  rfl

theorem prekeyStatus_idle (hidle : world.outcomes = []) :
    prekeyStatus world = .ok world.relay.status world := by
  rw [prekeyStatus, authenticatedPost_idle _ hidle]
  rfl

def World.accepting (world : World) (status : PreKeyStatus) : World :=
  { world with
    session := acceptedSession status world.session
    stored := acceptedSession status world.session }

theorem acceptPublicationStatus_idle (status : PreKeyStatus) (hidle : world.outcomes = []) :
    acceptPublicationStatus status world = .ok () (world.accepting status) := by
  have hpersist : ∀ session : Session, persistSession { world with session := session } =
      .ok () { world with session := session, stored := session } := by
    intro session
    rw [persistSession, await_idle]
    · rfl
    · exact hidle
  rw [acceptPublicationStatus, setSession, modify_bind, hpersist, World.accepting]

structure Session.Finished (session : Session) (status : PreKeyStatus) : Prop where
  pending : session.pendingPreKeyPublication = none
  publication : session.preKeyPublication = relayPublication status

structure World.Finished (world : World) : Prop where
  session : world.session.Finished world.relay.status
  stored : world.stored.Finished world.relay.status

theorem World.accepting_finished (world : World) : (world.accepting world.relay.status).Finished :=
  ⟨⟨rfl, rfl⟩, ⟨rfl, rfl⟩⟩

theorem publishPending_idle {pending : StoredPendingPreKeyPublication}
    (hposted : Posted platform identity plans world.relay.status pending world)
    (hidle : world.outcomes = []) (now : ℤ) :
    ∃ final, publishPending platform identity pending.target pending.materialFingerprint
      pending.operationId pending.predecessorRevision now world = .ok () final ∧
        final.Finished := by
  have hsound := hposted.settled.sound
  have hpublish : postPublish platform (publishRequest identity pending) now world =
      .ok (pending.predecessorRevision + 1) { world with
        relay := world.relay.accept (publishRequest identity pending)
          pending.materialFingerprint now } := by
    rw [postPublish, authenticatedPost_idle _ hidle, get_bind,
      publish_waiting hsound hposted.waits now]
    rfl
  have hgen : world.relay.authorityGeneration = world.session.generation :=
    hsound.session.generation
  refine ⟨_, ?_, World.accepting_finished { world with
    relay := world.relay.accept (publishRequest identity pending)
      pending.materialFingerprint now }⟩
  rw [publishPending, ← publishRequest, bind_apply_ok hpublish]
  dsimp only
  rw [if_neg (not_not_intro rfl), bind_apply_ok (prekeyStatus_idle _), get_bind]
  · dsimp only
    rw [if_neg, acceptPublicationStatus_idle]
    · exact hidle
    · simp [Relay.status, Relay.accept, publishRequest, hgen]
  · exact hidle

section

variable (hdone : Settled platform identity plans world.relay.status retryPending world)

include hdone

theorem storeAndPublish_idle {pending : StoredPendingPreKeyPublication}
    (hwaits : Waiting platform identity plans world.relay.status pending)
    (hidle : world.outcomes = []) (now : ℤ) :
    ∃ final, storeAndPublish platform identity pending now world = .ok () final ∧
      final.Finished := by
  let session := { world.session with pendingPreKeyPublication := some pending }
  have hagrees : Agrees platform identity plans world.relay.status session :=
    ⟨hdone.sound.session.generation, .waiting pending rfl hdone.publication hwaits⟩
  have hsound := (hdone.sound.withSession hagrees).persisted
  have hpersist : persistSession { world with session := session } =
      .ok () { world with session := session, stored := session } := by
    rw [persistSession, await_idle]
    · rfl
    · exact hidle
  rw [storeAndPublish, setSession, modify_bind, bind_apply_ok hpersist]
  refine publishPending_idle ⟨⟨hsound, rfl, rfl, hdone.publication, ?_⟩, rfl⟩ hidle now
  rintro _ ⟨⟩
  exact hwaits

theorem publishTarget_idle
    (htarget : Publishable platform identity plans world.relay.status retryPending target
      fingerprint) (hidle : world.outcomes = []) (now : ℤ) :
    ∃ final, publishTarget platform identity world.relay.status retryPending target fingerprint
      now world = .ok () final ∧ final.Finished := by
  by_cases hfresh : fingerprint = world.relay.status.materialFingerprint
  · refine ⟨world.accepting world.relay.status, ?_, world.accepting_finished⟩
    rw [publishTarget]
    dsimp only
    rw [if_pos hfresh, bind_apply_ok (acceptPublicationStatus_idle _ hidle)]
    rfl
  · rw [publishTarget_eq identity _ retryPending target fingerprint now hfresh
      (htarget.same_fingerprint hdone.waits)]
    exact storeAndPublish_idle hdone (htarget.waiting hdone.waits hfresh) hidle now

end

/-! ## What a call has to repeat -/

def World.waiting (world : World) : Option StoredPendingPreKeyPublication :=
  world.session.pendingPreKeyPublication.filter fun pending => !pending.landed world.relay.status

theorem World.Sound.settlePending_idle (hsound : world.Sound platform identity plans)
    (hidle : world.outcomes = []) :
    ∃ next, settlePending world.relay.status world = .ok world.waiting next ∧
      Settled platform identity plans world.relay.status world.waiting next ∧
      next.outcomes = [] ∧
      if world.session.pendingPreKeyPublication = world.waiting then next = world
      else next = world.accepting world.relay.status := by
  have hkept := @settlePending_triple platform identity plans world.relay.status world
    ⟨hsound, rfl⟩
  suffices hrun : ∃ next, settlePending world.relay.status world = .ok world.waiting next ∧
      next.outcomes = [] ∧ if world.session.pendingPreKeyPublication = world.waiting then
        next = world else next = world.accepting world.relay.status by
    obtain ⟨next, hnext, hrest⟩ := hrun
    exact ⟨next, hnext, hkept.1 _ _ hnext, hrest⟩
  rw [settlePending, get_bind]
  cases hsound.session.pending with
  | settled hpend hpub =>
    have hwait : world.waiting = none := by rw [World.waiting, hpend]; rfl
    refine ⟨world, ?_, hidle, by rw [if_pos (hpend.trans hwait.symm)]⟩
    rw [hpend, hwait]
    simp only [matches_relayPublication hpub, Bool.not_true, Bool.false_eq_true, if_false]
    rfl
  | waiting pending hpend hpub hwaits =>
    have hwait : world.waiting = some pending := by
      rw [World.waiting, hpend, Option.filter_some, hwaits.not_landed]
      rfl
    refine ⟨world, ?_, hidle, by rw [if_pos (hpend.trans hwait.symm)]⟩
    rw [hpend, hwait]
    simp only [hwaits.not_landed, matches_relayPublication hpub, Bool.not_true,
      Bool.false_eq_true, if_false, hwaits.predecessor, ne_eq, not_true_eq_false, decide_false,
      Bool.or_false]
    rfl
  | landed pending hpend hlands =>
    have hwait : world.waiting = none := by
      rw [World.waiting, hpend, Option.filter_some, hlands]
      rfl
    refine ⟨world.accepting world.relay.status, ?_, hidle, ?_⟩
    · rw [hpend, hwait]
      simp only [hlands, if_true]
      rw [bind_apply_ok (acceptPublicationStatus_idle _ hidle)]
      rfl
    · rw [hpend, hwait, if_neg (Option.some_ne_none pending)]

def World.base (world : World) : RegistrationPreKeys :=
  match world.waiting with
  | none => statusPreKeys world.relay.status
  | some pending => pending.target

/-- The plan meets no failure: it returns uploads, and they make a material. -/
def PlanSucceeds (platform : FingerprintPlatform) (identity : LocalIdentity) (world : World)
    (plan : PreKeyPublicationPlan) (uploads : List PreKeyUpload) : Prop :=
  plan (inventoryFromStatus world.relay.status) = .ok uploads ∧
    (uploads = [] ∧ world.waiting = none ∨
      ∃ material fingerprint, applyPreKeyUploads world.base uploads = .ok material ∧
        fingerprintOf platform identity material = .ok fingerprint)

/-- The uploads leave the fingerprint of a pending publication that waits as it is, and a call
without anything to publish finds the end of the last publication stored. -/
def World.Repeatable (platform : FingerprintPlatform) (identity : LocalIdentity) (world : World)
    (uploads : List PreKeyUpload) : Prop :=
  (∀ pending, world.waiting = some pending → ∀ material,
    applyPreKeyUploads pending.target uploads = .ok material →
      fingerprintOf platform identity material = .ok pending.materialFingerprint) ∧
  (uploads = [] → world.session.pendingPreKeyPublication = none →
    world.stored.Finished world.relay.status)

def publishUploads (platform : FingerprintPlatform) (current : LocalIdentity)
    (status : PreKeyStatus) (retryPending : Option StoredPendingPreKeyPublication)
    (uploads : List PreKeyUpload) (now : ℤ) : TransportM Unit := do
  if uploads.isEmpty && retryPending.isNone then return
  let (target, fingerprint) ← check
    (publicationTarget platform current status retryPending uploads)
  publishTarget platform current status retryPending target fingerprint now

theorem World.Sound.publishCurrentPrekeys_idle (hsound : world.Sound platform identity plans)
    (hidle : world.outcomes = []) {plan : PreKeyPublicationPlan} {uploads : List PreKeyUpload}
    (hplan : plan (inventoryFromStatus world.relay.status) = .ok uploads) (now : ℤ)
    {next : World} (hnext : settlePending world.relay.status world = .ok world.waiting next)
    (hnextIdle : next.outcomes = []) :
    publishCurrentPrekeys platform plan now world =
      publishUploads platform identity world.relay.status world.waiting uploads now next := by
  have hauthority : (decide (world.relay.status.authorityGeneration ≠ world.session.generation) ||
      decide (world.relay.status.registrationId ≠ identity.registrationId) ||
      decide (world.relay.status.identityPublicMaterial ≠ identity.identity)) = false := by
    have hgen := hsound.session.generation
    have hreg : world.relay.status.registrationId = identity.registrationId :=
      hsound.registrationId
    have hmaterial : world.relay.status.identityPublicMaterial = identity.identity :=
      hsound.identityPublicMaterial
    simp [hgen, hreg, hmaterial]
  have hplanned : await (check (plan (inventoryFromStatus world.relay.status))) next =
      .ok uploads next := by
    rw [await_idle _ hnextIdle, hplan]
    rfl
  rw [publishCurrentPrekeys, bind_apply_ok (currentIdentity_idle hidle hsound.device),
    bind_apply_ok (prekeyStatus_idle hidle), get_bind]
  dsimp only
  rw [hauthority, if_neg Bool.false_ne_true, bind_apply_ok hnext, bind_apply_ok hplanned]
  rfl

theorem publishUploads_of_target {uploads : List PreKeyUpload}
    (hwork : ¬ (uploads = [] ∧ retryPending = none))
    (htarget : publicationTarget platform identity status retryPending uploads =
      .ok (target, fingerprint)) (now : ℤ) :
    publishUploads platform identity status retryPending uploads now world =
      publishTarget platform identity status retryPending target fingerprint now world := by
  have hempty : (uploads.isEmpty && retryPending.isNone) = false := by
    rw [← Bool.not_eq_true, Bool.and_eq_true, List.isEmpty_iff, Option.isNone_iff_eq_none]
    exact hwork
  rw [publishUploads, hempty, if_neg Bool.false_ne_true, htarget]
  rfl

theorem Settled.publishes (hall : ∀ plan, plans plan) {plan : PreKeyPublicationPlan}
    {uploads : List PreKeyUpload}
    (hdone : Settled platform identity plans status retryPending world)
    (hidle : world.outcomes = []) (hplan : plan (inventoryFromStatus status) = .ok uploads)
    (hwork : ¬ (uploads = [] ∧ retryPending = none))
    (htarget : publicationTarget platform identity status retryPending uploads =
      .ok (target, fingerprint)) (now : ℤ) :
    ∃ final, publishUploads platform identity status retryPending uploads now world =
      .ok () final ∧ final.Finished := by
  have hpublishable := publishable_of_publicationTarget (hall plan) hplan htarget
  obtain rfl := hdone.current
  rw [publishUploads_of_target hwork htarget]
  exact publishTarget_idle hdone hpublishable hidle now

section Finishes

variable {plan : PreKeyPublicationPlan} {uploads : List PreKeyUpload} {next : World}

theorem finishes_iff_of_settled (hall : ∀ plan, plans plan)
    (hsucceeds : PlanSucceeds platform identity world plan uploads) (hwait : world.waiting = none)
    (hdone : Settled platform identity plans world.relay.status none next)
    (hidle : next.outcomes = [])
    (hnext : if world.session.pendingPreKeyPublication = none then next = world
      else next = world.accepting world.relay.status) (now : ℤ) :
    (∃ final, publishUploads platform identity world.relay.status none uploads now next =
      .ok () final ∧ final.Finished) ↔ world.Repeatable platform identity uploads := by
  have hnone : ∀ pending, world.waiting = some pending → ∀ material,
      applyPreKeyUploads pending.target uploads = .ok material →
        fingerprintOf platform identity material = .ok pending.materialFingerprint := by
    intro pending hpend
    rw [hwait] at hpend
    cases hpend
  obtain ⟨hplan, huploads⟩ := hsucceeds
  by_cases hempty : uploads = []
  · subst hempty
    have hreturns : publishUploads platform identity world.relay.status none [] now next =
      .ok () next := rfl
    have hfin : (∃ final, publishUploads platform identity world.relay.status none [] now next =
        .ok () final ∧ final.Finished) ↔ next.Finished := by
      rw [hreturns]
      constructor
      · rintro ⟨_, ⟨⟩, hfinal⟩
        exact hfinal
      · exact fun hfinal => ⟨next, rfl, hfinal⟩
    rw [hfin]
    split at hnext
    case isTrue hpend =>
      subst hnext
      constructor
      · exact fun hfinal => ⟨hnone, fun _ _ => hfinal.stored⟩
      · exact fun hrepeats => ⟨⟨hdone.pending, hdone.publication⟩, hrepeats.2 rfl hpend⟩
    case isFalse hpend =>
      subst hnext
      exact ⟨fun _ => ⟨hnone, fun _ hgone => absurd hgone hpend⟩, fun _ => world.accepting_finished⟩
  · have happlies : ∃ material fingerprint,
        applyPreKeyUploads (statusPreKeys world.relay.status) uploads = .ok material ∧
          fingerprintOf platform identity material = .ok fingerprint := by
      obtain ⟨hnil, -⟩ | happlies := huploads
      · exact absurd hnil hempty
      · rwa [World.base, hwait] at happlies
    obtain ⟨material, fingerprint, hmaterial, hprint⟩ := happlies
    have htarget : publicationTarget platform identity world.relay.status none uploads =
        .ok (material, fingerprint) := by
      rw [publicationTarget, hmaterial, ok_bind, ← fingerprintOf, hprint]
      rfl
    have hends := hdone.publishes hall hidle hplan (fun hnil => hempty hnil.1) htarget now
    exact ⟨fun _ => ⟨hnone, fun hnil => absurd hnil hempty⟩, fun _ => hends⟩

theorem finishes_iff_of_waiting (hall : ∀ plan, plans plan)
    (hsucceeds : PlanSucceeds platform identity world plan uploads)
    {pending : StoredPendingPreKeyPublication} (hwait : world.waiting = some pending)
    (hdone : Settled platform identity plans world.relay.status (some pending) world)
    (hidle : world.outcomes = []) (now : ℤ) :
    (∃ final, publishUploads platform identity world.relay.status (some pending) uploads now world =
      .ok () final ∧ final.Finished) ↔ world.Repeatable platform identity uploads := by
  have hwork : ¬ (uploads = [] ∧ some pending = none) := by
    rintro ⟨-, ⟨⟩⟩
  obtain ⟨hplan, ⟨-, hnone⟩ | ⟨material, fingerprint, hmaterial, hprint⟩⟩ := hsucceeds
  · rw [hwait] at hnone
    cases hnone
  rw [World.base, hwait] at hmaterial
  have hrepeats : world.Repeatable platform identity uploads ↔
      fingerprint = pending.materialFingerprint := by
    constructor
    · intro hrepeats
      have hsame := hrepeats.1 pending hwait material hmaterial
      rw [hprint] at hsame
      exact Except.ok.inj hsame
    · rintro rfl
      refine ⟨?_, ?_⟩
      · intro other hother made hmade
        obtain rfl : pending = other := Option.some.inj (hwait.symm.trans hother)
        obtain rfl : material = made := Except.ok.inj (hmaterial.symm.trans hmade)
        exact hprint
      · intro _ hgone
        rw [hdone.pending] at hgone
        cases hgone
  have htarget : publicationTarget platform identity world.relay.status (some pending) uploads =
      if fingerprint ≠ pending.materialFingerprint then .error differentPending
      else .ok (pending.target, pending.materialFingerprint) := by
    have hstored := (hdone.waits pending rfl).fingerprint
    rw [fingerprintOf] at hstored hprint
    simp only [publicationTarget, hstored, hmaterial, hprint, ok_bind, throw_eq_error, pure_eq_ok]
    split
    · rfl
    · rfl
  rw [hrepeats]
  by_cases hsame : fingerprint = pending.materialFingerprint
  · rw [if_neg (not_not_intro hsame)] at htarget
    exact ⟨fun _ => hsame, fun _ => hdone.publishes hall hidle hplan hwork htarget now⟩
  · rw [if_pos hsame] at htarget
    refine ⟨?_, fun heq => absurd heq hsame⟩
    rintro ⟨final, hrun, -⟩
    have hempty : (uploads.isEmpty && (some pending).isNone) = false := by
      rw [Option.isNone_some, Bool.and_false]
    rw [publishUploads, hempty, if_neg Bool.false_ne_true, htarget] at hrun
    cases hrun

theorem World.Sound.finishes_iff (hsound : world.Sound platform identity fun _ => True)
    (hidle : world.outcomes = [])
    (hsucceeds : PlanSucceeds platform identity world plan uploads) (now : ℤ) :
    (∃ final, publishCurrentPrekeys platform plan now world = .ok () final ∧ final.Finished) ↔
      world.Repeatable platform identity uploads := by
  obtain ⟨next, hnext, hdone, hnextIdle, hsame⟩ := hsound.settlePending_idle hidle
  rw [hsound.publishCurrentPrekeys_idle hidle hsucceeds.1 now hnext hnextIdle]
  cases hwait : world.waiting with
  | none =>
    rw [hwait] at hdone hsame
    exact finishes_iff_of_settled (fun _ => trivial) hsucceeds hwait hdone hnextIdle hsame
      now
  | some pending =>
    have hstored : world.session.pendingPreKeyPublication = some pending :=
      Option.eq_some_of_filter_eq_some hwait
    rw [hstored, hwait, if_pos rfl] at hsame
    subst hsame
    rw [hwait] at hdone
    exact finishes_iff_of_waiting (fun _ => trivial) hsucceeds hwait hdone hnextIdle now

end Finishes

/-! ## Runs of interrupted publications

Over every run with failures and crashes, one publication is accepted for each revision, and it is a
plan's. -/

open Option

variable {platform : FingerprintPlatform}

/-- A device after its registration: the Relay holds what the session says, and nothing is pending.
-/
structure World.Registered (platform : FingerprintPlatform) (identity : LocalIdentity)
    (world : World) : Prop where
  device : world.identity = some identity
  registrationId : world.relay.registrationId = identity.registrationId
  identityPublicMaterial : world.relay.identityPublicMaterial = identity.identity
  generation : world.relay.authorityGeneration = world.session.generation
  pending : world.session.pendingPreKeyPublication = none
  publication : world.session.preKeyPublication = relayPublication world.relay.status
  stored : world.stored = world.session
  accepted : world.relay.accepted = []
  operation : ∀ material fingerprint, fingerprintOf platform identity material = .ok fingerprint →
    fingerprint ≠ world.relay.operationId

theorem World.Registered.sound {identity : LocalIdentity}
    {world : World} (hreg : world.Registered platform identity)
    (plans : PreKeyPublicationPlan → Prop) : world.Sound platform identity plans := by
  have hagrees : Agrees platform identity plans world.relay.status world.session :=
    ⟨hreg.generation, .settled hreg.pending hreg.publication⟩
  refine ⟨hreg.device, hreg.registrationId, hreg.identityPublicMaterial,
    hagrees, hreg.stored ▸ hagrees, ?_, ?_, ?_, ?_⟩
  · intro material fingerprint hprint heq
    exact absurd heq (hreg.operation material fingerprint hprint)
  · simp [hreg.accepted]
  · simp [hreg.accepted]
  · simp [hreg.accepted]

theorem registrationMaterialFingerprint_eq_ok {identity : Bytes}
    {registrationId : ℤ} {prekeys : RegistrationPreKeys} {fingerprint : String}
    (hprint : registrationMaterialFingerprint platform identity registrationId prekeys =
      .ok fingerprint) :
    ∃ rest, fingerprint = platform.sha256Base64Url (registrationMaterialLabel ++ rest) := by
  obtain ⟨encoded, -, hrest⟩ := bind_eq_ok_iff.mp hprint
  obtain ⟨aci, -, hrest⟩ := bind_eq_ok_iff.mp hrest
  obtain ⟨composite, -, hrest⟩ := bind_eq_ok_iff.mp hrest
  obtain ⟨id, -, hrest⟩ := bind_eq_ok_iff.mp hrest
  obtain ⟨material, -, hrest⟩ := bind_eq_ok_iff.mp hrest
  cases hrest
  refine ⟨aci ++ composite ++ id ++ material ++ encoded.flatten, ?_⟩
  simp only [List.append_assoc]

def World.idle (world : World) : World := { world with outcomes := [] }

/-- The next call that meets no failure finishes the publication. -/
def World.Finishes (platform : FingerprintPlatform) (world : World) (plan : PreKeyPublicationPlan)
    (now : ℤ) : Prop :=
  ∃ final, publishCurrentPrekeys platform plan now world.idle = .ok () final ∧ final.Finished

/-- Over every run, at most one publication is accepted for a revision, and it is what a plan of the
run makes of the inventory. -/
theorem interrupted_publication_finishes_iff (platform : FingerprintPlatform)
    (identity : LocalIdentity) (start : World) (hstart : start.Registered platform identity)
    (calls : List Call) :
    ((start.run platform calls).relay.accepted.map (·.predecessor.publicationRevision)).Nodup ∧
      (∀ acceptance ∈ (start.run platform calls).relay.accepted,
        Planned (fun plan => ∃ call ∈ calls, call.plan = plan) acceptance.predecessor
          acceptance.material) ∧
      ∀ plan uploads now,
        PlanSucceeds platform identity (start.run platform calls) plan uploads →
          ((start.run platform calls).Finishes platform plan now ↔
            (start.run platform calls).Repeatable platform identity uploads) := by
  have hplanned : (start.run platform calls).Sound platform identity
      fun plan => ∃ call ∈ calls, call.plan = plan :=
    (hstart.sound _).run fun call hcall => ⟨call, hcall, rfl⟩
  have hsound : (start.run platform calls).Sound platform identity fun _ => True :=
    (hstart.sound _).run fun _ _ => trivial
  refine ⟨hplanned.revisions.imp fun hlater => ne_of_gt hlater, hplanned.accepted, ?_⟩
  intro plan uploads now hsucceeds
  exact (hsound.withOutcomes []).finishes_iff rfl hsucceeds now

def examplePlatform : FingerprintPlatform where
  sha256Base64Url := fun bytes => String.ofList (bytes.map fun byte => Char.ofNat byte.toNat)
  localeBefore := fun left right => left ≤ right

def exampleDevice : LocalIdentity := ⟨[1], 7⟩

def exampleRelay : Relay where
  authorityGeneration := 0
  registrationId := 7
  identityPublicMaterial := [1]
  publicationRevision := 0
  operationId := "cmVnaXN0cmF0aW9u="
  materialFingerprint := "registered"
  oneTimePreKeys := []
  signedPreKeys := [⟨0, .ecX25519, 5, [4], [5]⟩, ⟨0, .kemMlKem1024, 1, [6], [7]⟩]
  accepted := []

def exampleRegistered : World :=
  ⟨some exampleDevice, ⟨0, relayPublication exampleRelay.status, none⟩,
    ⟨0, relayPublication exampleRelay.status, none⟩, exampleRelay, []⟩

def exampleKeys (seed : UInt8) : FreshKeys where
  signedKeyId := 6
  signedPublicKey := [8, seed]
  signedSignature := [9]
  kyberPublicKey := [10, seed]
  kyberSignature := fun _ => [11]
  ecPublicKey := fun index => [12, seed, .ofNat index]
  kemPublicKey := fun index => [13, seed, .ofNat index]
  kemSignature := fun _ _ => [14]

def exampleRotation (seed : UInt8) : PreKeyPublicationPlan :=
  rotationPlan ⟨keyRefreshIntervalMsDefault, keyRefreshIntervalMsDefault, 0⟩ ⟨true, some 1, [], []⟩
    (exampleKeys seed)

/-- The publish request is lost and the process starts again. -/
def exampleCrash : Call := ⟨exampleRotation 0, 0, [.done, .done, .done, .done, .lost], true⟩

def failure? {α : Type} : EStateM.Result PublicationError World α → Option PublicationError
  | .ok _ _ => none
  | .error error _ => some error

theorem exampleRegistered_registered :
    exampleRegistered.Registered examplePlatform exampleDevice := by
  refine ⟨rfl, rfl, rfl, rfl, rfl, rfl, rfl, rfl, ?_⟩
  intro material fingerprint hprint heq
  obtain ⟨rest, rfl⟩ := registrationMaterialFingerprint_eq_ok hprint
  have hfst := congrArg (fun text : String => text.toList.head?) heq
  have hlabel : registrationMaterialLabel =
      79 :: stringToBytes "penE2EE Relay registration material v1\x00" := by
    decide
  rw [hlabel] at hfst
  simp [examplePlatform, exampleRegistered, exampleRelay] at hfst

theorem toOption_bind_eq_some {ε α β : Type} {first : Except ε α} {next : α → Except ε β}
    {result : β} (hres : (first >>= next).toOption = some result) :
    ∃ value, first = .ok value ∧ next value = .ok result := by
  refine bind_eq_ok_iff.mp ?_
  cases hrun : first >>= next with
  | error error =>
    rw [hrun] at hres
    cases hres
  | ok value =>
    rw [hrun] at hres
    cases hres
    rfl

/-- After the crash, no uploads give the pending fingerprint, another rotation is refused, and its
uploads can be applied. -/
theorem exampleCrash_checks :
    ((exampleRegistered.run examplePlatform [exampleCrash]).waiting.map fun pending =>
        decide ((applyPreKeyUploads pending.target [] >>=
          fingerprintOf examplePlatform exampleDevice).toOption =
            some pending.materialFingerprint)) = some true ∧
    failure? (publishCurrentPrekeys examplePlatform (exampleRotation 1) 0
        (exampleRegistered.run examplePlatform [exampleCrash]).idle) =
          some (.error differentPending) ∧
    (exampleRotation 1 (inventoryFromStatus
        (exampleRegistered.run examplePlatform [exampleCrash]).relay.status) >>= fun uploads =>
          applyPreKeyUploads (exampleRegistered.run examplePlatform [exampleCrash]).base uploads >>=
            fingerprintOf examplePlatform exampleDevice).toOption.isSome = true := by
  decide +kernel

/-- A plan without uploads finishes the interrupted rotation. -/
theorem exampleCrash_repeated :
    (exampleRegistered.run examplePlatform [exampleCrash]).Finishes examplePlatform
      (syncPlan []) 0 := by
  have hrepeats := exampleCrash_checks.1
  obtain ⟨pending, hwaiting, hsame⟩ := map_eq_some_iff.mp hrepeats
  obtain ⟨material, hmaterial, hfingerprint⟩ := toOption_bind_eq_some (of_decide_eq_true hsame)
  have hstored : (exampleRegistered.run examplePlatform
      [exampleCrash]).session.pendingPreKeyPublication = some pending :=
    eq_some_of_filter_eq_some hwaiting
  refine ((interrupted_publication_finishes_iff examplePlatform exampleDevice exampleRegistered
    exampleRegistered_registered [exampleCrash]).2.2 (syncPlan []) [] 0 ⟨rfl, .inr ⟨material, _,
      ?_, hfingerprint⟩⟩).mpr ⟨?_, ?_⟩
  · rw [World.base, hwaiting]
    exact hmaterial
  · intro other hother made hmade
    obtain rfl : pending = other := Option.some.inj (hwaiting.symm.trans hother)
    obtain rfl : material = made := Except.ok.inj (hmaterial.symm.trans hmade)
    exact hfingerprint
  · intro _ hgone
    rw [hstored] at hgone
    cases hgone

theorem rotation_excludes_pending :
    ¬ ∀ (platform : FingerprintPlatform) (identity : LocalIdentity) (start : World),
      start.Registered platform identity → ∀ calls : List Call,
      (∀ call ∈ calls, ClientPlan call.plan) → ∀ plan uploads now, ClientPlan plan →
      PlanSucceeds platform identity (start.run platform calls) plan uploads →
        (start.run platform calls).Finishes platform plan now := by
  intro hclaim
  have hplans : ∀ call ∈ [exampleCrash], ClientPlan call.plan := by
    intro call hcall
    rw [List.mem_singleton] at hcall
    subst hcall
    exact .rotation _ _ _
  have hfailure := exampleCrash_checks.2.1
  have hsucceeds : ∃ uploads, PlanSucceeds examplePlatform exampleDevice
      (exampleRegistered.run examplePlatform [exampleCrash]) (exampleRotation 1) uploads := by
    obtain ⟨fingerprint, hfingerprint⟩ := isSome_iff_exists.mp exampleCrash_checks.2.2
    obtain ⟨uploads, huploads, hrest⟩ := toOption_bind_eq_some hfingerprint
    obtain ⟨material, hmaterial, hmade⟩ := bind_eq_ok_iff.mp hrest
    exact ⟨uploads, huploads, .inr ⟨material, fingerprint, hmaterial, hmade⟩⟩
  obtain ⟨uploads, huploads⟩ := hsucceeds
  obtain ⟨final, hrun, -⟩ := hclaim examplePlatform exampleDevice exampleRegistered
    exampleRegistered_registered [exampleCrash] hplans (exampleRotation 1) uploads 0
    (.rotation _ _ _) huploads
  rw [hrun] at hfailure
  cases hfailure

end SignalProtocol.Hosted

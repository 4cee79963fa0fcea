import SignalProtocol.Hosted.PreKeyPublication
import SignalProtocol.Library.Triple

/-! # The session and the Relay

What every call keeps, wherever it stops: the session in memory and the stored session each agree
with the Relay, and every accepted publication is what a plan made of the inventory it was
shown. -/

namespace SignalProtocol.Hosted

open Results List

variable {plan : PreKeyPublicationPlan} {target : RegistrationPreKeys} {fingerprint : String}
  (now : ℤ)

section Invariant

variable (platform : FingerprintPlatform) (identity : LocalIdentity)
variable (plans : PreKeyPublicationPlan → Prop)

def fingerprintOf (target : RegistrationPreKeys) : Except String String :=
  registrationMaterialFingerprint platform identity.identity identity.registrationId target

def relayPublication (status : PreKeyStatus) : StoredPreKeyPublication :=
  storedPublication status.authorityGeneration status.materialFingerprint
    status.currentOperationId status.publicationRevision (statusPreKeys status)

/-- One of the plans makes the material from the inventory of the status. -/
def Planned (status : PreKeyStatus) (material : RegistrationPreKeys) : Prop :=
  ∃ plan uploads, plans plan ∧ plan (inventoryFromStatus status) = .ok uploads ∧
    applyPreKeyUploads (statusPreKeys status) uploads = .ok material

structure Waiting (status : PreKeyStatus) (pending : StoredPendingPreKeyPublication) : Prop where
  predecessor : pending.predecessorRevision = status.publicationRevision
  operation : pending.operationId = pending.materialFingerprint
  fingerprint : fingerprintOf platform identity pending.target = .ok pending.materialFingerprint
  fresh : pending.materialFingerprint ≠ status.materialFingerprint
  planned : Planned plans status pending.target

inductive PendingAgrees (status : PreKeyStatus) (session : Session) : Prop where
  | settled (pending : session.pendingPreKeyPublication = none)
      (publication : session.preKeyPublication = relayPublication status)
  | waiting (pending : StoredPendingPreKeyPublication)
      (stored : session.pendingPreKeyPublication = some pending)
      (publication : session.preKeyPublication = relayPublication status)
      (waits : Waiting platform identity plans status pending)
  | landed (pending : StoredPendingPreKeyPublication)
      (stored : session.pendingPreKeyPublication = some pending)
      (lands : pending.landed status = true)

structure Agrees (status : PreKeyStatus) (session : Session) : Prop where
  generation : status.authorityGeneration = session.generation
  pending : PendingAgrees platform identity plans status session

structure World.Sound (world : World) : Prop where
  device : world.identity = some identity
  registrationId : world.relay.registrationId = identity.registrationId
  identityPublicMaterial : world.relay.identityPublicMaterial = identity.identity
  session : Agrees platform identity plans world.relay.status world.session
  stored : Agrees platform identity plans world.relay.status world.stored
  operation : ∀ material fingerprint, fingerprintOf platform identity material = .ok fingerprint →
    fingerprint = world.relay.operationId → fingerprint = world.relay.materialFingerprint
  accepted : ∀ acceptance ∈ world.relay.accepted,
    Planned plans acceptance.predecessor acceptance.material
  revisions : (world.relay.accepted.map (·.predecessor.publicationRevision)).Pairwise (· > ·)
  earlier : ∀ acceptance ∈ world.relay.accepted,
    acceptance.predecessor.publicationRevision < world.relay.publicationRevision

end Invariant

variable {platform : FingerprintPlatform} {identity : LocalIdentity}
variable {plans : PreKeyPublicationPlan → Prop}

section Awaits

variable {α : Type} {step : TransportM α} {pre stop : World → Prop} {post : α → World → Prop}

section

variable (hstep : Triple pre step post stop)

include hstep

theorem unanswered_triple (hpost : ∀ value world, post value world → stop world) :
    Triple pre (unanswered step) post stop := by
  refine Triple.bind hstep fun value => ?_
  exact Triple.throw _ fun world hworld => hpost value world hworld

theorem await_triple
    (houtcomes : ∀ world outcomes, pre world → pre { world with outcomes := outcomes })
    (hpre : ∀ world, pre world → stop world)
    (hpost : ∀ value world, post value world → stop world) :
    Triple pre (await step) post stop := by
  intro world hworld
  rw [await, get_bind]
  match hout : world.outcomes with
  | [] => exact hstep world hworld
  | .done :: rest | .renewed :: rest => exact hstep _ (houtcomes world rest hworld)
  | .unanswered :: rest =>
    exact unanswered_triple hstep hpost _ (houtcomes world rest hworld)
  | .lost :: rest =>
    refine ⟨?_, ?_⟩
    · rintro value next ⟨⟩
    · rintro error next ⟨⟩
      exact hpre _ (houtcomes world rest hworld)

theorem authenticatedPost_triple
    (houtcomes : ∀ world outcomes, pre world → pre { world with outcomes := outcomes })
    (hrenewed : ∀ world, pre world → pre { world with stored := world.session })
    (hpre : ∀ world, pre world → stop world)
    (hpost : ∀ value world, post value world → stop world) :
    Triple pre (authenticatedPost step) post stop := by
  have hawait := await_triple hstep houtcomes hpre hpost
  intro world hworld
  rw [authenticatedPost, get_bind]
  match hout : world.outcomes with
  | .renewed :: rest =>
    have hrun := hawait _ (hrenewed world hworld)
    rw [hout] at hrun
    exact hrun
  | [] | .done :: rest | .unanswered :: rest | .lost :: rest => exact hawait world hworld

end

theorem pure_ends {value : α} {world : World} (hpost : post value world) :
    (∀ returned next, (pure value : TransportM α) world = .ok returned next → post returned next) ∧
      ∀ error next, (pure value : TransportM α) world = .error error next → stop next := by
  refine ⟨?_, ?_⟩
  · rintro returned next ⟨⟩
    exact hpost
  · rintro error next ⟨⟩

theorem fail_triple {β : Type} {next : α → TransportM β} {post : β → World → Prop}
    (message : String) (hstop : ∀ world, pre world → stop world) :
    Triple pre (fail message >>= next) post stop := by
  intro world hworld
  refine ⟨?_, ?_⟩
  · rintro value final ⟨⟩
  · rintro error final ⟨⟩
    exact hstop world hworld

theorem check_triple (result : Except String α)
    (hok : ∀ value, result = .ok value → ∀ world, pre world → post value world)
    (hstop : ∀ world, pre world → stop world) : Triple pre (check result) post stop := by
  cases result with
  | ok value => exact Triple.pure value (hok value rfl)
  | error message => exact Triple.throw _ hstop

end Awaits

namespace World.Sound

variable {world : World}

section

variable (hsound : world.Sound platform identity plans)

include hsound

theorem withOutcomes (outcomes : List Outcome) :
    { world with outcomes := outcomes }.Sound platform identity plans :=
  ⟨hsound.device, hsound.registrationId, hsound.identityPublicMaterial, hsound.session,
    hsound.stored, hsound.operation, hsound.accepted, hsound.revisions, hsound.earlier⟩

theorem withSession {session : Session}
    (hsess : Agrees platform identity plans world.relay.status session) :
    { world with session := session }.Sound platform identity plans :=
  ⟨hsound.device, hsound.registrationId, hsound.identityPublicMaterial, hsess,
    hsound.stored, hsound.operation, hsound.accepted, hsound.revisions, hsound.earlier⟩

theorem persisted :
    { world with stored := world.session }.Sound platform identity plans :=
  ⟨hsound.device, hsound.registrationId, hsound.identityPublicMaterial, hsound.session,
    hsound.session, hsound.operation, hsound.accepted, hsound.revisions, hsound.earlier⟩

theorem reload :
    world.reload.Sound platform identity plans :=
  hsound.withSession hsound.stored

theorem acceptedSession :
    Agrees platform identity plans world.relay.status
      (acceptedSession world.relay.status world.session) :=
  ⟨hsound.session.generation, .settled rfl rfl⟩

end

end World.Sound

/-- The status is the Relay's, and the session holds what the call has to repeat. -/
structure Settled (platform : FingerprintPlatform) (identity : LocalIdentity)
    (plans : PreKeyPublicationPlan → Prop) (status : PreKeyStatus)
    (retryPending : Option StoredPendingPreKeyPublication) (world : World) : Prop where
  sound : world.Sound platform identity plans
  current : world.relay.status = status
  pending : world.session.pendingPreKeyPublication = retryPending
  publication : world.session.preKeyPublication = relayPublication status
  waits : ∀ pending, retryPending = some pending → Waiting platform identity plans status pending

namespace Settled

variable {status : PreKeyStatus} {retryPending : Option StoredPendingPreKeyPublication}
variable {world : World}

section

variable (hdone : Settled platform identity plans status retryPending world)

include hdone

theorem withOutcomes (outcomes : List Outcome) :
    Settled platform identity plans status retryPending { world with outcomes := outcomes } :=
  ⟨hdone.sound.withOutcomes outcomes, hdone.current, hdone.pending, hdone.publication, hdone.waits⟩

theorem persisted :
    Settled platform identity plans status retryPending { world with stored := world.session } :=
  ⟨hdone.sound.persisted, hdone.current, hdone.pending, hdone.publication, hdone.waits⟩

end

end Settled

def SoundUnder (platform : FingerprintPlatform) (identity : LocalIdentity)
    (plans : PreKeyPublicationPlan → Prop) (status : PreKeyStatus) (world : World) : Prop :=
  world.Sound platform identity plans ∧ world.relay.status = status

theorem currentIdentity_triple : Triple (World.Sound platform identity plans) currentIdentity
    (fun current world => world.Sound platform identity plans ∧ current = identity)
    (World.Sound platform identity plans) := by
  refine await_triple ?_ (fun world outcomes hsound => hsound.withOutcomes outcomes)
    (fun _ hsound => hsound) (fun _ _ hpost => hpost.1)
  intro world hsound
  rw [get_bind, hsound.device]
  refine ⟨?_, ?_⟩
  · rintro current next ⟨⟩
    exact ⟨hsound, rfl⟩
  · rintro error next ⟨⟩

theorem prekeyStatus_triple : Triple (World.Sound platform identity plans) prekeyStatus
    (fun status => SoundUnder platform identity plans status)
    (World.Sound platform identity plans) := by
  refine authenticatedPost_triple ?_ (fun world outcomes hsound => hsound.withOutcomes outcomes)
    (fun _ hsound => hsound.persisted) (fun _ hsound => hsound) (fun _ _ hpost => hpost.1)
  intro world hsound
  rw [get_bind]
  refine ⟨?_, ?_⟩
  · rintro status next ⟨⟩
    exact ⟨hsound, rfl⟩
  · rintro error next ⟨⟩

theorem persistSession_triple (pre : World → Prop)
    (houtcomes : ∀ world outcomes, pre world → pre { world with outcomes := outcomes })
    (hpersist : ∀ world, pre world → pre { world with stored := world.session })
    (hsound : ∀ world, pre world → world.Sound platform identity plans) :
    Triple pre persistSession
      (fun _ world => pre world ∧ world.stored = world.session)
      (World.Sound platform identity plans) := by
  refine await_triple ?_ houtcomes hsound (fun _ world hpost => hsound world hpost.1)
  intro world hworld
  rw [modify_apply]
  refine ⟨?_, ?_⟩
  · rintro value next ⟨⟩
    exact ⟨hpersist world hworld, rfl⟩
  · rintro error next ⟨⟩

theorem acceptPublicationStatus_triple (status : PreKeyStatus) :
    Triple (SoundUnder platform identity plans status) (acceptPublicationStatus status)
      (fun _ world => Settled platform identity plans status none world ∧
        world.stored = world.session)
      (World.Sound platform identity plans) := by
  have hpersist := persistSession_triple (Settled platform identity plans status none)
    (fun _ outcomes hdone => hdone.withOutcomes outcomes)
    (fun _ hdone => hdone.persisted) (fun _ hdone => hdone.sound)
  rintro world ⟨hsound, rfl⟩
  rw [acceptPublicationStatus, setSession, modify_bind]
  refine hpersist _ ⟨hsound.withSession hsound.acceptedSession, rfl, rfl, rfl, ?_⟩
  rintro pending ⟨⟩

theorem matches_relayPublication {publication : StoredPreKeyPublication} {status : PreKeyStatus}
    (hpub : publication = relayPublication status) :
    publicationMatchesStatus publication status = true := by
  rw [hpub, publicationMatchesStatus_iff]
  exact ⟨rfl, rfl, rfl, rfl⟩

theorem Waiting.not_landed {status : PreKeyStatus} {pending : StoredPendingPreKeyPublication}
    (hwaits : Waiting platform identity plans status pending) : pending.landed status = false := by
  have hrev : status.publicationRevision ≠ pending.predecessorRevision + 1 := by
    rw [hwaits.predecessor]
    omega
  simp [StoredPendingPreKeyPublication.landed, hrev]

theorem settlePending_triple (status : PreKeyStatus) :
    Triple (SoundUnder platform identity plans status) (settlePending status)
      (fun retryPending => Settled platform identity plans status retryPending)
      (World.Sound platform identity plans) := by
  rintro world ⟨hsound, rfl⟩
  rw [settlePending, get_bind]
  dsimp only
  cases hsound.session.pending with
  | settled hpend hpub =>
    rw [hpend]
    simp only [matches_relayPublication hpub, Bool.not_true, Bool.false_eq_true, if_false]
    refine pure_ends ⟨hsound, rfl, hpend, hpub, ?_⟩
    rintro pending ⟨⟩
  | waiting pending hpend hpub hwaits =>
    rw [hpend]
    simp only [hwaits.not_landed, matches_relayPublication hpub, Bool.not_true,
      Bool.false_eq_true, if_false, hwaits.predecessor, ne_eq, not_true_eq_false, decide_false,
      Bool.or_false]
    refine pure_ends ⟨hsound, rfl, hpend, hpub, ?_⟩
    rintro _ ⟨⟩
    exact hwaits
  | landed pending hpend hlands =>
    rw [hpend]
    simp only [hlands, if_true]
    refine Triple.bind (acceptPublicationStatus_triple world.relay.status) (fun _ => ?_) world
      ⟨hsound, rfl⟩
    exact Triple.pure none fun next hnext => hnext.1

/-- What a call may publish under a status: a plan's material when nothing waits, and the material
of the publication that waits otherwise. -/
structure Publishable (platform : FingerprintPlatform) (identity : LocalIdentity)
    (plans : PreKeyPublicationPlan → Prop) (status : PreKeyStatus)
    (retryPending : Option StoredPendingPreKeyPublication) (target : RegistrationPreKeys)
    (fingerprint : String) : Prop where
  fingerprint : fingerprintOf platform identity target = .ok fingerprint
  planned : retryPending = none → Planned plans status target
  repeats : ∀ pending, retryPending = some pending → target = pending.target

theorem publishable_of_publicationTarget {status : PreKeyStatus}
    {retryPending : Option StoredPendingPreKeyPublication} {uploads : List PreKeyUpload}
    (hplan : plans plan) (huploads : plan (inventoryFromStatus status) = .ok uploads)
    (htarget : publicationTarget platform identity status retryPending uploads =
      .ok (target, fingerprint)) :
    Publishable platform identity plans status retryPending target fingerprint := by
  cases retryPending with
  | none =>
    obtain ⟨applied, happlied, hrest⟩ := bind_eq_ok_iff.mp htarget
    obtain ⟨hash, hhash, hpair⟩ := bind_eq_ok_iff.mp hrest
    cases hpair
    refine ⟨hhash, fun _ => ⟨plan, uploads, hplan, huploads, happlied⟩, ?_⟩
    rintro pending ⟨⟩
  | some pending =>
    obtain ⟨hash, hhash, hrest⟩ := bind_eq_ok_iff.mp htarget
    obtain ⟨applied, happlied, hrest⟩ := bind_eq_ok_iff.mp hrest
    obtain ⟨repeated, hrepeated, hrest⟩ := bind_eq_ok_iff.mp hrest
    split at hrest
    case isTrue => cases hrest
    case isFalse =>
      cases hrest
      refine ⟨hhash, ?_, ?_⟩
      · rintro ⟨⟩
      · rintro _ ⟨⟩
        rfl

def pendingRecord (status : PreKeyStatus) (retryPending : Option StoredPendingPreKeyPublication)
    (target : RegistrationPreKeys) (fingerprint : String) : StoredPendingPreKeyPublication where
  materialFingerprint := fingerprint
  oneTimePreKeys := target.oneTimePreKeys
  operationId := (retryPending.map (·.operationId)).getD fingerprint
  predecessorRevision :=
    (retryPending.map (·.predecessorRevision)).getD status.publicationRevision
  signedPreKeys := target.signedPreKeys

theorem Publishable.waiting {status : PreKeyStatus}
    {retryPending : Option StoredPendingPreKeyPublication}
    (htarget : Publishable platform identity plans status retryPending target fingerprint)
    (hwaits : ∀ pending, retryPending = some pending →
      Waiting platform identity plans status pending)
    (hfresh : fingerprint ≠ status.materialFingerprint) :
    Waiting platform identity plans status
      (pendingRecord status retryPending target fingerprint) := by
  cases retryPending with
  | none => exact ⟨rfl, rfl, htarget.fingerprint, hfresh, htarget.planned rfl⟩
  | some pending =>
    obtain rfl := htarget.repeats pending rfl
    have hpend := hwaits pending rfl
    have hsame : pending.materialFingerprint = fingerprint := by
      simpa [hpend.fingerprint] using htarget.fingerprint
    exact ⟨hpend.predecessor, hpend.operation.trans hsame, htarget.fingerprint, hfresh,
      hpend.planned⟩

/-! ## Publishing -/

structure Posted (platform : FingerprintPlatform) (identity : LocalIdentity)
    (plans : PreKeyPublicationPlan → Prop) (status : PreKeyStatus)
    (pending : StoredPendingPreKeyPublication) (world : World) : Prop where
  settled : Settled platform identity plans status (some pending) world
  stored : world.stored = world.session

namespace Posted

variable {status : PreKeyStatus} {pending : StoredPendingPreKeyPublication} {world : World}

section

variable (hposted : Posted platform identity plans status pending world)

include hposted

theorem withOutcomes (outcomes : List Outcome) :
    Posted platform identity plans status pending { world with outcomes := outcomes } :=
  ⟨hposted.settled.withOutcomes outcomes, hposted.stored⟩

theorem renewed :
    Posted platform identity plans status pending { world with stored := world.session } :=
  ⟨hposted.settled.persisted, rfl⟩

theorem waits :
    Waiting platform identity plans status pending :=
  hposted.settled.waits pending rfl

end

end Posted

def publishRequest (identity : LocalIdentity) (pending : StoredPendingPreKeyPublication) :
    PublishRequest :=
  ⟨pending.operationId, pending.predecessorRevision, identity.identity, identity.registrationId,
    pending.target⟩

theorem publish_waiting {world : World} {pending : StoredPendingPreKeyPublication}
    (hsound : world.Sound platform identity plans)
    (hwaits : Waiting platform identity plans world.relay.status pending) (now : ℤ) :
    world.relay.publish platform (publishRequest identity pending) now =
      .ok (pending.predecessorRevision + 1,
        world.relay.accept (publishRequest identity pending) pending.materialFingerprint now) := by
  have hnew : pending.operationId ≠ world.relay.operationId := by
    intro hrepeated
    rw [hwaits.operation] at hrepeated
    exact hwaits.fresh (hsound.operation _ _ hwaits.fingerprint hrepeated)
  have hrev : pending.predecessorRevision = world.relay.publicationRevision :=
    hwaits.predecessor
  have hprint : registrationMaterialFingerprint platform identity.identity
      identity.registrationId pending.target = .ok pending.materialFingerprint :=
    hwaits.fingerprint
  simp only [Relay.publish, publishRequest, hnew, if_false, hrev, ne_eq, not_true_eq_false,
    hprint, Except.map]

theorem landed_accept (relay : Relay) (pending : StoredPendingPreKeyPublication) (now : ℤ) :
    pending.landed (relay.accept (publishRequest identity pending) pending.materialFingerprint
      now).status = true := by
  simp [StoredPendingPreKeyPublication.landed, Relay.status, Relay.accept, publishRequest]

theorem Posted.accept {world : World} {pending : StoredPendingPreKeyPublication}
    (hposted : Posted platform identity plans world.relay.status pending world) (now : ℤ) :
    { world with
      relay := world.relay.accept (publishRequest identity pending)
        pending.materialFingerprint now }.Sound platform identity plans := by
  have hsound := hposted.settled.sound
  have hwaits := hposted.waits
  have hagrees : Agrees platform identity plans (world.relay.accept
      (publishRequest identity pending) pending.materialFingerprint now).status world.session :=
    ⟨hsound.session.generation,
      .landed pending hposted.settled.pending (landed_accept world.relay pending now)⟩
  have hrev : world.relay.publicationRevision = pending.predecessorRevision :=
    hwaits.predecessor.symm
  refine ⟨hsound.device, hsound.registrationId, hsound.identityPublicMaterial, hagrees, ?_, ?_,
    ?_, ?_, ?_⟩
  · rw [hposted.stored]
    exact hagrees
  · intro material fingerprint _ hprint
    exact hprint.trans hwaits.operation
  · intro acceptance hacceptance
    cases hacceptance with
    | head => exact hwaits.planned
    | tail _ holder => exact hsound.accepted acceptance holder
  · refine pairwise_cons.mpr ⟨?_, hsound.revisions⟩
    intro revision holder
    obtain ⟨acceptance, hacceptance, rfl⟩ := mem_map.mp holder
    exact hsound.earlier acceptance hacceptance
  · intro acceptance hacceptance
    change acceptance.predecessor.publicationRevision < pending.predecessorRevision + 1
    cases hacceptance with
    | head =>
      change world.relay.publicationRevision < pending.predecessorRevision + 1
      omega
    | tail _ holder =>
      have hprev := hsound.earlier acceptance holder
      omega

theorem postPublish_triple (status : PreKeyStatus) (pending : StoredPendingPreKeyPublication)
    (now : ℤ) :
    Triple (Posted platform identity plans status pending)
      (postPublish platform (publishRequest identity pending) now)
      (fun _ => World.Sound platform identity plans) (World.Sound platform identity plans) := by
  refine authenticatedPost_triple ?_ (fun _ outcomes hposted => hposted.withOutcomes outcomes)
    (fun _ hposted => hposted.renewed) (fun _ hposted => hposted.settled.sound)
    (fun _ _ hsound => hsound)
  intro world hposted
  obtain rfl := hposted.settled.current
  rw [get_bind, publish_waiting hposted.settled.sound hposted.waits now]
  refine ⟨?_, ?_⟩
  · rintro revision next ⟨⟩
    exact hposted.accept now
  · rintro error next ⟨⟩

theorem publishPending_triple (status : PreKeyStatus) (pending : StoredPendingPreKeyPublication)
    (now : ℤ) :
    Triple (Posted platform identity plans status pending)
      (publishPending platform identity pending.target pending.materialFingerprint
        pending.operationId pending.predecessorRevision now)
      (fun _ => World.Sound platform identity plans) (World.Sound platform identity plans) := by
  refine Triple.bind (postPublish_triple status pending now) fun revision => ?_
  dsimp only
  refine Triple.ite (fun _ => fail_triple _ fun _ hsound => hsound) fun _ => ?_
  refine Triple.bind prekeyStatus_triple fun status => ?_
  intro world hunder
  rw [get_bind]
  dsimp only
  split
  case isTrue => exact fail_triple _ (fun _ hunder => hunder.1) world hunder
  case isFalse =>
    have haccept := (acceptPublicationStatus_triple status).weaken_post
      fun _ _ hpost => (hpost.1.sound : World.Sound platform identity plans _)
    exact haccept world hunder

/-- The end of `publishTarget`: the pending record is stored and published. -/
def storeAndPublish (platform : FingerprintPlatform) (current : LocalIdentity)
    (pending : StoredPendingPreKeyPublication) (now : ℤ) : TransportM Unit := do
  setSession fun session => { session with pendingPreKeyPublication := some pending }
  persistSession
  publishPending platform current pending.target pending.materialFingerprint pending.operationId
    pending.predecessorRevision now

theorem storeAndPublish_triple {status : PreKeyStatus}
    {retryPending : Option StoredPendingPreKeyPublication}
    {pending : StoredPendingPreKeyPublication}
    (hwaits : Waiting platform identity plans status pending) :
    Triple (Settled platform identity plans status retryPending)
      (storeAndPublish platform identity pending now)
      (fun _ => World.Sound platform identity plans) (World.Sound platform identity plans) := by
  have hpersist := persistSession_triple (Settled platform identity plans status (some pending))
    (fun _ outcomes hdone => hdone.withOutcomes outcomes)
    (fun _ hdone => hdone.persisted) (fun _ hdone => hdone.sound)
  intro world hdone
  obtain rfl := hdone.current
  have hagrees : Agrees platform identity plans world.relay.status
      { world.session with pendingPreKeyPublication := some pending } :=
    ⟨hdone.sound.session.generation, .waiting pending rfl hdone.publication hwaits⟩
  rw [storeAndPublish, setSession, modify_bind]
  refine Triple.bind hpersist (fun _ => ?_) _
    ⟨hdone.sound.withSession hagrees, rfl, rfl, hdone.publication, ?_⟩
  · exact (publishPending_triple world.relay.status pending now).weaken
      (fun _ hpost => ⟨hpost.1, hpost.2⟩) fun _ _ hsound => hsound
  · rintro _ ⟨⟩
    exact hwaits

theorem publishTarget_eq (current : LocalIdentity) (status : PreKeyStatus)
    (retryPending : Option StoredPendingPreKeyPublication) (target : RegistrationPreKeys)
    (fingerprint : String) (now : ℤ) (hfresh : fingerprint ≠ status.materialFingerprint)
    (hsame : ∀ pending, retryPending = some pending → pending.materialFingerprint = fingerprint) :
    publishTarget platform current status retryPending target fingerprint now =
      storeAndPublish platform current (pendingRecord status retryPending target fingerprint)
        now := by
  rw [publishTarget]
  dsimp only
  rw [if_neg hfresh]
  cases retryPending with
  | none => rfl
  | some pending =>
    dsimp only
    rw [if_neg (not_not_intro (hsame pending rfl).symm)]
    rfl

theorem Publishable.same_fingerprint {status : PreKeyStatus}
    {retryPending : Option StoredPendingPreKeyPublication}
    (htarget : Publishable platform identity plans status retryPending target fingerprint)
    (hwaits : ∀ pending, retryPending = some pending →
      Waiting platform identity plans status pending) (pending : StoredPendingPreKeyPublication)
    (hpend : retryPending = some pending) : pending.materialFingerprint = fingerprint := by
  have hhash := (hwaits pending hpend).fingerprint
  rw [← htarget.repeats pending hpend, htarget.fingerprint] at hhash
  exact (Except.ok.inj hhash).symm

theorem publishTarget_triple {status : PreKeyStatus}
    {retryPending : Option StoredPendingPreKeyPublication}
    (htarget : Publishable platform identity plans status retryPending target fingerprint) :
    Triple (Settled platform identity plans status retryPending)
      (publishTarget platform identity status retryPending target fingerprint now)
      (fun _ => World.Sound platform identity plans) (World.Sound platform identity plans) := by
  intro world hdone
  by_cases hfresh : fingerprint = status.materialFingerprint
  · have haccept := (acceptPublicationStatus_triple status).weaken_post
      fun _ _ hpost => (hpost.1.sound : World.Sound platform identity plans _)
    rw [publishTarget]
    dsimp only
    rw [if_pos hfresh]
    refine Triple.bind haccept (fun _ => ?_) world ⟨hdone.sound, hdone.current⟩
    exact Triple.pure _ fun _ hsound => hsound
  · rw [publishTarget_eq identity status retryPending target fingerprint now hfresh
      (htarget.same_fingerprint hdone.waits)]
    exact storeAndPublish_triple now (htarget.waiting hdone.waits hfresh) world hdone

theorem plan_triple {status : PreKeyStatus}
    {retryPending : Option StoredPendingPreKeyPublication} (plan : PreKeyPublicationPlan) :
    Triple (Settled platform identity plans status retryPending)
      (await (check (plan (inventoryFromStatus status))))
      (fun uploads world => Settled platform identity plans status retryPending world ∧
        plan (inventoryFromStatus status) = .ok uploads)
      (World.Sound platform identity plans) := by
  refine await_triple ?_ (fun _ outcomes hdone => hdone.withOutcomes outcomes)
    (fun _ hdone => hdone.sound) (fun _ _ hpost => hpost.1.sound)
  exact check_triple _ (fun uploads huploads _ hdone => ⟨hdone, huploads⟩)
    fun _ hdone => hdone.sound

theorem publicationTarget_triple {status : PreKeyStatus}
    {retryPending : Option StoredPendingPreKeyPublication} {uploads : List PreKeyUpload}
    (hplan : plans plan) (huploads : plan (inventoryFromStatus status) = .ok uploads) :
    Triple (Settled platform identity plans status retryPending)
      (check (publicationTarget platform identity status retryPending uploads))
      (fun result world => Settled platform identity plans status retryPending world ∧
        Publishable platform identity plans status retryPending result.1 result.2)
      (World.Sound platform identity plans) := by
  refine check_triple _ (fun result hres _ hdone => ⟨hdone, ?_⟩)
    fun _ hdone => hdone.sound
  exact publishable_of_publicationTarget hplan huploads hres

theorem publishCurrentPrekeys_triple (hplan : plans plan) (now : ℤ) :
    Triple (World.Sound platform identity plans) (publishCurrentPrekeys platform plan now)
      (fun _ => World.Sound platform identity plans) (World.Sound platform identity plans) := by
  rw [publishCurrentPrekeys]
  refine Triple.bind currentIdentity_triple fun current => Triple.assuming ?_
  rintro rfl
  refine Triple.bind prekeyStatus_triple fun status => ?_
  intro world hunder
  rw [get_bind]
  dsimp only
  split
  case isTrue => exact fail_triple _ (fun _ hunder => hunder.1) world hunder
  case isFalse =>
    refine Triple.bind (settlePending_triple status) (fun retryPending => ?_) world hunder
    refine Triple.bind (plan_triple plan) fun uploads => Triple.assuming fun huploads => ?_
    refine Triple.ite (fun _ => Triple.pure _ fun _ hdone => hdone.sound) fun _ => ?_
    refine Triple.bind (publicationTarget_triple hplan huploads) fun result =>
      Triple.assuming fun htarget => ?_
    exact publishTarget_triple now htarget

variable {world : World}

theorem World.Sound.call (hsound : world.Sound platform identity plans) {call : Call}
    (hplan : plans call.plan) : (world.call platform call).Sound platform identity plans := by
  have hfinal := (publishCurrentPrekeys_triple hplan call.now).finalState
    (hsound.withOutcomes call.outcomes)
  rw [World.call]
  split
  case isTrue => exact hfinal.reload
  case isFalse => exact hfinal

theorem World.Sound.run (hsound : world.Sound platform identity plans)
    {calls : List Call} (hplans : ∀ call ∈ calls, plans call.plan) :
    (world.run platform calls).Sound platform identity plans := by
  induction calls generalizing world with
  | nil => exact hsound
  | cons call calls ih =>
    rw [forall_mem_cons] at hplans
    exact ih (hsound.call hplans.1) hplans.2

end SignalProtocol.Hosted

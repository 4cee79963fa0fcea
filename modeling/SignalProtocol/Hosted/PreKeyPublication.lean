import SignalProtocol.Library.Results
import SignalProtocol.Platform.Text
import Mathlib.Data.List.Sort

/-! # Hosted prekey publications

The public prekeys that a device publishes at the Relay, the records of a publication in the stored
session, and the fingerprint of the published material. -/

namespace SignalProtocol.Hosted

inductive Algorithm where
  | ecX25519
  | kemMlKem1024
  deriving DecidableEq

def Algorithm.text : Algorithm → String
  | ecX25519 => "ec-x25519"
  | kemMlKem1024 => "kem-ml-kem-1024"

/-- `HostedRelayRegistrationPreKey`, and `StoredHostedPreKey` in base64. -/
structure RegistrationPreKey where
  algorithm : Algorithm
  keyId : ℤ
  publicKey : Bytes
  signature : Option Bytes
  deriving DecidableEq

structure RegistrationPreKeys where
  oneTimePreKeys : List RegistrationPreKey
  signedPreKeys : List RegistrationPreKey

structure StoredPreKeyPublication where
  authorityGeneration : ℤ
  materialFingerprint : String
  oneTimePreKeys : List RegistrationPreKey
  operationId : String
  revision : ℕ
  signedPreKeys : List RegistrationPreKey

structure StoredPendingPreKeyPublication where
  materialFingerprint : String
  oneTimePreKeys : List RegistrationPreKey
  operationId : String
  predecessorRevision : ℕ
  signedPreKeys : List RegistrationPreKey
  deriving DecidableEq

def StoredPendingPreKeyPublication.target (pending : StoredPendingPreKeyPublication) :
    RegistrationPreKeys where
  oneTimePreKeys := pending.oneTimePreKeys
  signedPreKeys := pending.signedPreKeys

structure AcceptedSignedPreKey where
  acceptedAtMilliseconds : ℤ
  algorithm : Algorithm
  keyId : ℤ
  publicKey : Bytes
  signature : Bytes

structure PreKeyStatus where
  authorityGeneration : ℤ
  currentOperationId : String
  identityPublicMaterial : Bytes
  materialFingerprint : String
  oneTimePreKeys : List RegistrationPreKey
  oneTimePreKeyCounts : Algorithm → ℕ
  publicationRevision : ℕ
  registrationId : ℤ
  signedPreKeys : List AcceptedSignedPreKey

def storedPublication (authorityGeneration : ℤ) (materialFingerprint operationId : String)
    (revision : ℕ) (prekeys : RegistrationPreKeys) : StoredPreKeyPublication where
  authorityGeneration := authorityGeneration
  materialFingerprint := materialFingerprint
  oneTimePreKeys := prekeys.oneTimePreKeys
  operationId := operationId
  revision := revision
  signedPreKeys := prekeys.signedPreKeys

def statusPreKeys (status : PreKeyStatus) : RegistrationPreKeys where
  oneTimePreKeys := status.oneTimePreKeys
  signedPreKeys := status.signedPreKeys.map fun prekey =>
    ⟨prekey.algorithm, prekey.keyId, prekey.publicKey, some prekey.signature⟩

def publicationMatchesStatus (publication : StoredPreKeyPublication) (status : PreKeyStatus) :
    Bool :=
  status.authorityGeneration = publication.authorityGeneration &&
    status.currentOperationId = publication.operationId &&
    status.materialFingerprint = publication.materialFingerprint &&
    status.publicationRevision = publication.revision

theorem publicationMatchesStatus_iff (publication : StoredPreKeyPublication)
    (status : PreKeyStatus) :
    publicationMatchesStatus publication status = true ↔
      status.authorityGeneration = publication.authorityGeneration ∧
        status.currentOperationId = publication.operationId ∧
        status.materialFingerprint = publication.materialFingerprint ∧
        status.publicationRevision = publication.revision := by
  simp [publicationMatchesStatus, and_assoc]

inductive PreKeyUploadType where
  | ecPreKey
  | kemOneTimePreKey
  | ecSignedPreKey
  | kemLastResortPreKey
  deriving DecidableEq

structure PreKeyUpload where
  type : PreKeyUploadType
  keyId : ℤ
  publicKey : Bytes
  signature : Option Bytes
  deriving DecidableEq

def PreKeyUploadType.algorithm : PreKeyUploadType → Algorithm
  | ecPreKey | ecSignedPreKey => .ecX25519
  | kemOneTimePreKey | kemLastResortPreKey => .kemMlKem1024

def maxSafeInteger : ℤ := 2 ^ 53 - 1

def registrationPreKeyUpload (upload : PreKeyUpload) : Except String RegistrationPreKey :=
  if upload.keyId < 0 ∨ maxSafeInteger < upload.keyId then
    .error "Signal Protocol Relay prekey upload is invalid"
  else if (upload.type = .ecPreKey ∧ upload.signature.isSome) ∨
      (upload.type ≠ .ecPreKey ∧ upload.signature.isNone) then
    .error "Signal Protocol Relay prekey upload is invalid"
  else .ok ⟨upload.type.algorithm, upload.keyId, upload.publicKey, upload.signature⟩

def replaceType (uploads : List PreKeyUpload) (type : PreKeyUploadType)
    (target : List RegistrationPreKey) : Except String (List RegistrationPreKey) := do
  let replacements ← (uploads.filter (·.type = type)).mapM registrationPreKeyUpload
  if replacements.isEmpty then return target
  return target.filter (·.algorithm ≠ type.algorithm) ++ replacements

def assertDistinctIdentifiers (kind : String) (prekeys : List RegistrationPreKey) :
    Except String Unit :=
  if (prekeys.map fun prekey => (prekey.algorithm, prekey.keyId)).Nodup then .ok ()
  else .error s!"Signal Protocol Relay {kind} prekey upload repeats an identifier"

def applyPreKeyUploads (current : RegistrationPreKeys) (uploads : List PreKeyUpload) :
    Except String RegistrationPreKeys := do
  let oneTimePreKeys ← replaceType uploads .ecPreKey current.oneTimePreKeys
  let oneTimePreKeys ← replaceType uploads .kemOneTimePreKey oneTimePreKeys
  let signedPreKeys ← replaceType uploads .ecSignedPreKey current.signedPreKeys
  let signedPreKeys ← replaceType uploads .kemLastResortPreKey signedPreKeys
  assertDistinctIdentifiers "one-time" oneTimePreKeys
  assertDistinctIdentifiers "signed" signedPreKeys
  return ⟨oneTimePreKeys, signedPreKeys⟩

/-- The platform's hash, as url-safe base64, and its order of texts. -/
structure FingerprintPlatform where
  sha256Base64Url : Bytes → String
  localeBefore : String → String → Bool

def uint32be (value : ℤ) : Except String Bytes :=
  if value < 0 ∨ 0xffffffff < value then
    .error "Signal Protocol Relay unsigned integer is invalid"
  else
    let word := value.toNat
    .ok [.ofNat (word >>> 24), .ofNat (word >>> 16), .ofNat (word >>> 8), .ofNat word]

def lengthPrefixed (value : Bytes) : Except String Bytes := do
  return (← uint32be value.length) ++ value

def text (value : String) : Except String Bytes := lengthPrefixed (stringToBytes value)

def materialEntries (prekeys : RegistrationPreKeys) : List (String × RegistrationPreKey) :=
  prekeys.signedPreKeys.map (fun prekey => ("signed", prekey)) ++
    prekeys.oneTimePreKeys.map fun prekey => ("one-time", prekey)

def materialSortKey (entry : String × RegistrationPreKey) : String :=
  s!"{entry.1}:{entry.2.algorithm.text}:{entry.2.keyId}"

def materialEntryBytes (entry : String × RegistrationPreKey) : Except String Bytes := do
  return (← text entry.1) ++ (← text entry.2.algorithm.text) ++ (← uint32be entry.2.keyId) ++
    (← lengthPrefixed entry.2.publicKey) ++ (← lengthPrefixed (entry.2.signature.getD []))

def registrationMaterialLabel : Bytes :=
  stringToBytes "OpenE2EE Relay registration material v1\x00"

/-- `identity` is the encoded composite identity. -/
def registrationMaterialFingerprint (platform : FingerprintPlatform) (identity : Bytes)
    (registrationId : ℤ) (prekeys : RegistrationPreKeys) : Except String String := do
  let entries := (materialEntries prekeys).insertionSort fun left right =>
    platform.localeBefore (materialSortKey left) (materialSortKey right)
  let encoded ← entries.mapM materialEntryBytes
  return platform.sha256Base64Url (registrationMaterialLabel ++ (← text "aci") ++
    (← text "signal-composite-v1") ++ (← uint32be registrationId) ++
    (← lengthPrefixed identity) ++ encoded.flatten)

structure PreKeyMetadata where
  keyId : ℤ
  createdAt : ℤ
  expiresAt : ℤ
  publicKey : Bytes

structure PreKeyInventory where
  ecSignedPreKey : Option PreKeyMetadata
  kemLastResortPreKey : Option PreKeyMetadata
  ecOneTimePreKeyCount : ℕ
  kemOneTimePreKeyCount : ℕ

def preKeyExpiryMilliseconds : ℤ := 30 * 24 * 60 * 60 * 1000

def inventoryFromStatus (status : PreKeyStatus) : PreKeyInventory where
  ecSignedPreKey := signedMetadata .ecX25519
  kemLastResortPreKey := signedMetadata .kemMlKem1024
  ecOneTimePreKeyCount := status.oneTimePreKeyCounts .ecX25519
  kemOneTimePreKeyCount := status.oneTimePreKeyCounts .kemMlKem1024
where
  signedMetadata (algorithm : Algorithm) : Option PreKeyMetadata :=
    (status.signedPreKeys.find? (·.algorithm = algorithm)).map fun key =>
      ⟨key.keyId, key.acceptedAtMilliseconds,
        key.acceptedAtMilliseconds + preKeyExpiryMilliseconds, key.publicKey⟩

/-- `PreKeyPublicationPlan`: the uploads that an inventory calls for. -/
abbrev PreKeyPublicationPlan := PreKeyInventory → Except String (List PreKeyUpload)

/-! ## The plans of a client

What a rotation and a sync publish: the signed prekeys and the one-time prekey batches that are
due. -/

def keyRefreshIntervalMsDefault : ℤ := 2 * 24 * 60 * 60 * 1000

def minPrekeyReplenishmentThreshold : ℕ := 10

def oneTimePreKeyBatchSize : ℕ := 100

def shouldRotateKey (now createdAt expiresAt refreshIntervalMs : ℤ) : Bool :=
  refreshIntervalMs ≤ now - createdAt || expiresAt ≤ now

def checkRotationNeeded (now : ℤ) (metadata : Option PreKeyMetadata) (refreshIntervalMs : ℤ) :
    Bool :=
  match metadata with
  | none => true
  | some metadata => shouldRotateKey now metadata.createdAt metadata.expiresAt refreshIntervalMs

def oneTimePreKeysDue (inventory : PreKeyInventory) (threshold : ℕ) : Bool :=
  inventory.ecOneTimePreKeyCount < threshold || inventory.kemOneTimePreKeyCount < threshold

def nextOneTimePreKeyId (retained : List ℤ) : ℤ := retained.foldl max (-1) + 1

/-- What a rotation reads in the local store: whether the identity key is there, the id of the
current Kyber prekey, and the ids of the retained one-time prekeys. -/
structure RotationStore where
  identityKey : Bool
  kyberPreKey : Option ℤ
  ecOneTimePreKeys : List ℤ
  kemOneTimePreKeys : List ℤ

def RotationStore.nextKyberLastResortPreKeyId (store : RotationStore) : ℤ :=
  store.kyberPreKey.getD 0 + 1

/-- The public halves that the key generators return in one rotation. The id of the signed prekey
is random. -/
structure FreshKeys where
  signedKeyId : ℤ
  signedPublicKey : Bytes
  signedSignature : Bytes
  kyberPublicKey : Bytes
  kyberSignature : ℤ → Bytes
  ecPublicKey : ℕ → Bytes
  kemPublicKey : ℕ → Bytes
  kemSignature : ℤ → ℕ → Bytes

def FreshKeys.generateEcSignedPreKey (keys : FreshKeys) : PreKeyUpload :=
  ⟨.ecSignedPreKey, keys.signedKeyId, keys.signedPublicKey, some keys.signedSignature⟩

def FreshKeys.generateKyberLastResortPreKey (keys : FreshKeys) (id : ℤ) : PreKeyUpload :=
  ⟨.kemLastResortPreKey, id, keys.kyberPublicKey, some (keys.kyberSignature id)⟩

def FreshKeys.generateEcOneTimePreKeys (keys : FreshKeys) (count : ℕ) (startId : ℤ) :
    List PreKeyUpload :=
  (List.range count).map fun (index : ℕ) =>
    ⟨.ecPreKey, startId + index, keys.ecPublicKey index, none⟩

def FreshKeys.generateKemOneTimePreKeys (keys : FreshKeys) (count : ℕ) (startId : ℤ) :
    List PreKeyUpload :=
  (List.range count).map fun (index : ℕ) =>
    ⟨.kemOneTimePreKey, startId + index, keys.kemPublicKey index,
      some (keys.kemSignature (startId + index) index)⟩

/-- The uploads of `refillOneTimePreKeys`: EC first, then KEM. -/
def refillOneTimePreKeys (store : RotationStore) (keys : FreshKeys) (inventory : PreKeyInventory)
    (threshold : ℕ) : Except String (List PreKeyUpload) := do
  let ec := if inventory.ecOneTimePreKeyCount < threshold then
      keys.generateEcOneTimePreKeys oneTimePreKeyBatchSize
        (nextOneTimePreKeyId store.ecOneTimePreKeys)
    else []
  if inventory.kemOneTimePreKeyCount < threshold then
    if !store.identityKey then
      throw "Identity key missing, cannot sign KEM one-time prekeys (aci)"
    return ec ++ keys.generateKemOneTimePreKeys oneTimePreKeyBatchSize
      (nextOneTimePreKeyId store.kemOneTimePreKeys)
  return ec

structure RotationOptions where
  now : ℤ
  refreshIntervalMs : ℤ
  threshold : ℕ

def rotationPlan (options : RotationOptions) (store : RotationStore) (keys : FreshKeys) :
    PreKeyPublicationPlan := fun inventory => do
  let signedDue := checkRotationNeeded options.now inventory.ecSignedPreKey
    options.refreshIntervalMs
  let kyberDue := checkRotationNeeded options.now inventory.kemLastResortPreKey
    options.refreshIntervalMs
  let refillDue := oneTimePreKeysDue inventory options.threshold
  if (signedDue || kyberDue) && !store.identityKey then
    throw "Identity key not found (aci)"
  let refill ← if refillDue then refillOneTimePreKeys store keys inventory options.threshold
    else pure []
  return (if signedDue then [keys.generateEcSignedPreKey] else []) ++
    (if kyberDue then
      [keys.generateKyberLastResortPreKey store.nextKyberLastResortPreKeyId] else []) ++ refill

/-- The plan of `uploadPreKeys`, which `syncIdentityToServer` calls with its batch. -/
def syncPlan (uploads : List PreKeyUpload) : PreKeyPublicationPlan := fun _ => .ok uploads

/-- A plan that `rotatePreKeysCore` or `syncIdentityToServer` makes. -/
inductive ClientPlan : PreKeyPublicationPlan → Prop where
  | rotation (options : RotationOptions) (store : RotationStore) (keys : FreshKeys) :
      ClientPlan (rotationPlan options store keys)
  | sync (uploads : List PreKeyUpload) : ClientPlan (syncPlan uploads)

/-! ## Publication candidates

`syncIdentityToServer` for one identity type, with other runs of it, fetches by peers, session
commits, culls and crashes between its reads and writes. -/

/-- Where a run is, with its one-time uploads and the list that its last read returned. -/
inductive SyncRun where
  | started
  | counted (inSync : Bool)
  | refilling (type : PreKeyUploadType) (uploads : List PreKeyUpload)
  | storing (type : PreKeyUploadType) (uploads existing : List PreKeyUpload)
  | refilled (uploads : List PreKeyUpload)
  | checking (uploads : List PreKeyUpload)
  | matching (uploads kem : List PreKeyUpload)
  | uploading (uploads : List PreKeyUpload)
  | uploaded (uploads : List PreKeyUpload)

namespace SyncRun

def uploads : SyncRun → List PreKeyUpload
  | started => []
  | counted _ => []
  | refilling _ uploads => uploads
  | storing _ uploads _ => uploads
  | refilled uploads => uploads
  | checking uploads => uploads
  | matching uploads _ => uploads
  | uploading uploads => uploads
  | uploaded uploads => uploads

/-- The uploads that the Relay does not have from this run yet. -/
def pending : SyncRun → List PreKeyUpload
  | uploaded _ => []
  | run => run.uploads

/-- EC first, then KEM. -/
def refillNext (type : PreKeyUploadType) (uploads : List PreKeyUpload) : SyncRun :=
  if type = .ecPreKey then refilling .kemOneTimePreKey uploads else refilled uploads

end SyncRun

/-- What a step of a run meets: whether the Relay has the signed keys and enough one-time keys,
whether a batch is due, the batch, and the keys that the Relay keeps. -/
structure SyncInput where
  inSync : Bool := false
  due : Bool := false
  batch : List PreKeyUpload := []
  kept : PreKeyUpload → Bool := fun _ => true

/-- A private one-time key is named by the upload of its public key. -/
structure CandidateWorld where
  retained : List PreKeyUpload := []
  candidate : Option (List PreKeyUpload) := none
  relay : List PreKeyUpload := []
  runs : ℕ → Option SyncRun := fun _ => none
  /-- The keys that peers fetched, the keys that commits consumed, and the ends of the runs. -/
  fetched : List PreKeyUpload := []
  consumed : List PreKeyUpload := []
  completed : List ℕ := []
  /-- Runs that threw 'no matching private key'. -/
  unmatched : List ℕ := []

inductive CandidateEvent where
  | start (id : ℕ)
  | next (id : ℕ) (input : SyncInput)
  /-- A crash, or a request or a storage call that fails. -/
  | stop (id : ℕ)
  | fetch (key : PreKeyUpload)
  | commit (key : PreKeyUpload)
  /-- A cull, or another write of the keys of one type. -/
  | write (type : PreKeyUploadType) (keys : List PreKeyUpload)

namespace CandidateWorld

def setRun (world : CandidateWorld) (id : ℕ) (run : Option SyncRun) : CandidateWorld :=
  { world with runs := Function.update world.runs id run }

/-- `setItem` for the list of one type. -/
def setKeys (world : CandidateWorld) (type : PreKeyUploadType) (keys : List PreKeyUpload) :
    CandidateWorld :=
  { world with retained := world.retained.filter (·.type ≠ type) ++ keys }

/-- `assertPublicationCandidatePrivateKeys`. -/
def hasPrivateKeys (uploads ec kem : List PreKeyUpload) : Bool :=
  uploads.all fun upload => upload ∈ if upload.type = .ecPreKey then ec else kem

/-- The next step of a run. -/
def advance (world : CandidateWorld) (id : ℕ) (input : SyncInput) : SyncRun → CandidateWorld
  | .started => world.setRun id (some (.counted input.inSync))
  | .counted inSync =>
    match world.candidate with
    | some uploads => world.setRun id (some (.checking uploads))
    | none =>
      if inSync then { world.setRun id none with completed := id :: world.completed }
      else world.setRun id (some (.refilling .ecPreKey []))
  | .refilling type uploads =>
    if input.due then
      world.setRun id (some (.storing type uploads (world.retained.filter (·.type = type))))
    else world.setRun id (some (.refillNext type uploads))
  | .storing type uploads existing =>
    (world.setKeys type (existing ++ input.batch)).setRun id
      (some (.refillNext type (uploads ++ input.batch)))
  | .refilled uploads =>
    if uploads = [] then world.setRun id (some (.uploading []))
    else { world.setRun id (some (.checking uploads)) with candidate := some uploads }
  | .checking uploads => world.setRun id (some (.matching uploads world.retained))
  | .matching uploads kem =>
    if hasPrivateKeys uploads world.retained kem then world.setRun id (some (.uploading uploads))
    else { world.setRun id none with unmatched := id :: world.unmatched }
  | .uploading uploads =>
    { world.setRun id (some (.uploaded uploads)) with
      relay := world.relay.filter input.kept ++ uploads }
  | .uploaded uploads =>
    { world.setRun id none with
      candidate := if uploads = [] then world.candidate else none
      completed := id :: world.completed }

/-- A commit consumes a key that a peer fetched, and removes the private keys of its type and ID. -/
def step (world : CandidateWorld) : CandidateEvent → CandidateWorld
  | .start id => if (world.runs id).isNone then world.setRun id (some .started) else world
  | .next id input => (world.runs id).elim world (world.advance id input)
  | .stop id => world.setRun id none
  | .fetch key =>
    if key ∈ world.relay then
      { world with relay := world.relay.filter (· ≠ key), fetched := key :: world.fetched }
    else world
  | .commit key =>
    if key ∈ world.fetched ∧ key ∈ world.retained then
      { world with
        retained := world.retained.filter fun other =>
          other.type ≠ key.type ∨ other.keyId ≠ key.keyId
        consumed := key :: world.consumed }
    else world
  | .write type keys => world.setKeys type keys

def run (world : CandidateWorld) (events : List CandidateEvent) : CandidateWorld :=
  events.foldl step world

end CandidateWorld

/-! ## The transport of a hosted device

`publishCurrentPrekeys` over the session in memory, the session in the store and the Relay, where
every await can fail before or after it took effect. -/

structure Acceptance where
  predecessor : PreKeyStatus
  operationId : String
  material : RegistrationPreKeys

structure Relay where
  authorityGeneration : ℤ
  registrationId : ℤ
  identityPublicMaterial : Bytes
  publicationRevision : ℕ
  operationId : String
  materialFingerprint : String
  oneTimePreKeys : List RegistrationPreKey
  signedPreKeys : List AcceptedSignedPreKey
  accepted : List Acceptance

def Relay.status (relay : Relay) : PreKeyStatus where
  authorityGeneration := relay.authorityGeneration
  currentOperationId := relay.operationId
  identityPublicMaterial := relay.identityPublicMaterial
  materialFingerprint := relay.materialFingerprint
  oneTimePreKeys := relay.oneTimePreKeys
  oneTimePreKeyCounts := fun algorithm => relay.oneTimePreKeys.countP (·.algorithm = algorithm)
  publicationRevision := relay.publicationRevision
  registrationId := relay.registrationId
  signedPreKeys := relay.signedPreKeys

structure PublishRequest where
  operationId : String
  predecessorRevision : ℕ
  identity : Bytes
  registrationId : ℤ
  preKeys : RegistrationPreKeys

def Relay.acceptSigned (relay : Relay) (now : ℤ) (prekey : RegistrationPreKey) :
    AcceptedSignedPreKey where
  acceptedAtMilliseconds :=
    ((relay.signedPreKeys.find? fun known => known.algorithm = prekey.algorithm &&
      known.keyId = prekey.keyId && known.publicKey = prekey.publicKey).map
        (·.acceptedAtMilliseconds)).getD now
  algorithm := prekey.algorithm
  keyId := prekey.keyId
  publicKey := prekey.publicKey
  signature := prekey.signature.getD []

def Relay.accept (relay : Relay) (request : PublishRequest) (fingerprint : String) (now : ℤ) :
    Relay where
  authorityGeneration := relay.authorityGeneration
  registrationId := relay.registrationId
  identityPublicMaterial := relay.identityPublicMaterial
  publicationRevision := request.predecessorRevision + 1
  operationId := request.operationId
  materialFingerprint := fingerprint
  oneTimePreKeys := request.preKeys.oneTimePreKeys
  signedPreKeys := request.preKeys.signedPreKeys.map (relay.acceptSigned now)
  accepted := ⟨relay.status, request.operationId, request.preKeys⟩ :: relay.accepted

def Relay.publish (platform : FingerprintPlatform) (relay : Relay) (request : PublishRequest)
    (now : ℤ) : Except String (ℕ × Relay) :=
  if request.operationId = relay.operationId then .ok (relay.publicationRevision, relay)
  else if request.predecessorRevision ≠ relay.publicationRevision then
    .error "PREKEY_PUBLICATION_CONFLICT"
  else
    (registrationMaterialFingerprint platform request.identity request.registrationId
      request.preKeys).map fun fingerprint =>
        (request.predecessorRevision + 1, relay.accept request fingerprint now)

/-- `StoredHostedRelaySession`, without the account and the tokens. -/
structure Session where
  generation : ℤ
  preKeyPublication : StoredPreKeyPublication
  pendingPreKeyPublication : Option StoredPendingPreKeyPublication

structure LocalIdentity where
  identity : Bytes
  registrationId : ℤ

inductive Outcome where
  | done
  | renewed
  | lost
  | unanswered

structure World where
  identity : Option LocalIdentity
  session : Session
  stored : Session
  relay : Relay
  outcomes : List Outcome

inductive PublicationError where
  | interrupted
  | error (message : String)
  deriving DecidableEq

abbrev TransportM := EStateM PublicationError World

def fail {α : Type} (message : String) : TransportM α := throw (.error message)

def check {α : Type} (result : Except String α) : TransportM α :=
  match result with
  | .ok value => pure value
  | .error message => fail message

def unanswered {α : Type} (step : TransportM α) : TransportM α := do
  let _ ← step
  throw .interrupted

def await {α : Type} (step : TransportM α) : TransportM α := do
  let world ← get
  match world.outcomes with
  | [] => step
  | .done :: rest | .renewed :: rest => do
      set { world with outcomes := rest }
      step
  | .lost :: rest => do
      set { world with outcomes := rest }
      throw .interrupted
  | .unanswered :: rest => do
      set { world with outcomes := rest }
      unanswered step

def authenticatedPost {α : Type} (step : TransportM α) : TransportM α := do
  let world ← get
  match world.outcomes with
  | .renewed :: _ => do
      set { world with stored := world.session }
      await step
  | _ => await step

def currentIdentity : TransportM LocalIdentity :=
  await do
    match (← get).identity with
    | none => fail "Signal Protocol Relay local Signal identity is unavailable"
    | some identity => return identity

def prekeyStatus : TransportM PreKeyStatus := authenticatedPost do
  return (← get).relay.status

def persistSession : TransportM Unit := await <| modify fun world =>
  { world with stored := world.session }

def setSession (update : Session → Session) : TransportM Unit := modify fun world =>
  { world with session := update world.session }

def acceptedSession (status : PreKeyStatus) (session : Session) : Session :=
  { session with
    preKeyPublication := storedPublication status.authorityGeneration status.materialFingerprint
      status.currentOperationId status.publicationRevision (statusPreKeys status)
    pendingPreKeyPublication := none }

def acceptPublicationStatus (status : PreKeyStatus) : TransportM Unit := do
  setSession (acceptedSession status)
  persistSession

def postPublish (platform : FingerprintPlatform) (request : PublishRequest) (now : ℤ) :
    TransportM ℕ :=
  authenticatedPost do
    let world ← get
    let (revision, relay) ← check (world.relay.publish platform request now)
    set { world with relay := relay }
    return revision

def StoredPendingPreKeyPublication.landed (pending : StoredPendingPreKeyPublication)
    (status : PreKeyStatus) : Bool :=
  status.currentOperationId = pending.operationId &&
    status.materialFingerprint = pending.materialFingerprint &&
    status.publicationRevision = pending.predecessorRevision + 1

def newerState : String :=
  "Signal Protocol Relay prekey publication state is newer than local state"

def settlePending (status : PreKeyStatus) :
    TransportM (Option StoredPendingPreKeyPublication) := do
  let session := (← get).session
  match session.pendingPreKeyPublication with
  | some pending =>
    if pending.landed status then
      acceptPublicationStatus status
      return none
    else if !publicationMatchesStatus session.preKeyPublication status ||
        status.publicationRevision ≠ pending.predecessorRevision then
      fail newerState
    else return some pending
  | none =>
    if !publicationMatchesStatus session.preKeyPublication status then fail newerState
    else return none

def invalidPublication : String :=
  "Signal Protocol Relay returned an invalid prekey publication"

def publishPending (platform : FingerprintPlatform) (current : LocalIdentity)
    (target : RegistrationPreKeys) (fingerprint operationId : String) (predecessorRevision : ℕ)
    (now : ℤ) : TransportM Unit := do
  let revision ← postPublish platform
    ⟨operationId, predecessorRevision, current.identity, current.registrationId, target⟩ now
  if revision ≠ predecessorRevision + 1 then fail invalidPublication
  let status ← prekeyStatus
  let session := (← get).session
  if status.currentOperationId ≠ operationId || status.materialFingerprint ≠ fingerprint ||
      status.publicationRevision ≠ revision ||
      status.authorityGeneration ≠ session.generation then
    fail invalidPublication
  acceptPublicationStatus status

def publishTarget (platform : FingerprintPlatform) (current : LocalIdentity)
    (status : PreKeyStatus) (retryPending : Option StoredPendingPreKeyPublication)
    (target : RegistrationPreKeys) (fingerprint : String) (now : ℤ) : TransportM Unit := do
  if fingerprint = status.materialFingerprint then
    acceptPublicationStatus status
    return
  if let some pending := retryPending then
    if fingerprint ≠ pending.materialFingerprint then
      fail "Stored Signal Protocol Relay prekey publication is invalid"
  let operationId := (retryPending.map (·.operationId)).getD fingerprint
  let predecessorRevision :=
    (retryPending.map (·.predecessorRevision)).getD status.publicationRevision
  setSession fun session => { session with
    pendingPreKeyPublication := some ⟨fingerprint, target.oneTimePreKeys, operationId,
      predecessorRevision, target.signedPreKeys⟩ }
  persistSession
  publishPending platform current target fingerprint operationId predecessorRevision now

def differentPending : String :=
  "A different Signal Protocol Relay prekey publication is already pending"

/-- The target of the uploads, with its fingerprint. A pending publication is repeated only when
the uploads change nothing of it. -/
def publicationTarget (platform : FingerprintPlatform) (current : LocalIdentity)
    (status : PreKeyStatus) (retryPending : Option StoredPendingPreKeyPublication)
    (uploads : List PreKeyUpload) : Except String (RegistrationPreKeys × String) := do
  let fingerprintOf := registrationMaterialFingerprint platform current.identity
    current.registrationId
  match retryPending with
  | none =>
    let target ← applyPreKeyUploads (statusPreKeys status) uploads
    return (target, ← fingerprintOf target)
  | some pending =>
    let fingerprint ← fingerprintOf pending.target
    let repeatedFingerprint ← fingerprintOf (← applyPreKeyUploads pending.target uploads)
    if repeatedFingerprint ≠ pending.materialFingerprint then throw differentPending
    return (pending.target, fingerprint)

def publishCurrentPrekeys (platform : FingerprintPlatform) (plan : PreKeyPublicationPlan)
    (now : ℤ) : TransportM Unit := do
  let current ← currentIdentity
  let status ← prekeyStatus
  let session := (← get).session
  if status.authorityGeneration ≠ session.generation ||
      status.registrationId ≠ current.registrationId ||
      status.identityPublicMaterial ≠ current.identity then
    fail "Signal Protocol Relay prekey publication authority does not match local state"
  let retryPending ← settlePending status
  let uploads ← await (check (plan (inventoryFromStatus status)))
  if uploads.isEmpty && retryPending.isNone then return
  let (target, fingerprint) ← check
    (publicationTarget platform current status retryPending uploads)
  publishTarget platform current status retryPending target fingerprint now

/-- One call: its plan, the Relay's clock, how its awaits end, and whether the process starts
again after it and reads the stored session. -/
structure Call where
  plan : PreKeyPublicationPlan
  now : ℤ
  outcomes : List Outcome
  reloads : Bool

def World.reload (world : World) : World := { world with session := world.stored }

def World.call (platform : FingerprintPlatform) (world : World) (call : Call) : World :=
  let world := Results.finalState
    (publishCurrentPrekeys platform call.plan call.now { world with outcomes := call.outcomes })
  if call.reloads then world.reload else world

def World.run (platform : FingerprintPlatform) (world : World) (calls : List Call) : World :=
  calls.foldl (World.call platform) world

end SignalProtocol.Hosted

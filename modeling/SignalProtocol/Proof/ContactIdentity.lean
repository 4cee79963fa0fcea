import SignalProtocol.Keys.ContactIdentity
import SignalProtocol.Proof.Base64Codec

/-! # Trust histories of contacts

A record holds the identities that accepted rotations replaced, in order and without repetition,
and none of them is the current one. -/

namespace SignalProtocol.Keys

open Results List

variable {identity candidate : CompositeIdentityV1} {suppliedCommitment : Option Bytes} {now : ℤ}

variable {left right : CompositeIdentityV1} {identities : List CompositeIdentityV1} {label : String}
  {value : ℤ}

variable (index : ℕ)

theorem foldl_or_eq_zero_iff (bytes : Bytes) (start : UInt8) :
    bytes.foldl (· ||| ·) start = 0 ↔ start = 0 ∧ ∀ byte ∈ bytes, byte = 0 := by
  induction bytes generalizing start with
  | nil => simp
  | cons byte bytes ih =>
    rw [foldl_cons, ih, UInt8.or_eq_zero_iff, forall_mem_cons, and_assoc]

theorem constantTimeEqual_iff {a b : Bytes} : constantTimeEqual a b = true ↔ a = b := by
  rw [constantTimeEqual]
  by_cases hlen : a.length = b.length
  · rw [if_neg (not_not.mpr hlen), decide_eq_true_iff, foldl_or_eq_zero_iff]
    simp only [true_and]
    induction a generalizing b with
    | nil =>
      rw [length_nil] at hlen
      rw [eq_nil_of_length_eq_zero hlen.symm]
      simp
    | cons x a ih =>
      cases b with
      | nil => simp at hlen
      | cons y b =>
        rw [List.zipWith_cons_cons, forall_mem_cons, UInt8.xor_eq_zero_iff,
          ih (by simpa using hlen), List.cons.injEq]
  · rw [if_pos hlen]
    refine ⟨nofun, ?_⟩
    rintro rfl
    exact absurd rfl hlen

/-! ## Composite identities -/

theorem decodeCanonicalPublicKey_eq_ok_iff {publicKey : JsString}
    {bytes : Bytes} : decodeCanonicalPublicKey publicKey label = .ok bytes ↔
      bytes.length = publicKeyLength ∧ publicKey = base64Units bytes := by
  rw [decodeCanonicalPublicKey]
  constructor
  · intro hok
    cases hdec : base64ToBytes publicKey with
    | error error => simp [hdec] at hok
    | ok decoded =>
      simp only [hdec] at hok
      split at hok
      · cases hok
      rename_i hlen
      split at hok
      · cases hok
      rename_i hunits
      obtain rfl := Except.ok.inj hok
      exact ⟨not_not.mp hlen, (not_not.mp hunits).symm⟩
  · rintro ⟨hlen, rfl⟩
    have hdec := base64ToBytes_eq_ok_iff.mpr (normalizeBase64_base64Units bytes)
    simp only [hdec]
    rw [if_neg (not_not.mpr hlen), ← base64Units, if_neg (not_not.mpr rfl)]
    rfl

def compositeIdentity (x25519 ed25519 : Bytes) : CompositeIdentityV1 :=
  ⟨1, base64Units x25519, base64Units ed25519⟩

def compositeBytes (x25519 ed25519 : Bytes) : Bytes :=
  [compositeIdentityV1Version, compositeIdentityV1X25519Tag] ++ x25519 ++
    [compositeIdentityV1Ed25519Tag] ++ ed25519

theorem encodeCompositeIdentityV1_eq_ok_iff {bytes : Bytes} :
    encodeCompositeIdentityV1 identity = .ok bytes ↔
      ∃ x25519 ed25519, x25519.length = publicKeyLength ∧ ed25519.length = publicKeyLength ∧
        identity = compositeIdentity x25519 ed25519 ∧ bytes = compositeBytes x25519 ed25519 := by
  rw [encodeCompositeIdentityV1]
  constructor
  · intro hok
    split at hok
    · cases hok
    rename_i hver
    obtain ⟨x25519, hx25519, hok⟩ := bind_eq_ok_iff.mp hok
    obtain ⟨ed25519, hed25519, hok⟩ := bind_eq_ok_iff.mp hok
    obtain ⟨hxLength, hx⟩ := decodeCanonicalPublicKey_eq_ok_iff.mp hx25519
    obtain ⟨heLength, he⟩ := decodeCanonicalPublicKey_eq_ok_iff.mp hed25519
    refine ⟨x25519, ed25519, hxLength, heLength, ?_, (Except.ok.inj hok).symm⟩
    rcases identity with ⟨version, xKey, eKey⟩
    rw [compositeIdentity, CompositeIdentityV1.mk.injEq]
    exact ⟨not_not.mp hver, hx, he⟩
  · rintro ⟨x25519, ed25519, hx, he, rfl, rfl⟩
    have hver : (compositeIdentity x25519 ed25519).version = compositeIdentityV1Version.toNat := rfl
    rw [if_neg (not_not.mpr hver), compositeIdentity,
      decodeCanonicalPublicKey_eq_ok_iff.mpr ⟨hx, rfl⟩, ok_bind,
      decodeCanonicalPublicKey_eq_ok_iff.mpr ⟨he, rfl⟩, ok_bind]
    rfl

def Canonical (identity : CompositeIdentityV1) : Prop :=
  ∃ bytes, encodeCompositeIdentityV1 identity = .ok bytes

theorem encodeCompositeIdentityV1_injective {bytes : Bytes}
    (hleft : encodeCompositeIdentityV1 left = .ok bytes)
    (hright : encodeCompositeIdentityV1 right = .ok bytes) : left = right := by
  obtain ⟨x, e, hx, he, rfl, rfl⟩ := encodeCompositeIdentityV1_eq_ok_iff.mp hleft
  obtain ⟨x', e', hx', he', rfl, hbytes⟩ := encodeCompositeIdentityV1_eq_ok_iff.mp hright
  simp only [compositeBytes, append_assoc] at hbytes
  obtain ⟨hxs, htail⟩ := append_inj (append_cancel_left hbytes) (hx.trans hx'.symm)
  rw [hxs, append_cancel_left htail]

theorem cloneIdentity_of_canonical
    (hcanon : Canonical identity) : cloneIdentity identity = .ok identity := by
  obtain ⟨bytes, hbytes⟩ := hcanon
  rw [cloneIdentity, hbytes, ok_bind]
  obtain ⟨x, e, hx, he, rfl, rfl⟩ := encodeCompositeIdentityV1_eq_ok_iff.mp hbytes
  rw [publicKeyLength] at hx he
  have hlen : (compositeBytes x e).length = compositeIdentityV1Length := by
    simp [compositeBytes, hx, he, compositeIdentityV1Length]
  have htail : compositeBytes x e = [0x01, 0x01] ++ (x ++ ([0x02] ++ e)) := by
    simp [compositeBytes, compositeIdentityV1Version, compositeIdentityV1X25519Tag,
      compositeIdentityV1Ed25519Tag]
  have hthirtyFour : (compositeBytes x e).getD 34 0 = compositeIdentityV1Ed25519Tag := by
    rw [htail]
    simp [hx, compositeIdentityV1Ed25519Tag]
  have hfst : ((compositeBytes x e).drop 2).take 32 = x := by
    rw [htail, drop_left' (by simp), List.take_left' hx]
  have hsnd : ((compositeBytes x e).drop 35).take 32 = e := by
    have hbegins : compositeBytes x e = ([0x01, 0x01] ++ x ++ [0x02]) ++ e := by
      rw [htail]
      simp
    rw [hbegins, drop_left' (by simp [hx]), List.take_of_length_le (le_of_eq he)]
  have hzero : (compositeBytes x e).getD 0 0 = compositeIdentityV1Version := rfl
  have hone : (compositeBytes x e).getD 1 0 = compositeIdentityV1X25519Tag := rfl
  rw [decodeCompositeIdentityV1, if_neg (not_not.mpr hlen), if_neg (not_not.mpr hzero),
    if_neg (not_not.mpr hone), if_neg (not_not.mpr hthirtyFour), hfst, hsnd]
  rfl

theorem Canonical.of_clone {clone : CompositeIdentityV1}
    (hclone : cloneIdentity identity = .ok clone) : Canonical identity := by
  obtain ⟨bytes, hbytes, -⟩ := bind_eq_ok_iff.mp hclone
  exact ⟨bytes, hbytes⟩

theorem compositeIdentitiesEqual_of_canonical (hleft : Canonical left) (hright : Canonical right) :
    compositeIdentitiesEqual left right = .ok (decide (left = right)) := by
  obtain ⟨bytes, hbytes⟩ := hleft
  obtain ⟨bytes', hbytes'⟩ := hright
  rw [compositeIdentitiesEqual, hbytes, ok_bind, hbytes', ok_bind, pure_eq_ok, Except.ok.injEq,
    Bool.eq_iff_iff, constantTimeEqual_iff, decide_eq_true_iff]
  constructor
  · rintro rfl
    exact encodeCompositeIdentityV1_injective hbytes hbytes'
  · rintro rfl
    exact Except.ok.inj (hbytes.symm.trans hbytes')

theorem Canonical.clones (hcanon : ∀ identity ∈ identities, Canonical identity) :
    identities.mapM cloneIdentity = .ok identities := by
  induction identities with
  | nil => rfl
  | cons identity identities ih =>
    obtain ⟨hident, hidents⟩ := forall_mem_cons.mp hcanon
    rw [mapM_cons, cloneIdentity_of_canonical hident, ok_bind, ih hidents, ok_bind]
    rfl

def IsTimestamp (value : ℤ) : Prop := 0 ≤ value ∧ value ≤ maxSafeInteger

theorem isSafeInteger_iff :
    isSafeInteger value = true ↔ -maxSafeInteger ≤ value ∧ value ≤ maxSafeInteger :=
  decide_eq_true_iff

theorem assertTimestamp_eq_ok_iff :
    assertTimestamp value label = .ok () ↔ IsTimestamp value := by
  rw [assertTimestamp, IsTimestamp]
  split
  · rename_i hbad
    refine ⟨nofun, fun hstamp => ?_⟩
    rw [isSafeInteger_iff, maxSafeInteger] at hbad
    rw [maxSafeInteger] at hstamp
    omega
  · rename_i hgood
    refine ⟨fun _ => ?_, fun _ => rfl⟩
    rw [isSafeInteger_iff, maxSafeInteger] at hgood
    rw [maxSafeInteger]
    omega

theorem IsTimestamp.max {first second : ℤ} (hfst : IsTimestamp first)
    (hsnd : IsTimestamp second) : IsTimestamp (max first second) :=
  ⟨le_trans hfst.1 (le_max_left _ _), max_le hfst.2 hsnd.2⟩

def maxRotations : ℕ := 2 ^ 53 - 1

theorem assertRevision_eq_ok_iff {rotations : ℕ} :
    assertRevision (1 + rotations) = .ok () ↔ rotations < maxRotations := by
  rw [assertRevision, maxRotations]
  split
  · rename_i hbad
    rw [isSafeInteger_iff, maxSafeInteger] at hbad
    exact ⟨nofun, fun hrotations => by omega⟩
  · rename_i hgood
    rw [isSafeInteger_iff, maxSafeInteger] at hgood
    exact ⟨fun _ => by omega, fun _ => rfl⟩

theorem assertNotDuplicate_of_not_mem {retired : CompositeIdentityV1}
    {earlier : List CompositeIdentityV1} (hretired : Canonical retired)
    (hcanon : ∀ identity ∈ earlier, Canonical identity) (hmem : retired ∉ earlier) :
    assertNotDuplicate retired earlier = .ok () := by
  induction earlier with
  | nil => rfl
  | cons previous earlier ih =>
    obtain ⟨hprev, hrest⟩ := forall_mem_cons.mp hcanon
    rw [mem_cons, not_or] at hmem
    rw [assertNotDuplicate, compositeIdentitiesEqual_of_canonical hretired hprev, ok_bind,
      decide_eq_false hmem.1]
    exact ih hrest hmem.2

/-- The loop accepts identities without repetition; the induction is on the ones that are left. -/
theorem validateRetiredIdentities_of_nodup
    {earlier rest : List CompositeIdentityV1} (hident : Canonical identity)
    (hcanon : ∀ retired ∈ earlier ++ rest, Canonical retired) (hnodup : (earlier ++ rest).Nodup)
    (hcur : identity ∉ rest) : validateRetiredIdentities identity earlier rest = .ok () := by
  induction rest generalizing earlier with
  | nil => rfl
  | cons retired rest ih =>
    have happend : earlier ++ retired :: rest = earlier ++ [retired] ++ rest := by simp
    have hretired : Canonical retired := hcanon retired (by simp)
    have hprev : retired ∉ earlier := by
      intro hmem
      exact (nodup_append.mp hnodup).2.2 retired hmem retired mem_cons_self rfl
    rw [mem_cons, not_or] at hcur
    obtain ⟨bytes, hbytes⟩ := hretired
    rw [validateRetiredIdentities, hbytes, ok_bind,
      compositeIdentitiesEqual_of_canonical hident ⟨bytes, hbytes⟩, ok_bind,
      decide_eq_false hcur.1]
    have hdup := assertNotDuplicate_of_not_mem ⟨bytes, hbytes⟩
      (fun previous hmem => hcanon previous (mem_append_left _ hmem)) hprev
    rw [happend] at hcanon hnodup
    have hloop := ih hcanon hnodup hcur.2
    simp only [Bool.false_eq_true, if_false, hdup, ok_bind]
    exact hloop

theorem someIdentityEqual_of_canonical (hcand : Canonical candidate)
    (hcanon : ∀ identity ∈ identities, Canonical identity) :
    someIdentityEqual candidate identities = .ok (decide (candidate ∈ identities)) := by
  induction identities with
  | nil => rfl
  | cons identity identities ih =>
    obtain ⟨hident, hrest⟩ := forall_mem_cons.mp hcanon
    rw [someIdentityEqual, compositeIdentitiesEqual_of_canonical hident hcand, ok_bind]
    by_cases heq : identity = candidate
    · simp [heq]
    · simp [heq, ih hrest, Ne.symm heq]

structure Consistent (observed : Observed) : Prop where
  identity : Canonical observed.record.identity
  retired : observed.record.retiredIdentities = observed.replaced
  canonical : ∀ identity ∈ observed.replaced, Canonical identity
  nodup : observed.replaced.Nodup
  current : observed.record.identity ∉ observed.replaced
  revision : observed.record.revision = 1 + observed.replaced.length
  bound : observed.replaced.length ≤ maxRotations
  firstSeenAt : IsTimestamp observed.record.firstSeenAt
  lastSeenAt : IsTimestamp observed.record.lastSeenAt
  ordered : observed.record.firstSeenAt ≤ observed.record.lastSeenAt
  verifiedAt : assertVerifiedAt observed.record = .ok ()
  verified : observed.record.trustState = .verified ↔ observed.verified = true

variable {sha256 : Bytes → Bytes} {observed : Observed}

theorem Consistent.validate_eq_ok_iff (hcons : Consistent observed) :
    validateContactIdentityRecord observed.record = .ok () ↔
      observed.replaced.length < maxRotations := by
  obtain ⟨bytes, hbytes⟩ := hcons.identity
  have hretired := validateRetiredIdentities_of_nodup hcons.identity
    (nil_append observed.replaced ▸ hcons.canonical)
    (nil_append observed.replaced ▸ hcons.nodup) hcons.current
  rw [validateContactIdentityRecord, hbytes, ok_bind,
    assertTimestamp_eq_ok_iff.mpr hcons.firstSeenAt, ok_bind,
    assertTimestamp_eq_ok_iff.mpr hcons.lastSeenAt, ok_bind,
    if_neg (not_lt.mpr hcons.ordered), hcons.revision, hcons.verifiedAt,
    hcons.retired, hretired, ← assertRevision_eq_ok_iff]
  cases assertRevision (1 + observed.replaced.length) with
  | error error => exact ⟨nofun, nofun⟩
  | ok value => exact ⟨fun _ => rfl, fun _ => rfl⟩

theorem Consistent.evaluate_eq_ok_iff (hcons : Consistent observed)
    {status : IdentityCandidateStatus} :
    evaluateContactIdentityCandidate sha256 (some observed.record) candidate suppliedCommitment =
        .ok status ↔
      Canonical candidate ∧ assertSuppliedCommitment sha256 candidate suppliedCommitment = .ok () ∧
        observed.replaced.length < maxRotations ∧
        status = if candidate = observed.record.identity then .matched
          else if candidate ∈ observed.replaced then .rollback else .changed := by
  have hcompare (hcand : Canonical candidate) : (do
      let current ← compositeIdentitiesEqual observed.record.identity candidate
      if current then pure .matched
      else
        let retired ← someIdentityEqual candidate observed.record.retiredIdentities
        if retired then pure .rollback else pure .changed) =
      (.ok (if candidate = observed.record.identity then .matched
        else if candidate ∈ observed.replaced then .rollback else .changed) :
          Except ProtocolError IdentityCandidateStatus) := by
    rw [compositeIdentitiesEqual_of_canonical hcons.identity hcand, ok_bind,
      hcons.retired, someIdentityEqual_of_canonical hcand hcons.canonical]
    by_cases hcur : candidate = observed.record.identity
    · simp [hcur]
    · by_cases hretired : candidate ∈ observed.replaced
      · simp [hcur, Ne.symm hcur, hretired]
      · simp [hcur, Ne.symm hcur, hretired]
  rw [evaluateContactIdentityCandidate]
  constructor
  · intro hok
    obtain ⟨bytes, hbytes, hok⟩ := bind_eq_ok_iff.mp hok
    obtain ⟨_, hcommit, hok⟩ := bind_eq_ok_iff.mp hok
    obtain ⟨_, hvalid, hok⟩ := bind_eq_ok_iff.mp hok
    rw [hcompare ⟨bytes, hbytes⟩] at hok
    exact ⟨⟨bytes, hbytes⟩, hcommit, hcons.validate_eq_ok_iff.mp hvalid, (Except.ok.inj hok).symm⟩
  · rintro ⟨⟨bytes, hbytes⟩, hcommit, hbound, rfl⟩
    rw [hbytes, ok_bind, hcommit, ok_bind]
    simp only [hcons.validate_eq_ok_iff.mpr hbound, ok_bind]
    exact hcompare ⟨bytes, hbytes⟩

def rotation (record : ContactIdentityRecord) (candidate : CompositeIdentityV1) (now : ℤ) :
    ContactIdentityRecord where
  identity := candidate
  trustState := .unverifiedTofu
  firstSeenAt := now
  lastSeenAt := now
  verifiedAt := none
  revision := record.revision + 1
  retiredIdentities := record.retiredIdentities ++ [record.identity]

section

variable (hcons : Consistent observed)

include hcons

theorem Consistent.rotatedRecord_eq (hcand : Canonical candidate) (now : ℤ) :
    rotatedRecord observed.record candidate now = .ok (rotation observed.record candidate now) := by
  have hretired : ∀ identity ∈ observed.record.retiredIdentities, Canonical identity := by
    rw [hcons.retired]
    exact hcons.canonical
  rw [rotatedRecord, cloneIdentity_of_canonical hcand, ok_bind, Canonical.clones hretired,
    ok_bind, cloneIdentity_of_canonical hcons.identity, ok_bind]
  rfl

variable {record : ContactIdentityRecord}

/-- An accepted call saw the current identity or rotates to one that the record never held. -/
theorem Consistent.accept_eq_ok_iff :
    acceptContactIdentityRotation sha256 observed.record candidate now suppliedCommitment =
        .ok record ↔
      IsTimestamp now ∧ Canonical candidate ∧
        assertSuppliedCommitment sha256 candidate suppliedCommitment = .ok () ∧
        observed.replaced.length < maxRotations ∧ candidate ∉ observed.replaced ∧
        record = if candidate = observed.record.identity then
          { observed.record with lastSeenAt := max observed.record.lastSeenAt now }
          else rotation observed.record candidate now := by
  have hbranches (hcand : Canonical candidate) (hretired : candidate ∉ observed.replaced)
      {status : IdentityCandidateStatus} (hstatus : status =
        if candidate = observed.record.identity then .matched
          else if candidate ∈ observed.replaced then .rollback else .changed) :
      (if status = .rollback then
        throw (.error "Refusing previously retired identity as a rollback")
      else if status = .matched then
        pure { observed.record with lastSeenAt := max observed.record.lastSeenAt now }
      else if status ≠ .changed then throw (.error
        s!"Identity rotation requires an existing different identity, got {status.text}")
      else rotatedRecord observed.record candidate now :
        Except ProtocolError ContactIdentityRecord) =
      .ok (if candidate = observed.record.identity then
        { observed.record with lastSeenAt := max observed.record.lastSeenAt now }
        else rotation observed.record candidate now) := by
    by_cases hcur : candidate = observed.record.identity
    · rw [if_pos hcur] at hstatus
      rw [hstatus, if_neg (by decide), if_pos rfl, if_pos hcur]
      rfl
    · rw [if_neg hcur, if_neg hretired] at hstatus
      rw [hstatus, if_neg (by decide), if_neg (by decide), if_neg (by decide), if_neg hcur]
      exact hcons.rotatedRecord_eq hcand now
  rw [acceptContactIdentityRotation]
  constructor
  · intro hok
    obtain ⟨_, htime, hok⟩ := bind_eq_ok_iff.mp hok
    obtain ⟨status, hevaluate, hok⟩ := bind_eq_ok_iff.mp hok
    obtain ⟨hcand, hcommit, hbound, hstatus⟩ := hcons.evaluate_eq_ok_iff.mp hevaluate
    have hretired : candidate ∉ observed.replaced := by
      intro hmem
      have hother : candidate ≠ observed.record.identity := by
        rintro rfl
        exact hcons.current hmem
      rw [if_neg hother, if_pos hmem] at hstatus
      rw [if_pos hstatus] at hok
      cases hok
    rw [hbranches hcand hretired hstatus] at hok
    exact ⟨assertTimestamp_eq_ok_iff.mp htime, hcand, hcommit, hbound, hretired,
      (Except.ok.inj hok).symm⟩
  · rintro ⟨htime, hcand, hcommit, hbound, hretired, rfl⟩
    rw [assertTimestamp_eq_ok_iff.mpr htime, ok_bind,
      hcons.evaluate_eq_ok_iff.mpr ⟨hcand, hcommit, hbound, rfl⟩, ok_bind]
    exact hbranches hcand hretired rfl

theorem Consistent.verify_eq_ok_iff :
    verifyContactIdentityRecord sha256 observed.record candidate now suppliedCommitment =
        .ok record ↔
      IsTimestamp now ∧ candidate = observed.record.identity ∧
        assertSuppliedCommitment sha256 candidate suppliedCommitment = .ok () ∧
        observed.replaced.length < maxRotations ∧
        record = { observed.record with
          trustState := .verified
          lastSeenAt := max observed.record.lastSeenAt now
          verifiedAt := some now } := by
  rw [verifyContactIdentityRecord]
  constructor
  · intro hok
    obtain ⟨_, htime, hok⟩ := bind_eq_ok_iff.mp hok
    obtain ⟨status, hevaluate, hok⟩ := bind_eq_ok_iff.mp hok
    obtain ⟨-, hcommit, hbound, hstatus⟩ := hcons.evaluate_eq_ok_iff.mp hevaluate
    split at hok
    · cases hok
    · rename_i hmatched
      have hcur : candidate = observed.record.identity := by
        by_contra hother
        rw [not_not.mp hmatched, if_neg hother] at hstatus
        split at hstatus
        · cases hstatus
        · cases hstatus
      exact ⟨assertTimestamp_eq_ok_iff.mp htime, hcur, hcommit, hbound, (Except.ok.inj hok).symm⟩
  · rintro ⟨htime, rfl, hcommit, hbound, rfl⟩
    rw [assertTimestamp_eq_ok_iff.mpr htime, ok_bind,
      hcons.evaluate_eq_ok_iff.mpr ⟨hcons.identity, hcommit, hbound, rfl⟩, ok_bind,
      if_pos rfl, if_neg (not_not.mpr rfl)]
    rfl

end

/-! ## Steps and runs -/

section

variable (hcons : Consistent observed)

include hcons

theorem Consistent.seen (hnow : IsTimestamp now) :
    Consistent { observed with
      record := { observed.record with lastSeenAt := max observed.record.lastSeenAt now } } :=
  { hcons with
    lastSeenAt := hcons.lastSeenAt.max hnow
    ordered := le_trans hcons.ordered (le_max_left _ _) }

theorem Consistent.verify (hnow : IsTimestamp now) :
    Consistent { observed with
      record := { observed.record with
        trustState := .verified
        lastSeenAt := max observed.record.lastSeenAt now
        verifiedAt := some now }
      verified := true } :=
  { hcons with
    lastSeenAt := hcons.lastSeenAt.max hnow
    ordered := le_trans hcons.ordered (le_max_left _ _)
    verifiedAt := assertTimestamp_eq_ok_iff.mpr hnow
    verified := ⟨fun _ => rfl, fun _ => rfl⟩ }

theorem Consistent.rotate (hnow : IsTimestamp now)
    (hcand : Canonical candidate)
    (hbound : observed.replaced.length < maxRotations) (hretired : candidate ∉ observed.replaced)
    (hcur : candidate ≠ observed.record.identity) :
    Consistent ⟨rotation observed.record candidate now,
      observed.replaced ++ [observed.record.identity], false⟩ where
  identity := hcand
  retired := by rw [rotation, hcons.retired]
  canonical identity hmem := by
    rcases mem_append.mp hmem with hmem | hmem
    · exact hcons.canonical identity hmem
    · rw [mem_singleton.mp hmem]
      exact hcons.identity
  nodup := by
    rw [nodup_append_comm, singleton_append, nodup_cons]
    exact ⟨hcons.current, hcons.nodup⟩
  current := by
    rw [mem_append, mem_singleton, not_or]
    exact ⟨hretired, hcur⟩
  revision := by
    rw [rotation, length_append, length_singleton]
    dsimp only
    rw [hcons.revision]
    omega
  bound := by
    rw [length_append, length_singleton]
    exact hbound
  firstSeenAt := hnow
  lastSeenAt := hnow
  ordered := le_rfl
  verifiedAt := rfl
  verified := ⟨nofun, nofun⟩

theorem Consistent.observeCall (call : ContactCall) :
    Consistent (observeCall sha256 observed call) := by
  rw [Keys.observeCall]
  cases hcall : callRecord sha256 observed.record call with
  | error error => exact hcons
  | ok record =>
    cases call with
    | evaluate candidate suppliedCommitment =>
      obtain ⟨status, -, hok⟩ := bind_eq_ok_iff.mp hcall
      obtain rfl := Except.ok.inj hok
      exact hcons
    | accept candidate now suppliedCommitment =>
      obtain ⟨hnow, hcand, -, hbound, hretired, rfl⟩ :=
        hcons.accept_eq_ok_iff.mp hcall
      by_cases hcur : candidate = observed.record.identity
      · simp only [Observed.next, if_pos hcur]
        exact hcons.seen hnow
      · simp only [Observed.next, if_neg hcur]
        exact hcons.rotate hnow hcand hbound hretired hcur
    | verify candidate now suppliedCommitment =>
      obtain ⟨hnow, -, -, -, rfl⟩ := hcons.verify_eq_ok_iff.mp hcall
      exact hcons.verify hnow

theorem Consistent.observeCalls (calls : List ContactCall) :
    Consistent (observeCalls sha256 observed calls) := by
  induction calls generalizing observed with
  | nil => exact hcons
  | cons call calls ih => exact ih (hcons.observeCall call)

end

theorem createUnverifiedContactIdentityRecord_eq_ok_iff {record : ContactIdentityRecord} :
    createUnverifiedContactIdentityRecord identity now = .ok record ↔
      IsTimestamp now ∧ Canonical identity ∧
        record = ⟨identity, .unverifiedTofu, now, now, none, 1, []⟩ := by
  rw [createUnverifiedContactIdentityRecord]
  constructor
  · intro hok
    obtain ⟨_, htime, hok⟩ := bind_eq_ok_iff.mp hok
    obtain ⟨clone, hclone, hok⟩ := bind_eq_ok_iff.mp hok
    have hcanon := Canonical.of_clone hclone
    rw [cloneIdentity_of_canonical hcanon] at hclone
    obtain rfl := Except.ok.inj hclone
    exact ⟨assertTimestamp_eq_ok_iff.mp htime, hcanon, (Except.ok.inj hok).symm⟩
  · rintro ⟨htime, hcanon, rfl⟩
    rw [assertTimestamp_eq_ok_iff.mpr htime, ok_bind, cloneIdentity_of_canonical hcanon, ok_bind]
    rfl

theorem Consistent.create {record : ContactIdentityRecord}
    (hcreate : createUnverifiedContactIdentityRecord identity now = .ok record) :
    Consistent ⟨record, [], false⟩ := by
  obtain ⟨hnow, hident, rfl⟩ := createUnverifiedContactIdentityRecord_eq_ok_iff.mp hcreate
  exact {
    identity := hident
    retired := rfl
    canonical := nofun
    nodup := nodup_nil
    current := not_mem_nil
    revision := rfl
    bound := Nat.zero_le _
    firstSeenAt := hnow
    lastSeenAt := hnow
    ordered := le_rfl
    verifiedAt := rfl
    verified := ⟨nofun, nofun⟩ }

theorem Consistent.callRecord_error (hcons : Consistent observed)
    (hlast : ¬ observed.replaced.length < maxRotations) (call : ContactCall) :
    ∃ error, callRecord sha256 observed.record call = .error error := by
  cases hcall : callRecord sha256 observed.record call with
  | error error => exact ⟨error, rfl⟩
  | ok record =>
    exfalso
    cases call with
    | evaluate candidate suppliedCommitment =>
      obtain ⟨status, hevaluate, -⟩ := bind_eq_ok_iff.mp hcall
      exact hlast (hcons.evaluate_eq_ok_iff.mp hevaluate).2.2.1
    | accept candidate now suppliedCommitment =>
      exact hlast (hcons.accept_eq_ok_iff.mp hcall).2.2.2.1
    | verify candidate now suppliedCommitment =>
      exact hlast (hcons.verify_eq_ok_iff.mp hcall).2.2.2.1

/-- Below the last revision the record is valid. -/
theorem contactHistory_faithful (sha256 : Bytes → Bytes) (identity : CompositeIdentityV1) (now : ℤ)
    (record : ContactIdentityRecord)
    (hcreate : createUnverifiedContactIdentityRecord identity now = .ok record)
    (calls : List ContactCall) (observed : Observed)
    (hobserved : observed = observeCalls sha256 ⟨record, [], false⟩ calls) :
    (validateContactIdentityRecord observed.record = .ok () ↔
        observed.replaced.length < 2 ^ 53 - 1) ∧
      (¬ observed.replaced.length < 2 ^ 53 - 1 → observed.replaced.length = 2 ^ 53 - 1 ∧
          ∀ call, ∃ error, callRecord sha256 observed.record call = .error error) ∧
      observed.record.revision = 1 + observed.replaced.length ∧
      (∀ old ∈ observed.replaced, old ≠ observed.record.identity ∧
        (observed.replaced.length < 2 ^ 53 - 1 → ∀ suppliedCommitment,
          assertSuppliedCommitment sha256 old suppliedCommitment = .ok () →
            evaluateContactIdentityCandidate sha256 (some observed.record) old
              suppliedCommitment = .ok .rollback)) ∧
      (observed.record.trustState = .verified ↔ observed.verified = true) ∧
      ∀ call error, callRecord sha256 observed.record call = .error error →
        observeCall sha256 observed call = observed := by
  have hcons : Consistent observed := by
    rw [hobserved]
    exact (Consistent.create hcreate).observeCalls calls
  have hbound := hcons.bound
  refine ⟨hcons.validate_eq_ok_iff, fun hlast => ⟨?_, hcons.callRecord_error hlast⟩,
    hcons.revision, fun old hmem => ?_, hcons.verified, fun call error hcall => ?_⟩
  · rw [maxRotations] at hbound
    omega
  · have hold : old ≠ observed.record.identity := by
      rintro rfl
      exact hcons.current hmem
    refine ⟨hold, fun hrotations suppliedCommitment hcommitment => ?_⟩
    refine hcons.evaluate_eq_ok_iff.mpr
      ⟨hcons.canonical old hmem, hcommitment, hrotations, ?_⟩
    rw [if_neg hold, if_pos hmem]
  · rw [observeCall, hcall]

def indexedKey (index : ℕ) : Bytes :=
  [UInt8.ofNat index, UInt8.ofNat (index / 2 ^ 8), UInt8.ofNat (index / 2 ^ 16),
    UInt8.ofNat (index / 2 ^ 24), UInt8.ofNat (index / 2 ^ 32), UInt8.ofNat (index / 2 ^ 40),
    UInt8.ofNat (index / 2 ^ 48)] ++ List.replicate 25 0

def indexedIdentity (index : ℕ) : CompositeIdentityV1 :=
  compositeIdentity (indexedKey index) (indexedKey index)

theorem length_indexedKey : (indexedKey index).length = publicKeyLength := rfl

theorem canonical_indexedIdentity : Canonical (indexedIdentity index) :=
  ⟨_, encodeCompositeIdentityV1_eq_ok_iff.mpr ⟨_, _, length_indexedKey index,
    length_indexedKey index, rfl, rfl⟩⟩

theorem indexedIdentity_inj {first second : ℕ} (hfst : first < 2 ^ 56) (hsnd : second < 2 ^ 56)
    (heq : indexedIdentity first = indexedIdentity second) : first = second := by
  have hunits : base64Units (indexedKey first) = base64Units (indexedKey second) :=
    congrArg CompositeIdentityV1.x25519PublicKey heq
  have hdec := base64ToBytes_eq_ok_iff.mpr (normalizeBase64_base64Units (indexedKey first))
  rw [hunits, base64ToBytes_eq_ok_iff.mpr (normalizeBase64_base64Units (indexedKey second)),
    Except.ok.injEq] at hdec
  have hbytes := append_cancel_right hdec
  simp only [List.cons.injEq, ← UInt8.toNat_inj, UInt8.toNat_ofNat'] at hbytes
  omega

def rotations (count : ℕ) : List ContactCall :=
  (List.range count).map fun index => .accept (indexedIdentity (index + 1)) 0 none

def firstContact : Observed :=
  ⟨⟨indexedIdentity 0, .unverifiedTofu, 0, 0, none, 1, []⟩, [], false⟩

theorem create_firstContact :
    createUnverifiedContactIdentityRecord (indexedIdentity 0) 0 = .ok firstContact.record :=
  createUnverifiedContactIdentityRecord_eq_ok_iff.mpr
    ⟨⟨le_rfl, by decide⟩, canonical_indexedIdentity 0, rfl⟩

theorem observeCalls_rotations (sha256 : Bytes → Bytes) {count : ℕ}
    (hcount : count ≤ maxRotations) :
    (observeCalls sha256 firstContact (rotations count)).record.identity = indexedIdentity count ∧
      (observeCalls sha256 firstContact (rotations count)).replaced =
        (List.range count).map indexedIdentity := by
  induction count with
  | zero => exact ⟨rfl, rfl⟩
  | succ count ih =>
    obtain ⟨hident, hreplaced⟩ := ih (by omega)
    have hcons : Consistent (observeCalls sha256 firstContact (rotations count)) :=
      (Consistent.create create_firstContact).observeCalls _
    have hrotations : rotations (count + 1) =
        rotations count ++ [.accept (indexedIdentity (count + 1)) 0 none] := by
      rw [rotations, rotations, range_succ, map_append]
      rfl
    rw [maxRotations] at hcount
    have hfresh : indexedIdentity (count + 1) ∉
        (observeCalls sha256 firstContact (rotations count)).replaced := by
      rw [hreplaced, mem_map]
      rintro ⟨index, hidx, heq⟩
      rw [mem_range] at hidx
      have hsame := indexedIdentity_inj (by omega) (by omega) heq
      omega
    have hcur : indexedIdentity (count + 1) ≠
        (observeCalls sha256 firstContact (rotations count)).record.identity := by
      rw [hident]
      intro heq
      have hsame := indexedIdentity_inj (by omega) (by omega) heq
      omega
    have haccept : acceptContactIdentityRotation sha256
        (observeCalls sha256 firstContact (rotations count)).record
          (indexedIdentity (count + 1)) 0 none = .ok (rotation (observeCalls sha256 firstContact (rotations count)).record
            (indexedIdentity (count + 1)) 0) := by
      refine hcons.accept_eq_ok_iff.mpr ⟨⟨le_rfl, by decide⟩,
        canonical_indexedIdentity (count + 1), rfl, ?_, hfresh, (if_neg hcur).symm⟩
      rw [hreplaced, length_map, length_range, maxRotations]
      omega
    have hstep : observeCalls sha256 firstContact (rotations (count + 1)) =
        ⟨rotation (observeCalls sha256 firstContact (rotations count)).record
          (indexedIdentity (count + 1)) 0,
          (observeCalls sha256 firstContact (rotations count)).replaced ++
            [(observeCalls sha256 firstContact (rotations count)).record.identity], false⟩ := by
      rw [hrotations, observeCalls, foldl_append, foldl_cons, foldl_nil,
        ← observeCalls, observeCall, callRecord, haccept]
      exact if_neg hcur
    rw [hstep]
    refine ⟨rfl, ?_⟩
    dsimp only
    rw [hreplaced, hident, range_succ, map_append]
    rfl

/-- After one rotation the first identity is a rollback. -/
theorem contactHistory_faithful_rotated :
    evaluateContactIdentityCandidate id
      (some (observeCalls id firstContact [.accept (indexedIdentity 1) 5 none]).record)
        (indexedIdentity 0) none = .ok .rollback :=
  ((contactHistory_faithful id (indexedIdentity 0) 0 firstContact.record create_firstContact
    [.accept (indexedIdentity 1) 5 none] _ rfl).2.2.2.1 (indexedIdentity 0)
      (by decide)).2 (by decide) none rfl

/-- After enough rotations the record fails its validation. -/
theorem contactHistory_not_valid :
    ¬ ∀ sha256 identity now record,
      createUnverifiedContactIdentityRecord identity now = .ok record → ∀ calls,
        validateContactIdentityRecord
          (observeCalls sha256 ⟨record, [], false⟩ calls).record = .ok () := by
  intro hall
  have hcons : Consistent (observeCalls id firstContact (rotations maxRotations)) :=
    (Consistent.create create_firstContact).observeCalls _
  have hvalid := hall id (indexedIdentity 0) 0 firstContact.record create_firstContact
    (rotations maxRotations)
  have hfewer := hcons.validate_eq_ok_iff.mp hvalid
  rw [(observeCalls_rotations id le_rfl).2, length_map, length_range] at hfewer
  exact absurd hfewer (lt_irrefl _)

end SignalProtocol.Keys

import SignalProtocol.Proof.AddressBinding
import SignalProtocol.Proof.ContactIdentity
import SignalProtocol.Proof.VerifyLinks

/-! # Scannable codes

The reader of scannable codes reads back what the encoder writes. -/

namespace SignalProtocol.Safety

open Keys Proto Results List

variable {number : ℕ} {data : CombinedFingerprints}

def codeTag (number wireType : ℕ) : ℕ := number <<< 3 ||| wireType

theorem encodeTag_eq_ok_iff {wireType : ℕ} {bytes : Bytes} :
    encodeTag number wireType = .ok bytes ↔
      codeTag number wireType ≤ uint32Max ∧ bytes = varint (codeTag number wireType) :=
  encodeVarint_eq_ok_iff

def payloadField (number : ℕ) (payload : Bytes) : Bytes :=
  varint (codeTag number wireTypeLengthDelimited) ++ (varint payload.length ++ payload)

theorem encodeBytesField_eq_ok_iff {payload bytes : Bytes}
    (hnum : codeTag number wireTypeLengthDelimited ≤ uint32Max) :
    encodeBytesField number payload = .ok bytes ↔
      payload.length ≤ uint32Max ∧ bytes = payloadField number payload := by
  rw [encodeBytesField, encodeTag_eq_ok_iff.mpr ⟨hnum, rfl⟩, ok_bind, bind_eq_ok_iff]
  constructor
  · rintro ⟨length, hlen, hbytes⟩
    obtain ⟨hpayload, rfl⟩ := encodeVarint_eq_ok_iff.mp hlen
    refine ⟨hpayload, ?_⟩
    rw [← Except.ok.inj hbytes, payloadField, append_assoc]
  · rintro ⟨hpayload, rfl⟩
    refine ⟨_, encodeVarint_eq_ok_iff.mpr ⟨hpayload, rfl⟩, ?_⟩
    rw [payloadField, pure_eq_ok, append_assoc]

theorem encodeUint32Field_eq_ok_iff {value : ℕ} {bytes : Bytes}
    (hnum : codeTag number wireTypeVarint ≤ uint32Max) :
    encodeUint32Field number value = .ok bytes ↔
      value ≤ uint32Max ∧ bytes = varint (codeTag number wireTypeVarint) ++ varint value := by
  rw [encodeUint32Field, encodeTag_eq_ok_iff.mpr ⟨hnum, rfl⟩, ok_bind, bind_eq_ok_iff]
  constructor
  · rintro ⟨encoded, henc, hbytes⟩
    obtain ⟨hval, rfl⟩ := encodeVarint_eq_ok_iff.mp henc
    exact ⟨hval, (Except.ok.inj hbytes).symm⟩
  · rintro ⟨hval, rfl⟩
    exact ⟨_, encodeVarint_eq_ok_iff.mpr ⟨hval, rfl⟩, rfl⟩

theorem decodeLogicalFingerprint_payloadField {content : Bytes}
    (hcontent : content.length ≤ uint32Max) :
    decodeLogicalFingerprint (payloadField 1 content) = .ok content := by
  have htag : codeTag 1 wireTypeLengthDelimited ≤ uint32Max := by decide
  have hfield : ¬ (codeTag 1 wireTypeLengthDelimited >>> 3 ≠ 1 ∨
      codeTag 1 wireTypeLengthDelimited &&& 0x07 ≠ wireTypeLengthDelimited) := by decide
  rw [decodeLogicalFingerprint, payloadField, decodeVarint_varint htag, ok_bind]
  dsimp only
  rw [if_neg hfield, decodeVarint_varint hcontent, ok_bind]
  dsimp only
  rw [List.take_length, if_neg (not_not.mpr rfl)]
  rfl

def fingerprintField (number : ℕ) (fingerprint : Bytes) : Bytes :=
  payloadField number (payloadField 1 fingerprint)

theorem readFingerprint_payload {name : String} {fingerprint : Bytes} (rest : Bytes)
    (hprint : fingerprint.length ≤ uint32Max)
    (hpayload : (payloadField 1 fingerprint).length ≤ uint32Max) :
    readFingerprint name wireTypeLengthDelimited
        (varint (payloadField 1 fingerprint).length ++ (payloadField 1 fingerprint ++ rest)) =
      .ok (fingerprint, rest) := by
  rw [readFingerprint, if_neg (not_not.mpr rfl), decodeVarint_varint hpayload, ok_bind]
  dsimp only
  rw [List.take_left, drop_left, decodeLogicalFingerprint_payloadField hprint, ok_bind]
  rfl

theorem readCombinedFields_tag {bound tag : ℕ} (fields : FingerprintFields) (rest : Bytes)
    (htag : tag ≤ uint32Max) :
    readCombinedFields (bound + 1) fields (varint tag ++ rest) =
      readCombinedField (tag >>> 3) (tag &&& 0x7) fields rest >>= fun read =>
        readCombinedFields bound read.1 read.2 := by
  obtain ⟨first, others, hbytes⟩ := exists_cons_of_ne_nil
    (append_ne_nil_of_left_ne_nil (varint_ne_nil tag) rest)
  have hread := decodeVarint_varint htag rest
  rw [hbytes] at hread ⊢
  rw [readCombinedFields.eq_3 _ _ _ (by simp), hread, ok_bind]

theorem readCombinedFields_nil (bound : ℕ) (fields : FingerprintFields) :
    readCombinedFields bound fields [] = .ok fields := by
  cases bound <;> rfl

def CombinedFingerprints.bytes (data : CombinedFingerprints) : Bytes :=
  varint (codeTag 1 wireTypeVarint) ++ (varint data.version ++
    (fingerprintField 2 data.localFingerprint ++ fingerprintField 3 data.remoteFingerprint))

structure CombinedFingerprints.Encodable (data : CombinedFingerprints) : Prop where
  version_le : data.version ≤ uint32Max
  local_le : data.localFingerprint.length ≤ uint32Max
  localField_le : (payloadField 1 data.localFingerprint).length ≤ uint32Max
  remote_le : data.remoteFingerprint.length ≤ uint32Max
  remoteField_le : (payloadField 1 data.remoteFingerprint).length ≤ uint32Max

theorem encodeCombinedFingerprints_eq_ok_iff {bytes : Bytes} :
    encodeCombinedFingerprints data = .ok bytes ↔ data.Encodable ∧ bytes = data.bytes := by
  have hone : codeTag 1 wireTypeLengthDelimited ≤ uint32Max := by decide
  have htwo : codeTag 2 wireTypeLengthDelimited ≤ uint32Max := by decide
  have hthree : codeTag 3 wireTypeLengthDelimited ≤ uint32Max := by decide
  have hversionTag : codeTag 1 wireTypeVarint ≤ uint32Max := by decide
  constructor
  · intro hok
    obtain ⟨version, hver, hok⟩ := bind_eq_ok_iff.mp hok
    obtain ⟨localFp, hlocalFp, hok⟩ := bind_eq_ok_iff.mp hok
    obtain ⟨localField, hlocalField, hok⟩ := bind_eq_ok_iff.mp hok
    obtain ⟨remoteFp, hremoteFp, hok⟩ := bind_eq_ok_iff.mp hok
    obtain ⟨remoteField, hremoteField, hok⟩ := bind_eq_ok_iff.mp hok
    obtain ⟨hversionLe, rfl⟩ := (encodeUint32Field_eq_ok_iff hversionTag).mp hver
    obtain ⟨hlocalLe, rfl⟩ := (encodeBytesField_eq_ok_iff hone).mp hlocalFp
    obtain ⟨hlocalFieldLe, rfl⟩ := (encodeBytesField_eq_ok_iff htwo).mp hlocalField
    obtain ⟨hremoteLe, rfl⟩ := (encodeBytesField_eq_ok_iff hone).mp hremoteFp
    obtain ⟨hremoteFieldLe, rfl⟩ := (encodeBytesField_eq_ok_iff hthree).mp hremoteField
    refine ⟨⟨hversionLe, hlocalLe, hlocalFieldLe, hremoteLe, hremoteFieldLe⟩, ?_⟩
    rw [← Except.ok.inj hok]
    simp only [CombinedFingerprints.bytes, fingerprintField, append_assoc]
  · rintro ⟨henc, rfl⟩
    rw [encodeCombinedFingerprints,
      (encodeUint32Field_eq_ok_iff hversionTag).mpr ⟨henc.version_le, rfl⟩, ok_bind,
      encodeLogicalFingerprint,
      (encodeBytesField_eq_ok_iff hone).mpr ⟨henc.local_le, rfl⟩, ok_bind,
      (encodeBytesField_eq_ok_iff htwo).mpr ⟨henc.localField_le, rfl⟩, ok_bind,
      encodeLogicalFingerprint,
      (encodeBytesField_eq_ok_iff hone).mpr ⟨henc.remote_le, rfl⟩, ok_bind,
      (encodeBytesField_eq_ok_iff hthree).mpr ⟨henc.remoteField_le, rfl⟩, ok_bind, pure_eq_ok]
    simp only [CombinedFingerprints.bytes, fingerprintField, append_assoc]

theorem decodeCombinedFingerprints_bytes
    (henc : data.Encodable) : decodeCombinedFingerprints data.bytes = .ok data := by
  have hversionTag : codeTag 1 wireTypeVarint ≤ uint32Max := by decide
  have hlocalTag : codeTag 2 wireTypeLengthDelimited ≤ uint32Max := by decide
  have hremoteTag : codeTag 3 wireTypeLengthDelimited ≤ uint32Max := by decide
  obtain ⟨bound, hbound⟩ : ∃ bound, data.bytes.length = bound + 1 + 1 + 1 := by
    have htag := length_pos_iff.mpr (varint_ne_nil (codeTag 1 wireTypeVarint))
    have hlocal := length_pos_iff.mpr (varint_ne_nil (codeTag 2 wireTypeLengthDelimited))
    have hremote := length_pos_iff.mpr (varint_ne_nil (codeTag 3 wireTypeLengthDelimited))
    refine ⟨data.bytes.length - 3, ?_⟩
    simp only [CombinedFingerprints.bytes, fingerprintField, payloadField, length_append]
    omega
  have hver (fields : FingerprintFields) (rest : Bytes) :
      readCombinedField (codeTag 1 wireTypeVarint >>> 3) (codeTag 1 wireTypeVarint &&& 0x7) fields
        (varint data.version ++ rest) =
      .ok ({ fields with version := some data.version }, rest) := by
    have hnum : codeTag 1 wireTypeVarint >>> 3 = 1 := by decide
    have htype : ¬ codeTag 1 wireTypeVarint &&& 0x7 ≠ wireTypeVarint := by decide
    rw [hnum, readCombinedField, if_neg htype, decodeVarint_varint henc.version_le, ok_bind]
    rfl
  have hlocal (fields : FingerprintFields) (rest : Bytes) :
      readCombinedField (codeTag 2 wireTypeLengthDelimited >>> 3)
        (codeTag 2 wireTypeLengthDelimited &&& 0x7) fields
        (varint (payloadField 1 data.localFingerprint).length ++
          (payloadField 1 data.localFingerprint ++ rest)) =
      .ok ({ fields with localFingerprint := some data.localFingerprint }, rest) := by
    change (readFingerprint "local_fingerprint" wireTypeLengthDelimited _ >>= _) = _
    rw [readFingerprint_payload rest henc.local_le henc.localField_le, ok_bind]
    rfl
  have hremote (fields : FingerprintFields) (rest : Bytes) :
      readCombinedField (codeTag 3 wireTypeLengthDelimited >>> 3)
        (codeTag 3 wireTypeLengthDelimited &&& 0x7) fields
        (varint (payloadField 1 data.remoteFingerprint).length ++
          (payloadField 1 data.remoteFingerprint ++ rest)) =
      .ok ({ fields with remoteFingerprint := some data.remoteFingerprint }, rest) := by
    change (readFingerprint "remote_fingerprint" wireTypeLengthDelimited _ >>= _) = _
    rw [readFingerprint_payload rest henc.remote_le henc.remoteField_le, ok_bind]
    rfl
  have hlast := hremote
    { version := some data.version, localFingerprint := some data.localFingerprint } []
  rw [append_nil] at hlast
  rw [decodeCombinedFingerprints, hbound, CombinedFingerprints.bytes,
    readCombinedFields_tag _ _ hversionTag, hver, ok_bind]
  dsimp only
  rw [fingerprintField, payloadField, append_assoc, append_assoc,
    readCombinedFields_tag _ _ hlocalTag, hlocal, ok_bind]
  dsimp only
  rw [fingerprintField, payloadField, readCombinedFields_tag _ _ hremoteTag, hlast, ok_bind,
    readCombinedFields_nil, ok_bind]
  rfl

theorem length_payloadField (number : ℕ) (payload : Bytes) :
    (payloadField number payload).length =
      (varint (codeTag number wireTypeLengthDelimited)).length +
        ((varint payload.length).length + payload.length) := by
  rw [payloadField, length_append, length_append]

section

variable {first second : Bytes} (hfst : first.length = scannableFingerprintBytes)
  (hsnd : second.length = scannableFingerprintBytes)
include hfst

theorem length_logicalFingerprint : (payloadField 1 first).length = 34 := by
  rw [length_payloadField, hfst]
  decide

include hsnd

theorem length_code :
    (CombinedFingerprints.bytes ⟨compositeFingerprintVersion, first, second⟩).length = 74 := by
  simp only [CombinedFingerprints.bytes, fingerprintField, length_append]
  rw [length_payloadField 2, length_payloadField 3, length_logicalFingerprint hfst,
    length_logicalFingerprint hsnd]
  decide

end

namespace ScannableFingerprint

variable (scannable : ScannableFingerprint)

def mirrored : CombinedFingerprints :=
  ⟨scannable.version, scannable.remoteFingerprint, scannable.localFingerprint⟩

variable {bytes : Bytes}

theorem compare_eq_matched_iff :
    scannable.compare bytes = .matched ↔
      decodeCombinedFingerprints bytes = .ok scannable.mirrored := by
  rw [compare]
  split
  · rename_i herr
    rw [herr]
    constructor
    · intro hmatch
      cases hmatch
    · intro hok
      cases hok
  · rename_i decoded hdec
    rw [hdec, Except.ok.injEq]
    rcases decoded with ⟨version, localFingerprint, remoteFingerprint⟩
    rw [mirrored, CombinedFingerprints.mk.injEq]
    simp only [constantTimeEqual_iff]
    split
    · rename_i hver
      constructor
      · intro hmatch
        cases hmatch
      · exact fun hboth => absurd hboth.1 hver
    · rename_i hver
      split
      · rename_i hboth
        exact ⟨fun _ => ⟨not_not.mp hver, hboth⟩, fun _ => rfl⟩
      · rename_i hneither
        constructor
        · intro hmatch
          cases hmatch
        · exact fun hboth => absurd hboth.2 hneither

theorem create_eq_ok_iff {localFingerprint remoteFingerprint : Bytes} {version : ℕ} :
    create localFingerprint remoteFingerprint version = .ok scannable ↔
      scannable.version = version ∧ scannable.localFingerprint = localFingerprint ∧
        scannable.remoteFingerprint = remoteFingerprint := by
  rcases scannable with ⟨_, _, _, hlocal, hremote⟩
  rw [create]
  constructor
  · intro hok
    split at hok
    · split at hok
      · cases hok
        exact ⟨rfl, rfl, rfl⟩
      · cases hok
    · cases hok
  · rintro ⟨rfl, rfl, rfl⟩
    rw [dif_pos hlocal, dif_pos hremote]
    rfl

theorem encodable (hver : scannable.version ≤ uint32Max) :
    CombinedFingerprints.Encodable
      ⟨scannable.version, scannable.localFingerprint, scannable.remoteFingerprint⟩ := by
  refine ⟨hver, ?_, ?_, ?_, ?_⟩
  · rw [scannable.local_length]
    decide
  · rw [length_logicalFingerprint scannable.local_length]
    decide
  · rw [scannable.remote_length]
    decide
  · rw [length_logicalFingerprint scannable.remote_length]
    decide

theorem toBuffer_eq_ok_iff (hver : scannable.version ≤ uint32Max) :
    scannable.toBuffer = .ok bytes ↔ bytes = CombinedFingerprints.bytes
      ⟨scannable.version, scannable.localFingerprint, scannable.remoteFingerprint⟩ := by
  rw [toBuffer, encodeCombinedFingerprints_eq_ok_iff]
  exact ⟨fun hboth => hboth.2, fun hbytes => ⟨scannable.encodable hver, hbytes⟩⟩

end ScannableFingerprint

/-! ## Safety numbers of two parties

The order of two fingerprints does not depend on which of them is the local one. -/

variable {identifier commitment : Bytes}

variable {commitment' identifier' input : Bytes} {pair : FingerprintPair}
  {first second : IndividualFingerprint} {userId : JsString}

theorem compareBytes_swap (left right : Bytes) :
    compareBytes right left = -compareBytes left right := by
  induction left generalizing right with
  | nil =>
    cases right with
    | nil => rfl
    | cons other right => simp [compareBytes]
  | cons byte left ih =>
    cases right with
    | nil => simp [compareBytes]
    | cons other right =>
      rw [compareBytes, compareBytes]
      by_cases hsame : (byte.toNat : ℤ) - other.toNat ≠ 0
      · rw [if_pos hsame, if_pos (by omega)]
        omega
      · rw [if_neg hsame, if_neg (by omega)]
        exact ih right

theorem compareBytes_eq_zero_iff {left right : Bytes} :
    compareBytes left right = 0 ↔ left = right := by
  induction left generalizing right with
  | nil =>
    cases right with
    | nil => simp [compareBytes]
    | cons other right =>
      simp only [compareBytes, length_nil, length_cons, reduceCtorEq, iff_false]
      omega
  | cons byte left ih =>
    cases right with
    | nil =>
      simp only [compareBytes, length_nil, length_cons, reduceCtorEq, iff_false]
      omega
    | cons other right =>
      rw [compareBytes]
      by_cases hsame : (byte.toNat : ℤ) - other.toNat ≠ 0
      · rw [if_pos hsame]
        refine ⟨fun hzero => absurd hzero hsame, fun heq => ?_⟩
        rw [(List.cons.inj heq).1] at hsame
        omega
      · have hbyte : byte = other := by
          rw [← UInt8.toNat_inj]
          omega
        rw [if_neg hsame, ih, hbyte, cons_inj_right]

theorem fingerprintOrder_swap (first second : IndividualFingerprint) :
    fingerprintOrder second first = -fingerprintOrder first second := by
  rw [fingerprintOrder, fingerprintOrder]
  rw [compareBytes_swap (List.flatMap _ (generateNumericFromFingerprint first.full 30)),
    compareBytes_swap first.full]
  split
  · rw [if_pos (by omega)]
  · rw [if_neg (by omega)]

theorem fingerprintOrder_eq_zero_iff :
    fingerprintOrder first second = 0 ↔ first.full = second.full := by
  rw [fingerprintOrder]
  constructor
  · intro hzero
    split at hzero
    · rename_i hdigits
      exact absurd hzero hdigits
    · exact compareBytes_eq_zero_iff.mp hzero
  · intro hfull
    rw [hfull, if_neg (not_not.mpr (compareBytes_eq_zero_iff.mpr rfl))]
    exact compareBytes_eq_zero_iff.mpr rfl

theorem orderFingerprintPair_local (first second : IndividualFingerprint) :
    (orderFingerprintPair first second).localFingerprint = first := by
  rw [orderFingerprintPair]
  split <;> rfl

theorem orderFingerprintPair_remote (first second : IndividualFingerprint) :
    (orderFingerprintPair first second).remoteFingerprint = second := by
  rw [orderFingerprintPair]
  split <;> rfl

/-- What is shown of two fingerprints is the same on both sides. -/
theorem orderFingerprintPair_swap (htie : first.full = second.full → first = second) :
    (orderFingerprintPair second first).displayable =
        (orderFingerprintPair first second).displayable ∧
      (orderFingerprintPair second first).hex = (orderFingerprintPair first second).hex ∧
      (orderFingerprintPair second first).firstFingerprint =
        (orderFingerprintPair first second).firstFingerprint := by
  have hswap := fingerprintOrder_swap first second
  rcases lt_trichotomy (fingerprintOrder first second) 0 with hlt | heq | hgt
  · rw [orderFingerprintPair, orderFingerprintPair, if_pos hlt.le, if_neg (by omega)]
    exact ⟨rfl, rfl, rfl⟩
  · obtain rfl := htie (fingerprintOrder_eq_zero_iff.mp heq)
    exact ⟨rfl, rfl, rfl⟩
  · rw [orderFingerprintPair, orderFingerprintPair, if_neg (not_le.mpr hgt), if_pos (by omega)]
    exact ⟨rfl, rfl, rfl⟩

structure Side where
  userId : JsString
  identity : CompositeIdentityV1

/-- The arguments of one party. -/
structure SafetyView where
  localSide : Side
  remoteSide : Side
  identityType : IdentityType

structure Side.Same (side other : Side) : Prop where
  userId_eq : JsString.toWellFormed side.userId = JsString.toWellFormed other.userId
  identity_eq : side.identity = other.identity

namespace SafetyView

def swapped (view : SafetyView) : SafetyView where
  localSide := view.remoteSide
  remoteSide := view.localSide
  identityType := view.identityType

/-- The two parties mean the same two sides. -/
structure Mirrors (view other : SafetyView) : Prop where
  identityType_eq : view.identityType = other.identityType
  local_same : view.localSide.Same other.remoteSide
  remote_same : view.remoteSide.Same other.localSide

end SafetyView

section

variable (crypto : SafetyCrypto)

def Side.fingerprint (identityType : IdentityType) (side : Side) :
    Except ProtocolError IndividualFingerprint :=
  computeCompositeIndividualFingerprint crypto side.identity side.userId identityType

def SafetyView.generate (view : SafetyView) : Except ProtocolError SafetyNumber :=
  generateCompositeSafetyNumber crypto view.localSide.identity view.remoteSide.identity
    view.localSide.userId view.remoteSide.userId view.identityType

structure Side.Starts (identityType : IdentityType) (side : Side) (commitment identifier : Bytes) :
    Prop where
  commitment_eq : deriveIdentityCommitment crypto side.identity = .ok commitment
  identifier_eq : encodeCompositeSafetyIdentifier side.userId identityType = .ok identifier

def hashBefore (commitment identifier : Bytes) (round : ℕ) : Bytes :=
  (hashRound crypto commitment)^[round] (compositeFingerprintDomain ++ identifier ++ commitment)

def SafetyView.identityInputs (view : SafetyView) : Set Bytes :=
  {input | ∃ side ∈ [view.localSide, view.remoteSide], ∃ encoded,
    encodeCompositeIdentityV1 side.identity = .ok encoded ∧ input = domainBytes ++ encoded}

def SafetyView.roundInputs (round : ℕ) (view : SafetyView) : Set Bytes :=
  {input | ∃ side ∈ [view.localSide, view.remoteSide], ∃ commitment identifier,
    side.Starts crypto view.identityType commitment identifier ∧
      input = hashBefore crypto commitment identifier round ++ commitment}

/-- The hashes have no collisions on what two views hash, not even in the bytes that are kept. -/
structure SafetyCrypto.Injective (view other : SafetyView) : Prop where
  sha256_length : ∀ input, (crypto.sha256 input).length = 32
  sha256_injOn : Set.InjOn crypto.sha256 (view.identityInputs ∪ other.identityInputs)
  sha512_injOn : ∀ round < fingerprintIterations,
    Set.InjOn (fun input => (crypto.sha512 input).take scannableFingerprintBytes)
      (view.roundInputs crypto round ∪ other.roundInputs crypto round)

end

variable {crypto : SafetyCrypto} {view other : SafetyView}

/-! ## Fingerprints -/

theorem encodeCompositeSafetyIdentifier_eq_ok_iff {identityType : IdentityType} :
    encodeCompositeSafetyIdentifier userId identityType = .ok identifier ↔
      JsString.encode userId ≠ [] ∧ identifier = identityTypeByte identityType ::
        encodeUint32BE (JsString.encode userId).length ++ JsString.encode userId := by
  rw [encodeCompositeSafetyIdentifier]
  split
  · rename_i hempty
    constructor
    · intro hok
      cases hok
    · exact fun hboth => absurd hempty hboth.1
  · rename_i hne
    rw [pure_eq_ok, Except.ok.injEq]
    exact ⟨fun heq => ⟨hne, heq.symm⟩, fun hboth => hboth.2.symm⟩

theorem Side.fingerprint_eq_ok_iff {identityType : IdentityType} {side : Side}
    {fingerprint : IndividualFingerprint} :
    side.fingerprint crypto identityType = .ok fingerprint ↔ ∃ commitment identifier,
      side.Starts crypto identityType commitment identifier ∧
        fingerprint.full = hashBefore crypto commitment identifier fingerprintIterations ∧
        fingerprint.scannable = fingerprint.full.take scannableFingerprintBytes := by
  rw [Side.fingerprint, computeCompositeIndividualFingerprint]
  constructor
  · intro hok
    obtain ⟨commitment, hcommit, hok⟩ := bind_eq_ok_iff.mp hok
    obtain ⟨identifier, hidentifier, hok⟩ := bind_eq_ok_iff.mp hok
    rw [pure_eq_ok, Except.ok.injEq] at hok
    refine ⟨commitment, identifier, ⟨hcommit, hidentifier⟩, ?_, ?_⟩
    · rw [← hok, hashBefore]
    · rw [← hok]
  · rintro ⟨commitment, identifier, hstarts, hfull, hscannable⟩
    rcases fingerprint with ⟨scannable, full⟩
    dsimp only at hfull hscannable
    rw [hashBefore] at hfull
    rw [hstarts.commitment_eq, ok_bind, hstarts.identifier_eq, ok_bind, pure_eq_ok, hscannable,
      hfull]

theorem deriveIdentityCommitment_eq_ok_iff {identity : CompositeIdentityV1} :
    deriveIdentityCommitment crypto identity = .ok commitment ↔
      ∃ encoded, encodeCompositeIdentityV1 identity = .ok encoded ∧
        commitment = crypto.sha256 (domainBytes ++ encoded) := by
  rw [deriveIdentityCommitment, bind_eq_ok_iff]
  simp only [pure_eq_ok, Except.ok.injEq, eq_comm (a := commitment)]

theorem hashBefore_succ (commitment identifier : Bytes) (round : ℕ) :
    hashBefore crypto commitment identifier (round + 1) =
      crypto.sha512 (hashBefore crypto commitment identifier round ++ commitment) := by
  rw [hashBefore, Function.iterate_succ_apply']
  rfl

/-- Equal hashes start from equal bytes when no round has a collision; the induction is on the
rounds, from the last one. -/
theorem hashBefore_inj (hlen : commitment.length = commitment'.length) {rounds : ℕ}
    (hinj : ∀ round < rounds + 1,
      (crypto.sha512 (hashBefore crypto commitment identifier round ++ commitment)).take
          scannableFingerprintBytes =
        (crypto.sha512 (hashBefore crypto commitment' identifier' round ++ commitment')).take
          scannableFingerprintBytes →
      hashBefore crypto commitment identifier round ++ commitment =
        hashBefore crypto commitment' identifier' round ++ commitment')
    (heq : (hashBefore crypto commitment identifier (rounds + 1)).take scannableFingerprintBytes =
      (hashBefore crypto commitment' identifier' (rounds + 1)).take scannableFingerprintBytes) :
    commitment = commitment' ∧ identifier = identifier' := by
  induction rounds with
  | zero =>
    rw [hashBefore_succ, hashBefore_succ] at heq
    obtain ⟨hbefore, hcommit⟩ := append_inj' (hinj 0 (by omega) heq) hlen
    obtain ⟨hstart, -⟩ := append_inj' hbefore hlen
    exact ⟨hcommit, append_cancel_left hstart⟩
  | succ rounds ih =>
    rw [hashBefore_succ commitment, hashBefore_succ commitment'] at heq
    obtain ⟨hbefore, -⟩ := append_inj' (hinj (rounds + 1) (by omega) heq) hlen
    exact ih (fun round hlt => hinj round (by omega)) (congrArg _ hbefore)

theorem identityTypeByte_injective : Function.Injective identityTypeByte := by
  intro first second heq
  cases first <;> cases second <;> first | rfl | cases heq

theorem encodeCompositeSafetyIdentifier_inj {userId' : JsString}
    {identityType identityType' : IdentityType}
    (hok : encodeCompositeSafetyIdentifier userId identityType = .ok identifier)
    (hok' : encodeCompositeSafetyIdentifier userId' identityType' = .ok identifier) :
    identityType = identityType' ∧
      JsString.toWellFormed userId = JsString.toWellFormed userId' := by
  obtain ⟨-, rfl⟩ := encodeCompositeSafetyIdentifier_eq_ok_iff.mp hok
  obtain ⟨-, heq⟩ := encodeCompositeSafetyIdentifier_eq_ok_iff.mp hok'
  obtain ⟨hhead, huserId⟩ := append_inj heq rfl
  exact ⟨identityTypeByte_injective (List.cons.inj hhead).1,
    JsString.encode_eq_encode_iff.mp huserId⟩

theorem SafetyCrypto.Injective.scannable_eq_iff (hcrypto : crypto.Injective view other)
    {side side' : Side} (hside : side ∈ [view.localSide, view.remoteSide])
    (hside' : side' ∈ [other.localSide, other.remoteSide])
    {fingerprint fingerprint' : IndividualFingerprint}
    (hok : side.fingerprint crypto view.identityType = .ok fingerprint)
    (hok' : side'.fingerprint crypto other.identityType = .ok fingerprint') :
    fingerprint.scannable = fingerprint'.scannable ↔
      view.identityType = other.identityType ∧ side.Same side' := by
  constructor
  · intro heq
    obtain ⟨commitment, identifier, hstarts, hfull, hscannable⟩ := Side.fingerprint_eq_ok_iff.mp hok
    obtain ⟨commitment', identifier', hstarts', hfull', hscannable'⟩ :=
      Side.fingerprint_eq_ok_iff.mp hok'
    obtain ⟨encoded, henc, hcommit⟩ :=
      deriveIdentityCommitment_eq_ok_iff.mp hstarts.commitment_eq
    obtain ⟨encoded', hencoded', hcommitment'⟩ :=
      deriveIdentityCommitment_eq_ok_iff.mp hstarts'.commitment_eq
    have hlen : commitment.length = commitment'.length := by
      rw [hcommit, hcommitment', hcrypto.sha256_length, hcrypto.sha256_length]
    obtain ⟨rounds, hrounds⟩ : ∃ rounds, fingerprintIterations = rounds + 1 := ⟨5199, rfl⟩
    rw [hscannable, hscannable', hfull, hfull', hrounds] at heq
    obtain ⟨hsame, hidentifier⟩ := hashBefore_inj hlen (fun round hlt hround =>
      hcrypto.sha512_injOn round (hrounds ▸ hlt)
        (.inl ⟨side, hside, commitment, identifier, hstarts, rfl⟩)
        (.inr ⟨side', hside', commitment', identifier', hstarts', rfl⟩) hround) heq
    have hinput : domainBytes ++ encoded = domainBytes ++ encoded' :=
      hcrypto.sha256_injOn (.inl ⟨side, hside, encoded, henc, rfl⟩)
        (.inr ⟨side', hside', encoded', hencoded', rfl⟩)
        (hcommit.symm.trans (hsame.trans hcommitment'))
    obtain rfl := append_cancel_left hinput
    obtain rfl := hidentifier
    obtain ⟨htype, huserId⟩ :=
      encodeCompositeSafetyIdentifier_inj hstarts.identifier_eq hstarts'.identifier_eq
    exact ⟨htype, huserId, encodeCompositeIdentityV1_injective henc hencoded'⟩
  · rintro ⟨htype, hsame⟩
    have hencode := JsString.encode_eq_encode_iff.mpr hsame.userId_eq
    have hprint : side.fingerprint crypto view.identityType =
        side'.fingerprint crypto other.identityType := by
      rw [Side.fingerprint, Side.fingerprint, computeCompositeIndividualFingerprint,
        computeCompositeIndividualFingerprint, hsame.identity_eq, encodeCompositeSafetyIdentifier,
        encodeCompositeSafetyIdentifier, hencode, htype]
    rw [hprint, hok', Except.ok.injEq] at hok
    rw [hok]

structure SafetyNumber.Shows (number : SafetyNumber) (pair : FingerprintPair) : Prop where
  numeric_eq : number.numeric = pair.displayable
  emojis_eq : number.emojis = formatEmojis (generateEmojiFingerprint pair.firstFingerprint.full)
  hex_eq : number.hex = pair.hex
  version_eq : number.scannable.version = compositeFingerprintVersion
  local_eq : number.scannable.localFingerprint = pair.localFingerprint.scannable
  remote_eq : number.scannable.remoteFingerprint = pair.remoteFingerprint.scannable
  qrData_eq : number.qrData = base64Units (CombinedFingerprints.bytes
    ⟨compositeFingerprintVersion, pair.localFingerprint.scannable,
      pair.remoteFingerprint.scannable⟩)

theorem version_le : compositeFingerprintVersion ≤ uint32Max := by decide

theorem toBase64_eq_ok_iff {scannable : ScannableFingerprint} {qrData : JsString}
    (hver : scannable.version ≤ uint32Max) :
    scannable.toBase64 = .ok qrData ↔ qrData = base64Units (CombinedFingerprints.bytes
      ⟨scannable.version, scannable.localFingerprint, scannable.remoteFingerprint⟩) := by
  rw [ScannableFingerprint.toBase64, (scannable.toBuffer_eq_ok_iff hver).mpr rfl, ok_bind,
    pure_eq_ok, Except.ok.injEq]
  exact eq_comm

namespace SafetyView

variable (crypto view) in
def fingerprintPair : Except ProtocolError FingerprintPair :=
  computeCompositeFingerprintPair crypto view.localSide.identity view.remoteSide.identity
    view.localSide.userId view.remoteSide.userId view.identityType

theorem fingerprintPair_eq_ok_iff :
    view.fingerprintPair crypto = .ok pair ↔ ∃ first second,
      view.localSide.fingerprint crypto view.identityType = .ok first ∧
      view.remoteSide.fingerprint crypto view.identityType = .ok second ∧
      orderFingerprintPair first second = pair := by
  constructor
  · intro hok
    obtain ⟨first, hfst, hok⟩ := bind_eq_ok_iff.mp hok
    obtain ⟨second, hsnd, hok⟩ := bind_eq_ok_iff.mp hok
    exact ⟨first, second, hfst, hsnd, Except.ok.inj hok⟩
  · rintro ⟨first, second, hfst, hsnd, rfl⟩
    rw [Side.fingerprint] at hfst hsnd
    rw [fingerprintPair, computeCompositeFingerprintPair, hfst, ok_bind, hsnd, ok_bind]
    rfl

theorem shows_of_generate {number : SafetyNumber} (hok : view.generate crypto = .ok number) :
    ∃ pair, view.fingerprintPair crypto = .ok pair ∧ number.Shows pair := by
  obtain ⟨pair, hpair, hok⟩ := bind_eq_ok_iff.mp hok
  obtain ⟨scannable, hscannable, hok⟩ := bind_eq_ok_iff.mp hok
  obtain ⟨qrData, hqrData, hok⟩ := bind_eq_ok_iff.mp hok
  obtain rfl := Except.ok.inj hok
  obtain ⟨hver, hlocal, hremote⟩ := scannable.create_eq_ok_iff.mp hscannable
  have hdata := (toBase64_eq_ok_iff (hver ▸ version_le)).mp hqrData
  rw [hver, hlocal, hremote] at hdata
  exact ⟨pair, hpair, rfl, rfl, rfl, hver, hlocal, hremote, hdata⟩

theorem generate_of_fingerprintPair (hpair : view.fingerprintPair crypto = .ok pair)
    (hlocal : pair.localFingerprint.scannable.length = scannableFingerprintBytes)
    (hremote : pair.remoteFingerprint.scannable.length = scannableFingerprintBytes) :
    ∃ number, view.generate crypto = .ok number ∧ number.Shows pair := by
  have hscannable : ScannableFingerprint.create pair.localFingerprint.scannable
      pair.remoteFingerprint.scannable compositeFingerprintVersion =
        .ok ⟨compositeFingerprintVersion, pair.localFingerprint.scannable,
          pair.remoteFingerprint.scannable, hlocal, hremote⟩ :=
    (ScannableFingerprint.create_eq_ok_iff _).mpr ⟨rfl, rfl, rfl⟩
  rw [fingerprintPair] at hpair
  rw [generate, generateCompositeSafetyNumber, hpair, ok_bind, hscannable, ok_bind,
    (toBase64_eq_ok_iff version_le).mpr rfl, ok_bind]
  exact ⟨_, rfl, rfl, rfl, rfl, rfl, rfl, rfl, rfl⟩

end SafetyView

/-! ## Scans -/

/-- The two parties show the same digits, and a code matches when it decodes to what the other
party's code decodes to. -/
theorem safetyNumbers_verify (crypto : SafetyCrypto) (config : VerifyLinkConfig) :
    (∀ (view : SafetyView) number, view.generate crypto = .ok number →
      ∃ swapped code decoded, view.swapped.generate crypto = .ok swapped ∧
        swapped.numeric = number.numeric ∧ swapped.hex = number.hex ∧
        swapped.emojis = number.emojis ∧ swapped.scannable.toBuffer = .ok code ∧
        decodeCombinedFingerprints code = .ok decoded ∧
        ∀ bytes, number.scannable.compare bytes = .matched ↔
          decodeCombinedFingerprints bytes = .ok decoded) ∧
    (config.Valid → ∀ (view other : SafetyView) number scanner, crypto.Injective view other →
      view.generate crypto = .ok number → other.generate crypto = .ok scanner →
      ∀ text, Carries config number.qrData text →
        ∃ data bytes, extractQrData text config = some data ∧ base64ToBytes data = .ok bytes ∧
          (scanner.scannable.compare bytes = .matched ↔ view.Mirrors other)) := by
  constructor
  · intro view number hnumber
    obtain ⟨pair, hpair, hshows⟩ := view.shows_of_generate hnumber
    obtain ⟨first, second, hfirst, hsecond, rfl⟩ := view.fingerprintPair_eq_ok_iff.mp hpair
    have hlocal := hshows.local_eq
    have hremote := hshows.remote_eq
    rw [orderFingerprintPair_local] at hlocal
    rw [orderFingerprintPair_remote] at hremote
    have hswappedPair : view.swapped.fingerprintPair crypto =
        .ok (orderFingerprintPair second first) :=
      view.swapped.fingerprintPair_eq_ok_iff.mpr ⟨second, first, hsecond, hfirst, rfl⟩
    obtain ⟨swapped, hswapped, hother⟩ := view.swapped.generate_of_fingerprintPair hswappedPair
      (by rw [orderFingerprintPair_local, ← hremote, number.scannable.remote_length])
      (by rw [orderFingerprintPair_remote, ← hlocal, number.scannable.local_length])
    -- Equal hashes have equal bytes in the code.
    have htie : first.full = second.full → first = second := by
      obtain ⟨-, -, -, -, hfirstBytes⟩ := Side.fingerprint_eq_ok_iff.mp hfirst
      obtain ⟨-, -, -, -, hsecondBytes⟩ := Side.fingerprint_eq_ok_iff.mp hsecond
      intro hfull
      rcases first with ⟨scannable, full⟩
      rcases second with ⟨scannable', full'⟩
      obtain rfl : full = full' := hfull
      rw [IndividualFingerprint.mk.injEq]
      exact ⟨hfirstBytes.trans hsecondBytes.symm, rfl⟩
    obtain ⟨hnumeric, hhex, hemojis⟩ := orderFingerprintPair_swap htie
    have hmirrored : number.scannable.mirrored = ⟨swapped.scannable.version,
        swapped.scannable.localFingerprint, swapped.scannable.remoteFingerprint⟩ := by
      rw [ScannableFingerprint.mirrored, hshows.version_eq, hlocal, hremote, hother.version_eq,
        hother.local_eq, hother.remote_eq, orderFingerprintPair_local, orderFingerprintPair_remote]
    have hversion : swapped.scannable.version ≤ uint32Max := hother.version_eq ▸ version_le
    refine ⟨swapped, _, number.scannable.mirrored, hswapped, ?_, ?_, ?_,
      (swapped.scannable.toBuffer_eq_ok_iff hversion).mpr rfl, ?_,
      fun bytes => number.scannable.compare_eq_matched_iff⟩
    · rw [hother.numeric_eq, hnumeric, hshows.numeric_eq]
    · rw [hother.hex_eq, hhex, hshows.hex_eq]
    · rw [hother.emojis_eq, hemojis, hshows.emojis_eq]
    · rw [hmirrored]
      exact decodeCombinedFingerprints_bytes (swapped.scannable.encodable hversion)
  · intro hconfig view other number scanner hcrypto hnumber hscanner text htext
    obtain ⟨pair, hpair, hshows⟩ := view.shows_of_generate hnumber
    obtain ⟨pair', hpair', hshows'⟩ := other.shows_of_generate hscanner
    obtain ⟨first, second, hfirst, hsecond, rfl⟩ := view.fingerprintPair_eq_ok_iff.mp hpair
    obtain ⟨first', second', hfirst', hsecond', rfl⟩ := other.fingerprintPair_eq_ok_iff.mp hpair'
    have hlocal := number.scannable.local_length
    have hremote := number.scannable.remote_length
    have hencodable := number.scannable.encodable (hshows.version_eq ▸ version_le)
    rw [hshows.version_eq, hshows.local_eq, hshows.remote_eq] at hencodable
    rw [hshows.local_eq] at hlocal
    rw [hshows.remote_eq] at hremote
    rw [hshows.qrData_eq] at htext
    have hlength := length_code hlocal hremote
    refine ⟨_, _, extractQrData_carries hconfig (by omega) (by omega) htext,
      base64ToBytes_eq_ok_iff.mpr (normalizeBase64_base64Units _), ?_⟩
    have hcrossLocal := hcrypto.scannable_eq_iff (mem_cons_self) (mem_cons_of_mem _
      mem_cons_self) hfirst hsecond'
    have hcrossRemote := hcrypto.scannable_eq_iff (mem_cons_of_mem _ mem_cons_self)
      mem_cons_self hsecond hfirst'
    rw [ScannableFingerprint.compare_eq_matched_iff, decodeCombinedFingerprints_bytes hencodable,
      ScannableFingerprint.mirrored, hshows'.version_eq, hshows'.local_eq, hshows'.remote_eq,
      orderFingerprintPair_local, orderFingerprintPair_remote, orderFingerprintPair_local,
      orderFingerprintPair_remote, Except.ok.injEq, CombinedFingerprints.mk.injEq, hcrossLocal,
      hcrossRemote]
    constructor
    · rintro ⟨-, ⟨htype, hlocalSame⟩, -, hremoteSame⟩
      exact ⟨htype, hlocalSame, hremoteSame⟩
    · intro hmirrors
      exact ⟨rfl, ⟨hmirrors.identityType_eq, hmirrors.local_same⟩, hmirrors.identityType_eq,
        hmirrors.remote_same⟩

/-! ### Two parties -/

def lastBytes (input : Bytes) : Bytes := (input.reverse ++ List.replicate 32 0).take 32

/-- Hashes that keep the end of their input. -/
def plainSafetyCrypto : SafetyCrypto where
  sha256 := lastBytes
  sha512 input := lastBytes input ++ List.replicate 32 0

theorem length_lastBytes (input : Bytes) : (lastBytes input).length = 32 := by
  rw [lastBytes, length_take, length_append, length_replicate]
  omega

theorem lastBytes_append (before : Bytes) {last : Bytes} (hlast : last.length = 32) :
    lastBytes (before ++ last) = last.reverse := by
  rw [lastBytes, reverse_append, append_assoc, List.take_left' (by simpa using hlast)]

def aliceSide : Side :=
  ⟨Url.units "alice", compositeIdentity (List.replicate 32 1) (List.replicate 32 2)⟩

def bobSide : Side :=
  ⟨Url.units "bob", compositeIdentity (List.replicate 32 3) (List.replicate 32 4)⟩

def aliceView : SafetyView := ⟨aliceSide, bobSide, .aci⟩

def aliceIdentifier : Bytes := [1, 0, 0, 0, 5] ++ stringToBytes "alice"

def bobIdentifier : Bytes := [1, 0, 0, 0, 3] ++ stringToBytes "bob"

theorem aliceSide_starts :
    aliceSide.Starts plainSafetyCrypto .aci (List.replicate 32 2) aliceIdentifier :=
  ⟨rfl, rfl⟩

theorem bobSide_starts :
    bobSide.Starts plainSafetyCrypto .aci (List.replicate 32 4) bobIdentifier :=
  ⟨rfl, rfl⟩

variable {identityType : IdentityType}

theorem Side.Starts.unique {side : Side}
    (hstarts : side.Starts crypto identityType commitment identifier)
    (hstarts' : side.Starts crypto identityType commitment' identifier') :
    commitment = commitment' ∧ identifier = identifier' :=
  ⟨Except.ok.inj (hstarts.commitment_eq.symm.trans hstarts'.commitment_eq),
    Except.ok.inj (hstarts.identifier_eq.symm.trans hstarts'.identifier_eq)⟩

theorem mem_aliceView {side : Side}
    (hside : side ∈ [aliceView.localSide, aliceView.remoteSide] ∨
      side ∈ [aliceView.swapped.localSide, aliceView.swapped.remoteSide]) :
    side = aliceSide ∨ side = bobSide := by
  simp only [mem_cons, not_mem_nil, or_false] at hside
  rcases hside with (hside | hside) | hside | hside
  · exact .inl hside
  · exact .inr hside
  · exact .inr hside
  · exact .inl hside

theorem identityInput_aliceView
    (hinput : input ∈ aliceView.identityInputs ∪ aliceView.swapped.identityInputs) :
    input = domainBytes ++ compositeBytes (List.replicate 32 1) (List.replicate 32 2) ∨
      input = domainBytes ++ compositeBytes (List.replicate 32 3) (List.replicate 32 4) := by
  have hside {side : Side} {encoded : Bytes} (hside : side = aliceSide ∨ side = bobSide)
      (henc : encodeCompositeIdentityV1 side.identity = .ok encoded) :
      encoded = compositeBytes (List.replicate 32 1) (List.replicate 32 2) ∨
        encoded = compositeBytes (List.replicate 32 3) (List.replicate 32 4) := by
    have hof {x ed : Bytes} (hx : x.length = publicKeyLength) (hed : ed.length = publicKeyLength)
        (hident : encodeCompositeIdentityV1 (compositeIdentity x ed) = .ok encoded) :
        encoded = compositeBytes x ed :=
      Except.ok.inj (hident.symm.trans
        (encodeCompositeIdentityV1_eq_ok_iff.mpr ⟨x, ed, hx, hed, rfl, rfl⟩))
    rcases hside with rfl | rfl
    · exact .inl (hof rfl rfl henc)
    · exact .inr (hof rfl rfl henc)
  rcases hinput with ⟨side, hmem, encoded, henc, rfl⟩ | ⟨side, hmem, encoded, henc, rfl⟩
  · exact (hside (mem_aliceView (.inl hmem)) henc).imp (congrArg _) (congrArg _)
  · exact (hside (mem_aliceView (.inr hmem)) henc).imp (congrArg _) (congrArg _)

theorem roundInput_aliceView {round : ℕ}
    (hinput : input ∈ aliceView.roundInputs plainSafetyCrypto round ∪
      aliceView.swapped.roundInputs plainSafetyCrypto round) :
    input = hashBefore plainSafetyCrypto (List.replicate 32 2) aliceIdentifier round ++
        List.replicate 32 2 ∨
      input = hashBefore plainSafetyCrypto (List.replicate 32 4) bobIdentifier round ++
        List.replicate 32 4 := by
  have hside {side : Side} {commitment identifier : Bytes}
      (hside : side = aliceSide ∨ side = bobSide)
      (hstarts : side.Starts plainSafetyCrypto .aci commitment identifier) :
      commitment = List.replicate 32 2 ∧ identifier = aliceIdentifier ∨
        commitment = List.replicate 32 4 ∧ identifier = bobIdentifier := by
    rcases hside with rfl | rfl
    · exact .inl (hstarts.unique aliceSide_starts)
    · exact .inr (hstarts.unique bobSide_starts)
  rcases hinput with ⟨side, hmem, commitment, identifier, hstarts, rfl⟩ |
    ⟨side, hmem, commitment, identifier, hstarts, rfl⟩
  · rcases hside (mem_aliceView (.inl hmem)) hstarts with ⟨rfl, rfl⟩ | ⟨rfl, rfl⟩
    · exact .inl rfl
    · exact .inr rfl
  · rcases hside (mem_aliceView (.inr hmem)) hstarts with ⟨rfl, rfl⟩ | ⟨rfl, rfl⟩
    · exact .inl rfl
    · exact .inr rfl

theorem plainSafetyCrypto_injective : plainSafetyCrypto.Injective aliceView aliceView.swapped where
  sha256_length := length_lastBytes
  sha256_injOn := by
    intro input hinput input' hinput' heq
    rcases identityInput_aliceView hinput with rfl | rfl
    · rcases identityInput_aliceView hinput' with rfl | rfl
      · rfl
      · exact absurd heq (by decide +kernel)
    · rcases identityInput_aliceView hinput' with rfl | rfl
      · exact absurd heq (by decide +kernel)
      · rfl
  sha512_injOn := by
    intro round hround input hinput input' hinput' heq
    have hlast (before : Bytes) {last : Bytes} (hlast : last.length = 32) :
        (plainSafetyCrypto.sha512 (before ++ last)).take scannableFingerprintBytes =
          last.reverse := by
      change (lastBytes (before ++ last) ++ List.replicate 32 0).take 32 = _
      rw [List.take_left' (length_lastBytes _), lastBytes_append before hlast]
    dsimp only at heq
    rcases roundInput_aliceView hinput with rfl | rfl
    · rcases roundInput_aliceView hinput' with rfl | rfl
      · rfl
      · rw [hlast _ rfl, hlast _ rfl] at heq
        exact absurd heq (by decide)
    · rcases roundInput_aliceView hinput' with rfl | rfl
      · rw [hlast _ rfl, hlast _ rfl] at heq
        exact absurd heq (by decide)
      · rfl

theorem fingerprint_plain {side : Side}
    (hstarts : side.Starts plainSafetyCrypto identityType commitment identifier) :
    ∃ fingerprint, side.fingerprint plainSafetyCrypto identityType = .ok fingerprint ∧
      fingerprint.scannable.length = scannableFingerprintBytes := by
  obtain ⟨rounds, hrounds⟩ : ∃ rounds, fingerprintIterations = rounds + 1 := ⟨5199, rfl⟩
  refine ⟨⟨(hashBefore plainSafetyCrypto commitment identifier fingerprintIterations).take
    scannableFingerprintBytes,
    hashBefore plainSafetyCrypto commitment identifier fingerprintIterations⟩,
    Side.fingerprint_eq_ok_iff.mpr ⟨commitment, identifier, hstarts, ?_, ?_⟩, ?_⟩
  · dsimp only
  · dsimp only
  · dsimp only
    rw [hrounds, hashBefore_succ]
    change ((lastBytes _ ++ List.replicate 32 0).take 32).length = 32
    rw [List.take_left' (length_lastBytes _), length_lastBytes]

theorem aliceView_generate : ∃ number, aliceView.generate plainSafetyCrypto = .ok number := by
  obtain ⟨first, hfst, hlocal⟩ := fingerprint_plain aliceSide_starts
  obtain ⟨second, hsnd, hremote⟩ := fingerprint_plain bobSide_starts
  have hpair : aliceView.fingerprintPair plainSafetyCrypto =
      .ok (orderFingerprintPair first second) :=
    SafetyView.fingerprintPair_eq_ok_iff.mpr ⟨first, second, hfst, hsnd, rfl⟩
  obtain ⟨number, hnum, -⟩ := SafetyView.generate_of_fingerprintPair hpair
    (by rwa [orderFingerprintPair_local]) (by rwa [orderFingerprintPair_remote])
  exact ⟨number, hnum⟩

theorem exists_parseUrl {input : JsString} (hsome : (Url.parseUrl input).toOption.isSome = true) :
    ∃ url, Url.parseUrl input = .ok url := by
  cases hparse : Url.parseUrl input with
  | error error =>
    rw [hparse] at hsome
    cases hsome
  | ok url => exact ⟨url, rfl⟩

theorem defaultVerifyLinkConfig_valid : defaultVerifyLinkConfig.Valid where
  base_ok := exists_parseUrl (by decide +kernel)
  base_noQuery := by decide +kernel
  scheme_ok := exists_parseUrl (by decide +kernel)
  scheme_noQuery := by decide +kernel

theorem safetyNumbers_verify_link : ∃ number scanner data bytes,
    aliceView.generate plainSafetyCrypto = .ok number ∧
    aliceView.swapped.generate plainSafetyCrypto = .ok scanner ∧
    scanner.numeric = number.numeric ∧
    extractQrData (generateVerifyUrl
      ⟨Url.units "alice", Url.units "bob", .dm, Url.units "c", number.qrData⟩) = some data ∧
    base64ToBytes data = .ok bytes ∧ scanner.scannable.compare bytes = .matched := by
  obtain ⟨number, hnumber⟩ := aliceView_generate
  obtain ⟨scanner, -, -, hscanner, hnumeric, -⟩ :=
    (safetyNumbers_verify plainSafetyCrypto defaultVerifyLinkConfig).1 aliceView number hnumber
  have halice : IsLinkText (Url.units "alice") := ⟨by decide, by decide⟩
  have hbob : IsLinkText (Url.units "bob") := ⟨by decide, by decide⟩
  have hcontext : IsLinkText (Url.units "c") := ⟨by decide, by decide⟩
  have hreadable : VerifyUrlParams.Readable
      ⟨Url.units "alice", Url.units "bob", .dm, Url.units "c", number.qrData⟩ :=
    ⟨halice, hbob, hcontext⟩
  obtain ⟨data, bytes, hdata, hbytes, hmatched⟩ :=
    (safetyNumbers_verify plainSafetyCrypto defaultVerifyLinkConfig).2
      defaultVerifyLinkConfig_valid aliceView aliceView.swapped number scanner
      plainSafetyCrypto_injective hnumber hscanner _ (.url _ hreadable rfl)
  exact ⟨number, scanner, data, bytes, hnumber, hscanner, hnumeric, hdata, hbytes,
    hmatched.mpr ⟨rfl, ⟨rfl, rfl⟩, ⟨rfl, rfl⟩⟩⟩

/-- A link loses its data to an identifier that is empty or that a byte order mark begins, two
identifiers may have one encoding, and a code with a field that is not known still matches. -/
theorem verifyLinks_not_exact :
    extractQrData (generateVerifyUrl
      ⟨[0xfeff], Url.units "bob", .dm, Url.units "c", Url.units "AAAAAAAAAAAAAAA="⟩) = none ∧
    extractQrData (generateVerifyUrl
      ⟨Url.units "alice", Url.units "bob", .dm, [], Url.units "AAAAAAAAAAAAAAA="⟩) = none ∧
    encodeCompositeSafetyIdentifier [0xd800] .aci = encodeCompositeSafetyIdentifier [0xdfff] .aci ∧
    ∃ code,
      ScannableFingerprint.toBuffer ⟨4, List.replicate 32 2, List.replicate 32 1, rfl, rfl⟩ =
        .ok code ∧
      ScannableFingerprint.compare ⟨4, List.replicate 32 1, List.replicate 32 2, rfl, rfl⟩
        (code ++ [0x20, 0x00]) = .matched :=
  ⟨by decide +kernel, by decide +kernel, by decide +kernel, _, rfl, by decide +kernel⟩

end SignalProtocol.Safety

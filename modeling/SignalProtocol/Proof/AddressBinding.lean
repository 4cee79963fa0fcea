import SignalProtocol.Proof.JsStrings
import SignalProtocol.Proof.ProtoFields

/-! # Address bindings

An address binding is a length-delimited form of two addresses. -/

namespace SignalProtocol.Proto

open Spqr Results List

variable {addresses : AddressPair} {address : ProtocolAddress} {value bytesRead : ℕ}
  {userIdBytes : Bytes} {digits deviceId senderDevice recipientDevice : ℕ}

theorem uint32Bytes_eq (value : ℕ) : uint32Bytes value =
    [UInt8.ofNat (value / 2 ^ 24), UInt8.ofNat (value / 2 ^ 16), UInt8.ofNat (value / 2 ^ 8),
      UInt8.ofNat value] := by
  simp [uint32Bytes, range_succ, Nat.shiftRight_eq_div_pow]

theorem readUint32BE_eq_ok_iff {bytes rest : Bytes} :
    readUint32BE bytes = .ok (value, rest) ↔
      value ≤ uint32Max ∧ bytes = uint32Bytes value ++ rest := by
  constructor
  · intro hok
    rcases bytes with _ | ⟨first, _ | ⟨second, _ | ⟨third, _ | ⟨fourth, tail⟩⟩⟩⟩
    · cases hok
    · cases hok
    · cases hok
    · cases hok
    · have hfst := first.toNat_lt
      have hsnd := second.toNat_lt
      have hthird := third.toNat_lt
      have hfourth := fourth.toNat_lt
      have heq := Prod.mk.inj (Except.ok.inj hok)
      have hval := heq.1
      obtain rfl := heq.2
      have hbyte (byte : UInt8) {number : ℕ} (hnum : number % 2 ^ 8 = byte.toNat) :
          UInt8.ofNat number = byte := by
        rw [← UInt8.toNat_inj, UInt8.toNat_ofNat', hnum]
      refine ⟨by rw [uint32Max]; omega, ?_⟩
      rw [uint32Bytes_eq, hbyte first (by omega), hbyte second (by omega), hbyte third (by omega),
        hbyte fourth (by omega)]
      rfl
  · rintro ⟨hval, rfl⟩
    rw [uint32Max] at hval
    rw [uint32Bytes_eq]
    simp only [cons_append, nil_append, readUint32BE, UInt8.toNat_ofNat']
    congr 2
    omega

theorem encodeUint32BE_eq_ok_iff {value : ℤ} {bytes : Bytes} :
    encodeUint32BE value = .ok bytes ↔
      0 ≤ value ∧ value.toNat ≤ uint32Max ∧ bytes = uint32Bytes value.toNat := by
  rw [encodeUint32BE, uint32Max]
  split
  · rename_i hrange
    constructor
    · rintro ⟨⟩
    · rintro ⟨hnonneg, hle, -⟩
      omega
  · rename_i hrange
    rw [pure_eq_ok, Except.ok.injEq]
    exact ⟨fun heq => ⟨by omega, by omega, heq.symm⟩, fun hboth => hboth.2.2.symm⟩

variable (rest : Bytes)

theorem decodeVarintLoop_cons {byte : UInt8} (hval : value < 2 ^ (7 * bytesRead))
    (hdigit : byte.toNat % 2 ^ 7 * 2 ^ (7 * bytesRead) < 2 ^ 32) :
    decodeVarintLoop bytesRead (7 * bytesRead) value (byte :: rest) =
      if byte.toNat < 2 ^ 7 then .ok (value + byte.toNat % 2 ^ 7 * 2 ^ (7 * bytesRead), rest)
      else if 5 ≤ bytesRead + 1 then .error (.error "Varint too long")
      else decodeVarintLoop (bytesRead + 1) (7 * (bytesRead + 1))
        (value + byte.toNat % 2 ^ 7 * 2 ^ (7 * bytesRead)) rest := by
  have hlow : byte.toNat &&& 0x7f = byte.toNat % 2 ^ 7 :=
    Nat.and_two_pow_sub_one_eq_mod byte.toNat 7
  have hor : value ||| ((byte.toNat &&& 0x7f) <<< (7 * bytesRead)) % 2 ^ 32 =
      value + byte.toNat % 2 ^ 7 * 2 ^ (7 * bytesRead) := by
    have hshift : (byte.toNat % 2 ^ 7) <<< (7 * bytesRead) < 2 ^ 32 := by
      rwa [Nat.shiftLeft_eq]
    rw [hlow, Nat.mod_eq_of_lt hshift, or_shiftLeft _ hval]
  rw [decodeVarintLoop, hor]
  simp only [byte_high_bit]
  rfl

theorem decodeVarintLoop_last (continuations : ℕ) (rest : Bytes)
    (hval : value < 2 ^ (7 * bytesRead)) (hdigits : digits * 2 ^ (7 * bytesRead) < 2 ^ 32)
    (hsmall : digits < 2 ^ 7) :
    decodeVarintLoop bytesRead (7 * bytesRead) value (varintBytes continuations digits ++ rest) =
      .ok (value + digits * 2 ^ (7 * bytesRead), rest) := by
  have hbyte : (UInt8.ofNat digits).toNat = digits := by
    rw [UInt8.toNat_ofNat']
    omega
  have hmod : digits % 2 ^ 7 = digits := Nat.mod_eq_of_lt hsmall
  rw [varintBytes_of_lt _ hsmall, singleton_append,
    decodeVarintLoop_cons _ hval (by rwa [hbyte, hmod]), hbyte, hmod, if_pos hsmall]

/-- The reader accepts what the encoder writes; the induction is on the bound of the encoder. -/
theorem decodeVarintLoop_varintBytes {continuations : ℕ} (hread : bytesRead < 5)
    (hval : value < 2 ^ (7 * bytesRead)) (hdigits : digits * 2 ^ (7 * bytesRead) < 2 ^ 32)
    (hcount : digits < 2 ^ (7 * (continuations + 1))) :
    decodeVarintLoop bytesRead (7 * bytesRead) value (varintBytes continuations digits ++ rest) =
      .ok (value + digits * 2 ^ (7 * bytesRead), rest) := by
  induction continuations generalizing bytesRead value digits with
  | zero => exact decodeVarintLoop_last 0 rest hval hdigits (by omega)
  | succ continuations ih =>
    by_cases hsmall : digits < 2 ^ 7
    · exact decodeVarintLoop_last _ rest hval hdigits hsmall
    · have hlow : digits % 2 ^ 7 < 2 ^ 7 := Nat.mod_lt _ (by decide)
      have hsum := varint_digits_sum bytesRead value digits
      have hfour : bytesRead + 1 < 5 := by
        by_contra hlast
        obtain rfl : bytesRead = 4 := by omega
        omega
      have hhigh : digits / 2 ^ 7 * 2 ^ (7 * (bytesRead + 1)) < 2 ^ 32 := by omega
      have hdigit : (2 ^ 7 + digits % 2 ^ 7) % 2 ^ 7 * 2 ^ (7 * bytesRead) < 2 ^ 32 := by
        rw [Nat.add_mod_left, Nat.mod_mod]
        exact lt_of_le_of_lt (Nat.mul_le_mul_right _ (Nat.mod_le _ _)) hdigits
      have hcontinued : digits / 2 ^ 7 < 2 ^ (7 * (continuations + 1)) := by
        apply Nat.div_lt_of_lt_mul
        calc
          digits < 2 ^ (7 * (continuations + 1 + 1)) := hcount
          _ = 2 ^ 7 * 2 ^ (7 * (continuations + 1)) := by ring
      rw [varintBytes_of_le _ (not_lt.mp hsmall), cons_append, low_seven_bits,
        Nat.shiftRight_eq_div_pow, decodeVarintLoop_cons _ hval
          (by rwa [continuation_byte hlow]), continuation_byte hlow, Nat.add_mod_left,
        Nat.mod_mod, if_neg (by omega), if_neg (by omega),
        ih hfour (varint_value_lt hval hlow) hhigh hcontinued, hsum]

theorem decodeVarint_varint (hval : value ≤ uint32Max) (rest : Bytes) :
    decodeVarint (varint value ++ rest) = .ok (value, rest) := by
  rw [uint32Max] at hval
  have hloop := decodeVarintLoop_varintBytes rest (show 0 < 5 by decide)
    (show 0 < 2 ^ (7 * 0) by decide) (show value * 2 ^ (7 * 0) < 2 ^ 32 by omega)
    (show value < 2 ^ (7 * (9 + 1)) by omega)
  rwa [Nat.zero_add, Nat.mul_zero, Nat.pow_zero, Nat.mul_one] at hloop

def addressBytes (userIdBytes : Bytes) (deviceId : ℕ) : Bytes :=
  varint userIdBytes.length ++ userIdBytes ++ uint32Bytes deviceId

structure ProtocolAddress.Encodable (address : ProtocolAddress) : Prop where
  userId_ne : JsString.encode address.userId ≠ []
  userId_le : (JsString.encode address.userId).length ≤ uint32Max
  deviceId_nonneg : 0 ≤ address.deviceId
  deviceId_le : address.deviceId.toNat ≤ uint32Max

theorem encodeAddress_eq_ok_iff {bytes : Bytes} :
    encodeAddress address = .ok bytes ↔ address.Encodable ∧
      bytes = addressBytes (JsString.encode address.userId) address.deviceId.toNat := by
  rw [encodeAddress]
  constructor
  · intro hok
    split at hok
    · cases hok
    · rename_i hempty
      obtain ⟨length, hlen, hok⟩ := bind_eq_ok_iff.mp hok
      obtain ⟨deviceId, hdeviceId, hok⟩ := bind_eq_ok_iff.mp hok
      obtain ⟨hle, rfl⟩ := encodeVarint_eq_ok_iff.mp hlen
      obtain ⟨hnonneg, hdev, rfl⟩ := encodeUint32BE_eq_ok_iff.mp hdeviceId
      have hne : JsString.encode address.userId ≠ [] := by
        rwa [Ne, ← length_eq_zero_iff]
      exact ⟨⟨hne, hle, hnonneg, hdev⟩, (Except.ok.inj hok).symm⟩
  · rintro ⟨henc, rfl⟩
    have hempty : ¬ (JsString.encode address.userId).length = 0 := by
      rw [length_eq_zero_iff]
      exact henc.userId_ne
    rw [if_neg hempty, encodeVarint_eq_ok_iff.mpr ⟨henc.userId_le, rfl⟩, ok_bind,
      encodeUint32BE_eq_ok_iff.mpr ⟨henc.deviceId_nonneg, henc.deviceId_le, rfl⟩,
      ok_bind]
    rfl

theorem addressBytes_append_inj {userIdBytes' rest rest' : Bytes} {deviceId' : ℕ}
    (huserId : userIdBytes.length ≤ uint32Max) (huserId' : userIdBytes'.length ≤ uint32Max)
    (hdeviceId : deviceId ≤ uint32Max) (hdeviceId' : deviceId' ≤ uint32Max)
    (heq : addressBytes userIdBytes deviceId ++ rest =
      addressBytes userIdBytes' deviceId' ++ rest') :
    userIdBytes = userIdBytes' ∧ deviceId = deviceId' ∧ rest = rest' := by
  rw [uint32Max] at huserId huserId'
  simp only [addressBytes, append_assoc] at heq
  obtain ⟨hlen, heq⟩ := varint_append_inj (by omega) (by omega) heq
  obtain ⟨huser, heq⟩ := append_inj heq hlen
  have hread : readUint32BE (uint32Bytes deviceId ++ rest) = .ok (deviceId, rest) :=
    readUint32BE_eq_ok_iff.mpr ⟨hdeviceId, rfl⟩
  rw [heq, readUint32BE_eq_ok_iff.mpr ⟨hdeviceId', rfl⟩, Except.ok.injEq, Prod.mk.injEq] at hread
  exact ⟨huser, hread.1.symm, hread.2.symm⟩

theorem decodeAddress_addressBytes (hne : userIdBytes ≠ [])
    (huserId : userIdBytes.length ≤ uint32Max) (hdeviceId : deviceId ≤ uint32Max) (rest : Bytes) :
    decodeAddress (addressBytes userIdBytes deviceId ++ rest) =
      .ok (⟨JsString.ofString (utf8Decode userIdBytes), deviceId⟩, rest) := by
  have hlen : ¬ userIdBytes.length = 0 := by rwa [length_eq_zero_iff]
  rw [addressBytes, append_assoc, append_assoc, decodeAddress, decodeVarint_varint huserId, ok_bind]
  dsimp only
  rw [if_neg hlen, if_neg (by rw [length_append]; omega), List.take_left, drop_left,
    readUint32BE_eq_ok_iff.mpr ⟨hdeviceId, rfl⟩, ok_bind]
  rfl

/-! ## Bindings -/

/-- The binding of two addresses that the encoder accepts. -/
def AddressPair.bytes (addresses : AddressPair) : Bytes :=
  addressBindingFormatVersion ::
    (addressBytes (JsString.encode addresses.senderAddress.userId)
      addresses.senderAddress.deviceId.toNat ++
    addressBytes (JsString.encode addresses.recipientAddress.userId)
      addresses.recipientAddress.deviceId.toNat)

theorem serialize_eq_ok_iff {bytes : Bytes} :
    serializeSignalProtocolMessageAddresses addresses = .ok bytes ↔
      addresses.senderAddress.Encodable ∧ addresses.recipientAddress.Encodable ∧
        bytes = addresses.bytes := by
  rw [serializeSignalProtocolMessageAddresses]
  constructor
  · intro hok
    obtain ⟨sender, hsender, hok⟩ := bind_eq_ok_iff.mp hok
    obtain ⟨recipient, hrecip, hok⟩ := bind_eq_ok_iff.mp hok
    obtain ⟨hsenderOk, rfl⟩ := encodeAddress_eq_ok_iff.mp hsender
    obtain ⟨hrecipientOk, rfl⟩ := encodeAddress_eq_ok_iff.mp hrecip
    exact ⟨hsenderOk, hrecipientOk, (Except.ok.inj hok).symm⟩
  · rintro ⟨hsender, hrecip, rfl⟩
    rw [encodeAddress_eq_ok_iff.mpr ⟨hsender, rfl⟩, ok_bind,
      encodeAddress_eq_ok_iff.mpr ⟨hrecip, rfl⟩, ok_bind]
    rfl

theorem deserialize_addressBytes {sender recipient : Bytes}
    (hsenderNe : sender ≠ []) (hrecipientNe : recipient ≠ []) (hsender : sender.length ≤ uint32Max)
    (hrecip : recipient.length ≤ uint32Max) (hsenderDev : senderDevice ≤ uint32Max)
    (hrecipDev : recipientDevice ≤ uint32Max) :
    deserializeSignalProtocolMessageAddresses (addressBindingFormatVersion ::
        (addressBytes sender senderDevice ++ addressBytes recipient recipientDevice)) =
      .ok ⟨⟨JsString.ofString (utf8Decode sender), senderDevice⟩,
        ⟨JsString.ofString (utf8Decode recipient), recipientDevice⟩⟩ := by
  have hlast := decodeAddress_addressBytes hrecipientNe hrecip hrecipDev []
  rw [append_nil] at hlast
  rw [deserializeSignalProtocolMessageAddresses, if_neg (not_not.mpr rfl),
    decodeAddress_addressBytes hsenderNe hsender hsenderDev, ok_bind, hlast, ok_bind]
  rfl

theorem AddressPair.bytes_eq_iff {others : AddressPair}
    (hsender : addresses.senderAddress.Encodable) (hrecip : addresses.recipientAddress.Encodable)
    (hsender' : others.senderAddress.Encodable) (hrecipient' : others.recipientAddress.Encodable) :
    others.bytes = addresses.bytes ↔
      JsString.encode others.senderAddress.userId = JsString.encode addresses.senderAddress.userId ∧
      others.senderAddress.deviceId = addresses.senderAddress.deviceId ∧
      JsString.encode others.recipientAddress.userId =
        JsString.encode addresses.recipientAddress.userId ∧
      others.recipientAddress.deviceId = addresses.recipientAddress.deviceId := by
  have hdev {device device' : ℤ} (hnonneg : 0 ≤ device) (hnonneg' : 0 ≤ device')
      (heq : device.toNat = device'.toNat) : device = device' := by omega
  constructor
  · intro heq
    obtain ⟨hsenderId, hsenderDev, heq⟩ := addressBytes_append_inj hsender'.userId_le
      hsender.userId_le hsender'.deviceId_le hsender.deviceId_le (List.cons.inj heq).2
    rw [← append_nil (addressBytes _ _), ← append_nil (addressBytes
      (JsString.encode addresses.recipientAddress.userId) _)] at heq
    obtain ⟨hrecipientId, hrecipDev, -⟩ := addressBytes_append_inj hrecipient'.userId_le
      hrecip.userId_le hrecipient'.deviceId_le hrecip.deviceId_le heq
    exact ⟨hsenderId, hdev hsender'.deviceId_nonneg hsender.deviceId_nonneg hsenderDev,
      hrecipientId, hdev hrecipient'.deviceId_nonneg hrecip.deviceId_nonneg hrecipDev⟩
  · rintro ⟨hsenderId, hsenderDev, hrecipientId, hrecipDev⟩
    rw [bytes, bytes, hsenderId, hsenderDev, hrecipientId, hrecipDev]

/-- The bytes of an address with the shortest length and the bytes of a text without a byte order
mark at its start. -/
def CanonicalAddress (bytes : Bytes) : Prop :=
  ∃ chars deviceId, chars.head? ≠ some byteOrderMark ∧ (utf8Encode chars).length ≤ uint32Max ∧
    deviceId ≤ uint32Max ∧ bytes = addressBytes (utf8Encode chars) deviceId

def CanonicalBinding (bytes : Bytes) : Prop :=
  ∃ sender recipient, CanonicalAddress sender ∧ CanonicalAddress recipient ∧
    bytes = addressBindingFormatVersion :: (sender ++ recipient)

theorem ProtocolAddress.Encodable.of_encode (henc : address.Encodable) {userId : JsString}
    (huserId : JsString.encode userId = JsString.encode address.userId) :
    Encodable { address with userId := userId } :=
  { henc with
    userId_ne := huserId ▸ henc.userId_ne
    userId_le := huserId ▸ henc.userId_le }

theorem serialize_unique_iff {bytes : Bytes}
    (hok : serializeSignalProtocolMessageAddresses addresses = .ok bytes) :
    (∀ others, serializeSignalProtocolMessageAddresses others = .ok bytes → others = addresses) ↔
      (JsString.toWellFormed addresses.senderAddress.userId = addresses.senderAddress.userId ∧
        0xfffd ∉ addresses.senderAddress.userId) ∧
      JsString.toWellFormed addresses.recipientAddress.userId = addresses.recipientAddress.userId ∧
        0xfffd ∉ addresses.recipientAddress.userId := by
  obtain ⟨hsender, hrecip, rfl⟩ := serialize_eq_ok_iff.mp hok
  rw [← JsString.encode_unique_iff, ← JsString.encode_unique_iff]
  constructor
  · intro hunique
    constructor
    · intro other hother
      have hsame := hunique
        { addresses with senderAddress := { addresses.senderAddress with userId := other } }
        (serialize_eq_ok_iff.mpr ⟨hsender.of_encode hother, hrecip, by
          rw [AddressPair.bytes, AddressPair.bytes, hother]⟩)
      rw [← hsame]
    · intro other hother
      have hsame := hunique
        { addresses with recipientAddress := { addresses.recipientAddress with userId := other } }
        (serialize_eq_ok_iff.mpr ⟨hsender, hrecip.of_encode hother, by
          rw [AddressPair.bytes, AddressPair.bytes, hother]⟩)
      rw [← hsame]
  · rintro ⟨hsenderUnique, hrecipientUnique⟩ others hothers
    obtain ⟨hsender', hrecipient', hbytes⟩ := serialize_eq_ok_iff.mp hothers
    obtain ⟨hsenderId, hsenderDev, hrecipientId, hrecipDev⟩ :=
      (AddressPair.bytes_eq_iff hsender hrecip hsender' hrecipient').mp hbytes.symm
    have hsenderSame := hsenderUnique _ hsenderId
    have hrecipientSame := hrecipientUnique _ hrecipientId
    rcases others with ⟨⟨_, _⟩, ⟨_, _⟩⟩
    rcases addresses with ⟨⟨_, _⟩, ⟨_, _⟩⟩
    simp only at hsenderSame hsenderDev hrecipientSame hrecipDev
    rw [hsenderSame, hsenderDev, hrecipientSame, hrecipDev]

theorem deserialize_serialize_iff {bytes : Bytes}
    (hok : serializeSignalProtocolMessageAddresses addresses = .ok bytes) :
    deserializeSignalProtocolMessageAddresses bytes = .ok addresses ↔
      (JsString.toWellFormed addresses.senderAddress.userId = addresses.senderAddress.userId ∧
        addresses.senderAddress.userId.head? ≠ some 0xfeff) ∧
      JsString.toWellFormed addresses.recipientAddress.userId = addresses.recipientAddress.userId ∧
        addresses.recipientAddress.userId.head? ≠ some 0xfeff := by
  obtain ⟨hsender, hrecip, rfl⟩ := serialize_eq_ok_iff.mp hok
  have hdec := deserialize_addressBytes hsender.userId_ne hrecip.userId_ne hsender.userId_le
    hrecip.userId_le hsender.deviceId_le hrecip.deviceId_le
  have hsenderDev := Int.toNat_of_nonneg hsender.deviceId_nonneg
  have hrecipDev := Int.toNat_of_nonneg hrecip.deviceId_nonneg
  rw [← JsString.utf8Decode_encode_eq_self_iff, ← JsString.utf8Decode_encode_eq_self_iff,
    AddressPair.bytes, hdec, hsenderDev, hrecipDev, Except.ok.injEq]
  rcases addresses with ⟨⟨senderId, _⟩, ⟨recipientId, _⟩⟩
  simp only [AddressPair.mk.injEq, ProtocolAddress.mk.injEq, and_true]

theorem decodeAddress_empty (deviceId : ℕ) (rest : Bytes) :
    decodeAddress (addressBytes [] deviceId ++ rest) =
      .error (.error "Address binding userId cannot be empty") := by
  rw [addressBytes, append_assoc, append_assoc, length_nil, decodeAddress,
    decodeVarint_varint (Nat.zero_le _), ok_bind]
  rfl

theorem deserialize_ne_nil {sender recipient : Bytes} (hsender : sender.length ≤ uint32Max)
    (hsenderDev : senderDevice ≤ uint32Max)
    (hok : deserializeSignalProtocolMessageAddresses (addressBindingFormatVersion ::
        (addressBytes sender senderDevice ++ addressBytes recipient recipientDevice)) =
      .ok addresses) : sender ≠ [] ∧ recipient ≠ [] := by
  rw [deserializeSignalProtocolMessageAddresses, if_neg (not_not.mpr rfl)] at hok
  have hsenderNe : sender ≠ [] := by
    rintro rfl
    rw [decodeAddress_empty] at hok
    cases hok
  refine ⟨hsenderNe, ?_⟩
  rintro rfl
  rw [decodeAddress_addressBytes hsenderNe hsender hsenderDev, ok_bind,
    ← append_nil (addressBytes [] _), decodeAddress_empty] at hok
  cases hok

theorem utf8Decode_canonical {chars : List Char} (hmark : chars.head? ≠ some byteOrderMark) :
    JsString.encode (JsString.ofString (utf8Decode (utf8Encode chars))) = utf8Encode chars := by
  rw [utf8Decode_utf8Encode, JsString.dropMark_eq_self_iff.mpr hmark, JsString.ofString,
    String.toList_ofList, JsString.encode_eq, JsString.toChars_ofChars]

theorem canonicalAddress_of_encodable (henc : address.Encodable)
    (hmark : address.userId.head? ≠ some 0xfeff) :
    CanonicalAddress (addressBytes (JsString.encode address.userId) address.deviceId.toNat) :=
  ⟨JsString.toChars address.userId, _, by rwa [Ne, JsString.head?_toChars_eq_mark],
    henc.userId_le, henc.deviceId_le, rfl⟩

theorem serialize_deserialize_iff {bytes : Bytes}
    (hok : deserializeSignalProtocolMessageAddresses bytes = .ok addresses) :
    serializeSignalProtocolMessageAddresses addresses = .ok bytes ↔ CanonicalBinding bytes := by
  constructor
  · intro hserialize
    obtain ⟨⟨-, hsenderMark⟩, -, hrecipientMark⟩ := (deserialize_serialize_iff hserialize).mp hok
    obtain ⟨hsender, hrecip, rfl⟩ := serialize_eq_ok_iff.mp hserialize
    exact ⟨_, _, canonicalAddress_of_encodable hsender hsenderMark,
      canonicalAddress_of_encodable hrecip hrecipientMark, rfl⟩
  · rintro ⟨_, _, ⟨sender, senderDevice, hsenderMark, hsender, hsenderDev, rfl⟩,
      ⟨recipient, recipientDevice, hrecipientMark, hrecip, hrecipDev, rfl⟩, rfl⟩
    obtain ⟨hsenderNe, hrecipientNe⟩ := deserialize_ne_nil hsender hsenderDev hok
    rw [deserialize_addressBytes hsenderNe hrecipientNe hsender hrecip hsenderDev hrecipDev] at hok
    obtain rfl := Except.ok.inj hok
    have hsenderId := utf8Decode_canonical hsenderMark
    have hrecipientId := utf8Decode_canonical hrecipientMark
    refine serialize_eq_ok_iff.mpr ⟨⟨?_, ?_, Int.natCast_nonneg _, hsenderDev⟩,
      ⟨?_, ?_, Int.natCast_nonneg _, hrecipDev⟩, ?_⟩
    · rwa [hsenderId]
    · rwa [hsenderId]
    · rwa [hrecipientId]
    · rwa [hrecipientId]
    · rw [AddressPair.bytes, hsenderId, hrecipientId]
      rfl

/-- Which bindings have one pair of addresses, which pairs are read back, and which accepted bytes
are the bytes that the encoder writes. -/
theorem addressBinding_canonical_iff (addresses : AddressPair) (bytes : Bytes) :
    (serializeSignalProtocolMessageAddresses addresses = .ok bytes →
      ((∀ others, serializeSignalProtocolMessageAddresses others = .ok bytes → others = addresses) ↔
        (JsString.toWellFormed addresses.senderAddress.userId = addresses.senderAddress.userId ∧
          0xfffd ∉ addresses.senderAddress.userId) ∧
        JsString.toWellFormed addresses.recipientAddress.userId =
          addresses.recipientAddress.userId ∧
          0xfffd ∉ addresses.recipientAddress.userId)) ∧
    (serializeSignalProtocolMessageAddresses addresses = .ok bytes →
      (deserializeSignalProtocolMessageAddresses bytes = .ok addresses ↔
        (JsString.toWellFormed addresses.senderAddress.userId = addresses.senderAddress.userId ∧
          addresses.senderAddress.userId.head? ≠ some 0xfeff) ∧
        JsString.toWellFormed addresses.recipientAddress.userId =
          addresses.recipientAddress.userId ∧
          addresses.recipientAddress.userId.head? ≠ some 0xfeff)) ∧
    (deserializeSignalProtocolMessageAddresses bytes = .ok addresses →
      (serializeSignalProtocolMessageAddresses addresses = .ok bytes ↔ CanonicalBinding bytes)) :=
  ⟨serialize_unique_iff, deserialize_serialize_iff, serialize_deserialize_iff⟩

/-- Two users with one-letter names. -/
def plainPair : AddressPair := ⟨⟨[0x61], 1⟩, ⟨[0x62], 2⟩⟩

theorem addressBinding_canonical_iff_plain :
    deserializeSignalProtocolMessageAddresses plainPair.bytes = .ok plainPair :=
  ((addressBinding_canonical_iff plainPair plainPair.bytes).2.1 (by decide)).mpr
    (by decide)

/-- Two names of one lone surrogate share their bytes, a byte order mark is lost, and a length may
have a byte more than it needs. -/
theorem addressBinding_not_canonical :
    (∃ addresses others bytes, addresses ≠ others ∧
      serializeSignalProtocolMessageAddresses addresses = .ok bytes ∧
        serializeSignalProtocolMessageAddresses others = .ok bytes) ∧
    (∃ addresses bytes others, addresses ≠ others ∧
      serializeSignalProtocolMessageAddresses addresses = .ok bytes ∧
        deserializeSignalProtocolMessageAddresses bytes = .ok others) ∧
    ∃ bytes addresses other, bytes ≠ other ∧
      deserializeSignalProtocolMessageAddresses bytes = .ok addresses ∧
        serializeSignalProtocolMessageAddresses addresses = .ok other := by
  refine ⟨⟨⟨⟨[0xd800], 1⟩, ⟨[0x62], 2⟩⟩, ⟨⟨[0xdc00], 1⟩, ⟨[0x62], 2⟩⟩,
    [1, 3, 0xef, 0xbf, 0xbd, 0, 0, 0, 1, 1, 0x62, 0, 0, 0, 2], ?_⟩,
    ⟨⟨⟨[0xfeff, 0x61], 1⟩, ⟨[0x62], 2⟩⟩,
      [1, 4, 0xef, 0xbb, 0xbf, 0x61, 0, 0, 0, 1, 1, 0x62, 0, 0, 0, 2], plainPair, ?_⟩,
    ⟨[1, 0x81, 0, 0x61, 0, 0, 0, 1, 1, 0x62, 0, 0, 0, 2], plainPair, plainPair.bytes, ?_⟩⟩
  · decide
  · decide
  · decide

end SignalProtocol.Proto

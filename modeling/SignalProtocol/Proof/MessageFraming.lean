import SignalProtocol.Proof.ProtoFields

/-! # Framing round trip of the session messages -/

namespace SignalProtocol.Proto

open Results List Option

variable {protobufBytes mac : Bytes} {msg : SignalProtocolMessageFields}

variable {value result : Bytes} {preKeyFields : PreKeySignalProtocolMessageFields}
  {envelope : SignalEnvelope} {fields signalFields : SignalProtocolMessageFields}
  {state : SignalWire} {field : WireField}

def SignalProtocolMessageFields.wire (msg : SignalProtocolMessageFields) : List WireField :=
  [⟨1, .lengthDelimited msg.ratchetKey⟩] ++ [⟨2, .varint msg.counter⟩] ++
    [⟨3, .varint msg.previousCounter⟩] ++ [⟨4, .lengthDelimited msg.ciphertext⟩] ++
    optionalField 5 .lengthDelimited msg.pqRatchet ++ [⟨6, .lengthDelimited msg.addresses⟩] ++
    optionalField 100 .varint msg.recipientIdentityType

theorem encodeSignalProtocolMessage_eq_ok {bytes : Bytes}
    (hok : encodeSignalProtocolMessage msg = .ok bytes) :
    msg.addresses ≠ [] ∧ assertRecipientIdentityType msg.recipientIdentityType = .ok () ∧
      Encodes bytes msg.wire := by
  rw [encodeSignalProtocolMessage] at hok
  split at hok
  · cases hok
  rename_i haddrs
  obtain ⟨⟨⟩, htype, hok⟩ := bind_eq_ok_iff.mp hok
  obtain ⟨ratchetKey, hratchetKey, hcounterOk⟩ := bind_eq_ok_iff.mp hok
  obtain ⟨counter, hcounter, hpreviousOk⟩ := bind_eq_ok_iff.mp hcounterOk
  obtain ⟨previousCounter, hprev, hciphertextOk⟩ := bind_eq_ok_iff.mp hpreviousOk
  obtain ⟨ciphertext, hcipher, hpqOk⟩ := bind_eq_ok_iff.mp hciphertextOk
  obtain ⟨pqRatchet, hpq, haddressesOk⟩ := bind_eq_ok_iff.mp hpqOk
  obtain ⟨addresses, haddressesBytes, hidentityOk⟩ := bind_eq_ok_iff.mp haddressesOk
  obtain ⟨recipientIdentityType, hident, hbytes⟩ := bind_eq_ok_iff.mp hidentityOk
  cases hbytes
  refine ⟨by simpa using haddrs, htype, ?_⟩
  exact (((((encodeBytesField_encodes (by decide) hratchetKey).append
    (encodeUint32Field_encodes (by decide) hcounter)).append
    (encodeUint32Field_encodes (by decide) hprev)).append
    (encodeBytesField_encodes (by decide) hcipher)).append
    (encodeOptional_encodes (encodeBytesField_encodes (by decide)) hpq)).append
    (encodeBytesField_encodes (by decide) haddressesBytes) |>.append
    (encodeOptional_encodes (encodeUint32Field_encodes (by decide)) hident)

def SignalProtocolMessageFields.read (msg : SignalProtocolMessageFields) : SignalWire where
  ratchetKey := msg.ratchetKey
  counter := msg.counter
  previousCounter := msg.previousCounter
  ciphertext := msg.ciphertext
  pqRatchet := msg.pqRatchet
  addresses := msg.addresses
  recipientIdentityType := msg.recipientIdentityType

theorem SignalProtocolMessageFields.fold_wire {bytes : Bytes} (hbytes : Encodes bytes msg.wire) :
    msg.wire.foldlM (applyField signalMessageField) {} = some msg.read := by
  have hcounter := hbytes.uint32 ⟨2, .varint msg.counter⟩ (by simp [wire]) _ rfl
  have hprev := hbytes.uint32 ⟨3, .varint msg.previousCounter⟩ (by simp [wire]) _ rfl
  have htype (type : ℕ) (hsome : msg.recipientIdentityType = some type) : type ≤ uint32Max :=
    hbytes.uint32 ⟨100, .varint type⟩ (by simp [wire, hsome, optionalField]) _ rfl
  obtain ⟨ratchetKey, counter, previousCounter, ciphertext, pqRatchet, addresses, type⟩ := msg
  cases pqRatchet <;> cases type <;>
    simp_all [wire, read, optionalField, applyField, signalMessageField, FieldRead.apply]

/-- An empty payload of an optional field comes back as an absent one. -/
def SignalProtocolMessageFields.normalized (msg : SignalProtocolMessageFields) :
    SignalProtocolMessageFields :=
  { msg with pqRatchet := present msg.pqRatchet }

/-- What the decoder asks of a message beyond the encoder's checks. -/
structure SignalProtocolMessageFields.Decodable (msg : SignalProtocolMessageFields)
    (protobufBytes : Bytes) : Prop where
  size : protobufBytes.length ≤ maxSignalProtocolWireMessageBytes
  ratchetKey : msg.ratchetKey.length = 33
  ciphertext : msg.ciphertext ≠ []

theorem assertWireMessageSize_eq_ok_iff {bytes : Bytes} {label : String} :
    assertWireMessageSize bytes label = .ok () ↔
      bytes.length ≤ maxSignalProtocolWireMessageBytes := by
  rw [assertWireMessageSize]
  split <;> simp_all

theorem exactly_some_eq_ok_iff {length : ℕ} {message : String} :
    exactly length message (some value) = .ok result ↔ value.length = length ∧ value = result := by
  rw [exactly]
  split <;> simp_all

theorem nonEmpty_some_eq_ok_iff {message : String} :
    nonEmpty message (some value) = .ok result ↔ value ≠ [] ∧ value = result := by
  rw [nonEmpty]
  split <;> simp_all

theorem decodeSignalProtocolMessage_encoded
    {bytes : Bytes} (henc : encodeSignalProtocolMessage msg = .ok bytes) :
    decodeSignalProtocolMessage bytes = .ok fields ↔
      msg.Decodable bytes ∧ fields = msg.normalized := by
  obtain ⟨haddrs, htype, hbytes⟩ := encodeSignalProtocolMessage_eq_ok henc
  have hread : readMessage signalMessageField {} bytes = .ok msg.read :=
    readMessage_eq_ok_iff.mpr ⟨msg.wire, hbytes.canonical, hbytes.bytes_eq, msg.fold_wire hbytes⟩
  rw [decodeSignalProtocolMessage, hread, bind_eq_ok_iff]
  constructor
  · rintro ⟨⟨⟩, hsize, hcheck⟩
    rw [ok_bind, checkSignalWire] at hcheck
    obtain ⟨addresses, haddr, hkeyOk⟩ := bind_eq_ok_iff.mp hcheck
    obtain ⟨-, rfl⟩ := nonEmpty_some_eq_ok_iff.mp haddr
    obtain ⟨ratchetKey, hkey, hciphertextOk⟩ := bind_eq_ok_iff.mp hkeyOk
    obtain ⟨hlen, rfl⟩ := exactly_some_eq_ok_iff.mp hkey
    obtain ⟨ciphertext, hcipher, htypeOk⟩ := bind_eq_ok_iff.mp hciphertextOk
    obtain ⟨hne, rfl⟩ := nonEmpty_some_eq_ok_iff.mp hcipher
    obtain ⟨⟨⟩, -, hfields⟩ := bind_eq_ok_iff.mp htypeOk
    cases hfields
    exact ⟨⟨assertWireMessageSize_eq_ok_iff.mp hsize, hlen, hne⟩, rfl⟩
  · rintro ⟨hdecodable, rfl⟩
    refine ⟨(), assertWireMessageSize_eq_ok_iff.mpr hdecodable.size, ?_⟩
    rw [ok_bind, checkSignalWire]
    refine bind_eq_ok_iff.mpr ⟨_, nonEmpty_some_eq_ok_iff.mpr ⟨haddrs, rfl⟩, ?_⟩
    refine bind_eq_ok_iff.mpr
      ⟨_, exactly_some_eq_ok_iff.mpr ⟨hdecodable.ratchetKey, rfl⟩, ?_⟩
    refine bind_eq_ok_iff.mpr
      ⟨_, nonEmpty_some_eq_ok_iff.mpr ⟨hdecodable.ciphertext, rfl⟩, ?_⟩
    exact bind_eq_ok_iff.mpr ⟨(), htype, rfl⟩

def PreKeySignalProtocolMessageFields.wire (msg : PreKeySignalProtocolMessageFields) :
    List WireField :=
  optionalField 1 .varint msg.ecOneTimePreKeyId ++ [⟨2, .lengthDelimited msg.baseKey⟩] ++
    [⟨3, .lengthDelimited msg.identityKey⟩] ++ [⟨4, .lengthDelimited msg.message⟩] ++
    [⟨5, .varint msg.registrationId⟩] ++ [⟨6, .varint msg.ecSignedPreKeyId⟩] ++
    optionalField 7 .varint msg.kemLastResortPreKeyId ++
    optionalField 8 .lengthDelimited msg.kemLastResortCiphertext ++
    optionalField 100 .varint msg.kemOneTimePreKeyId ++
    optionalField 101 .lengthDelimited msg.kemOneTimeCiphertext ++
    [⟨102, .varint msg.recipientIdentityType⟩]

theorem encodePreKeySignalProtocolMessage_eq_ok {msg : PreKeySignalProtocolMessageFields}
    {bytes : Bytes} (hok : encodePreKeySignalProtocolMessage msg = .ok bytes) :
    (msg.recipientIdentityType = 1 ∨ msg.recipientIdentityType = 2) ∧ Encodes bytes msg.wire := by
  rw [encodePreKeySignalProtocolMessage] at hok
  split at hok
  · cases hok
  rename_i htype
  obtain ⟨oneTimePreKeyId, honeTime, hbaseOk⟩ := bind_eq_ok_iff.mp hok
  obtain ⟨baseKey, hbase, hidentityOk⟩ := bind_eq_ok_iff.mp hbaseOk
  obtain ⟨identityKey, hident, hmessageOk⟩ := bind_eq_ok_iff.mp hidentityOk
  obtain ⟨message, hmsg, hregistrationOk⟩ := bind_eq_ok_iff.mp hmessageOk
  obtain ⟨registrationId, hreg, hsignedOk⟩ := bind_eq_ok_iff.mp hregistrationOk
  obtain ⟨signedPreKeyId, hsigned, hkyberIdOk⟩ := bind_eq_ok_iff.mp hsignedOk
  obtain ⟨kyberPreKeyId, hkyberId, hkyberOk⟩ := bind_eq_ok_iff.mp hkyberIdOk
  obtain ⟨kyberCiphertext, hkyber, hkemIdOk⟩ := bind_eq_ok_iff.mp hkyberOk
  obtain ⟨kemOneTimePreKeyId, hkemId, hkemOk⟩ := bind_eq_ok_iff.mp hkemIdOk
  obtain ⟨kemOneTimeCiphertext, hkem, htypeOk⟩ := bind_eq_ok_iff.mp hkemOk
  obtain ⟨recipientIdentityType, htypeBytes, hbytes⟩ := bind_eq_ok_iff.mp htypeOk
  cases hbytes
  refine ⟨by omega, ?_⟩
  have hkeys := (((encodeOptional_encodes (encodeUint32Field_encodes (by decide)) honeTime).append
    (encodeBytesField_encodes (by decide) hbase)).append
    (encodeBytesField_encodes (by decide) hident)).append
    (encodeBytesField_encodes (by decide) hmsg)
  have hids := ((hkeys.append (encodeUint32Field_encodes (by decide) hreg)).append
    (encodeUint32Field_encodes (by decide) hsigned)).append
    (encodeOptional_encodes (encodeUint32Field_encodes (by decide)) hkyberId)
  exact (((hids.append (encodeOptional_encodes (encodeBytesField_encodes (by decide)) hkyber)).append
    (encodeOptional_encodes (encodeUint32Field_encodes (by decide)) hkemId)).append
    (encodeOptional_encodes (encodeBytesField_encodes (by decide)) hkem)).append
    (encodeUint32Field_encodes (by decide) htypeBytes)

def PreKeySignalProtocolMessageFields.read (msg : PreKeySignalProtocolMessageFields) :
    PreKeyWire where
  oneTimePreKeyId := msg.ecOneTimePreKeyId
  baseKey := msg.baseKey
  identityKey := msg.identityKey
  message := msg.message
  registrationId := msg.registrationId
  signedPreKeyId := msg.ecSignedPreKeyId
  kyberPreKeyId := msg.kemLastResortPreKeyId
  kyberCiphertext := msg.kemLastResortCiphertext
  kemOneTimePreKeyId := msg.kemOneTimePreKeyId
  kemOneTimeCiphertext := msg.kemOneTimeCiphertext
  recipientIdentityType := msg.recipientIdentityType

theorem PreKeySignalProtocolMessageFields.fold_wire {msg : PreKeySignalProtocolMessageFields}
    {bytes : Bytes} (hbytes : Encodes bytes msg.wire) :
    msg.wire.foldlM (applyField preKeyMessageField) {} = some msg.read := by
  have hreg := hbytes.uint32 ⟨5, .varint msg.registrationId⟩ (by simp [wire]) _ rfl
  have hsigned := hbytes.uint32 ⟨6, .varint msg.ecSignedPreKeyId⟩ (by simp [wire]) _ rfl
  have htype := hbytes.uint32 ⟨102, .varint msg.recipientIdentityType⟩ (by simp [wire]) _ rfl
  have honeTime (id : ℕ) (hsome : msg.ecOneTimePreKeyId = some id) : id ≤ uint32Max :=
    hbytes.uint32 ⟨1, .varint id⟩ (by simp [wire, hsome, optionalField]) _ rfl
  have hkyber (id : ℕ) (hsome : msg.kemLastResortPreKeyId = some id) : id ≤ uint32Max :=
    hbytes.uint32 ⟨7, .varint id⟩ (by simp [wire, hsome, optionalField]) _ rfl
  have hkem (id : ℕ) (hsome : msg.kemOneTimePreKeyId = some id) : id ≤ uint32Max :=
    hbytes.uint32 ⟨100, .varint id⟩ (by simp [wire, hsome, optionalField]) _ rfl
  obtain ⟨oneTime, baseKey, identityKey, message, registrationId, signedId, kyberId,
    kyberCiphertext, kemId, kemCiphertext, type⟩ := msg
  cases oneTime <;> cases kyberId <;> cases kyberCiphertext <;> cases kemId <;>
    cases kemCiphertext <;>
    simp_all [wire, read, optionalField, applyField, preKeyMessageField, FieldRead.apply]

def PreKeySignalProtocolMessageFields.normalized (msg : PreKeySignalProtocolMessageFields) :
    PreKeySignalProtocolMessageFields :=
  { msg with
    kemLastResortCiphertext := present msg.kemLastResortCiphertext
    kemOneTimeCiphertext := present msg.kemOneTimeCiphertext }

structure PreKeySignalProtocolMessageFields.Decodable (msg : PreKeySignalProtocolMessageFields)
    (protobufBytes : Bytes) : Prop where
  size : protobufBytes.length ≤ maxSignalProtocolWireMessageBytes
  baseKey : msg.baseKey.length = 33
  identityKey : msg.identityKey.length = 67
  message : msg.message ≠ []

theorem requiredIdentityType_some_eq_ok_iff {message : String} {type result : ℕ} :
    requiredIdentityType message (some type) = .ok result ↔ (type = 1 ∨ type = 2) ∧ type = result := by
  rw [requiredIdentityType]
  split
  · rename_i hinvalid
    exact ⟨nofun, fun hvalid => absurd hvalid.1 (by omega)⟩
  · rename_i hvalid
    rw [pure_eq_ok, Except.ok.injEq]
    exact ⟨fun heq => ⟨by omega, heq⟩, fun hboth => hboth.2⟩

theorem decodePreKeySignalProtocolMessage_encoded {msg fields : PreKeySignalProtocolMessageFields}
    {bytes : Bytes} (henc : encodePreKeySignalProtocolMessage msg = .ok bytes) :
    decodePreKeySignalProtocolMessage bytes = .ok fields ↔
      msg.Decodable bytes ∧ fields = msg.normalized := by
  obtain ⟨htype, hbytes⟩ := encodePreKeySignalProtocolMessage_eq_ok henc
  have hread : readMessage preKeyMessageField {} bytes = .ok msg.read :=
    readMessage_eq_ok_iff.mpr ⟨msg.wire, hbytes.canonical, hbytes.bytes_eq, msg.fold_wire hbytes⟩
  rw [decodePreKeySignalProtocolMessage, hread, bind_eq_ok_iff]
  constructor
  · rintro ⟨⟨⟩, hsize, hcheck⟩
    rw [ok_bind, checkPreKeyWire] at hcheck
    obtain ⟨baseKey, hbase, hidentityOk⟩ := bind_eq_ok_iff.mp hcheck
    obtain ⟨hbaseLength, rfl⟩ := exactly_some_eq_ok_iff.mp hbase
    obtain ⟨identityKey, hident, hmessageOk⟩ := bind_eq_ok_iff.mp hidentityOk
    obtain ⟨hidentityLength, rfl⟩ := exactly_some_eq_ok_iff.mp hident
    obtain ⟨message, hmsg, hregistrationOk⟩ := bind_eq_ok_iff.mp hmessageOk
    obtain ⟨hne, rfl⟩ := nonEmpty_some_eq_ok_iff.mp hmsg
    obtain ⟨registrationId, hreg, hsignedOk⟩ := bind_eq_ok_iff.mp hregistrationOk
    cases hreg
    obtain ⟨signedPreKeyId, hsigned, htypeOk⟩ := bind_eq_ok_iff.mp hsignedOk
    cases hsigned
    obtain ⟨type, hwireType, hfields⟩ := bind_eq_ok_iff.mp htypeOk
    obtain ⟨-, rfl⟩ := requiredIdentityType_some_eq_ok_iff.mp hwireType
    cases hfields
    exact ⟨⟨assertWireMessageSize_eq_ok_iff.mp hsize, hbaseLength, hidentityLength, hne⟩, rfl⟩
  · rintro ⟨hdecodable, rfl⟩
    refine ⟨(), assertWireMessageSize_eq_ok_iff.mpr hdecodable.size, ?_⟩
    rw [ok_bind, checkPreKeyWire]
    refine bind_eq_ok_iff.mpr
      ⟨_, exactly_some_eq_ok_iff.mpr ⟨hdecodable.baseKey, rfl⟩, ?_⟩
    refine bind_eq_ok_iff.mpr
      ⟨_, exactly_some_eq_ok_iff.mpr ⟨hdecodable.identityKey, rfl⟩, ?_⟩
    refine bind_eq_ok_iff.mpr
      ⟨_, nonEmpty_some_eq_ok_iff.mpr ⟨hdecodable.message, rfl⟩, ?_⟩
    refine bind_eq_ok_iff.mpr ⟨msg.registrationId, rfl, ?_⟩
    refine bind_eq_ok_iff.mpr ⟨msg.ecSignedPreKeyId, rfl, ?_⟩
    exact bind_eq_ok_iff.mpr
      ⟨_, requiredIdentityType_some_eq_ok_iff.mpr ⟨htype, rfl⟩, rfl⟩

/-! ## Frames -/

theorem frameSignalProtocolMessage_eq_ok_iff {framed : Bytes} :
    frameSignalProtocolMessage protobufBytes mac = .ok framed ↔
      mac.length = macLength ∧ framed = makeVersionByte :: protobufBytes ++ mac := by
  rw [frameSignalProtocolMessage]
  split
  · rename_i hlen
    exact ⟨nofun, fun hboth => absurd hboth.1 hlen⟩
  · rename_i hlen
    rw [pure_eq_ok, Except.ok.injEq]
    exact ⟨fun heq => ⟨not_ne_iff.mp hlen, heq.symm⟩, fun hboth => hboth.2.symm⟩

theorem parseSignalProtocolMessageEnvelope_eq_ok_iff {bytes : Bytes} :
    parseSignalProtocolMessageEnvelope bytes = .ok envelope ↔
      envelope.mac.length = macLength ∧
        ∃ version, envelope.version = version.toNat >>> 4 ∧
          bytes = version :: envelope.protobufBytes ++ envelope.mac := by
  rw [parseSignalProtocolMessageEnvelope]
  constructor
  · intro hok
    split at hok
    · cases hok
    rename_i hlong
    cases bytes with
    | nil => exact absurd (by decide) hlong
    | cons version rest =>
      cases hok
      simp only [macLength, length_cons, not_lt] at hlong ⊢
      refine ⟨by simp only [length_drop, length_cons]; omega, version, rfl, ?_⟩
      have hsplit : rest.length + 1 - 8 = (rest.length - 8) + 1 := by omega
      rw [hsplit, List.take_succ_cons, drop_succ_cons, drop_zero, cons_append,
        drop_succ_cons, List.take_append_drop]
  · obtain ⟨versionNumber, protobufBytes, mac⟩ := envelope
    rintro ⟨hmac, version, rfl, rfl⟩
    simp only at hmac ⊢
    rw [if_neg (by simp only [length_append, length_cons]; omega)]
    have hlen : (version :: protobufBytes ++ mac).length - macLength =
        (version :: protobufBytes).length := by
      rw [length_append]
      omega
    rw [hlen, List.take_left, drop_left]
    rfl

theorem makeVersionByte_version : 4 = makeVersionByte.toNat >>> 4 := by decide

theorem parseSignalProtocolMessageEnvelope_framed (hmac : mac.length = macLength) :
    parseSignalProtocolMessageEnvelope (makeVersionByte :: protobufBytes ++ mac) =
      .ok ⟨4, protobufBytes, mac⟩ :=
  parseSignalProtocolMessageEnvelope_eq_ok_iff.mpr ⟨hmac, makeVersionByte, makeVersionByte_version, rfl⟩

theorem createProtobufMacContext_framed {addresses : Bytes}
    (hmac : mac.length = macLength) (haddrs : addresses ≠ []) :
    createProtobufMacContext (makeVersionByte :: protobufBytes ++ mac) mac addresses =
      .ok ⟨makeVersionByte :: protobufBytes, mac, addresses⟩ := by
  have hlen : (makeVersionByte :: protobufBytes ++ mac).length - mac.length =
      (makeVersionByte :: protobufBytes).length := by
    rw [length_append]
    omega
  have hne := length_pos_of_ne_nil haddrs
  simp only [macLength] at hmac
  rw [createProtobufMacContext, if_neg (by simp only [length_append, length_cons]; omega),
    if_neg (by omega), hlen, List.take_left]
  rfl

theorem asMalformed_eq_ok_iff {α : Type} {result : Except ProtocolError α} {value : α} :
    asMalformed result = .ok value ↔ result = .ok value := by
  cases result with
  | ok => rfl
  | error error => cases error <;> exact ⟨nofun, nofun⟩

theorem readSignalFrame_encoded {result : WireMessage}
    (henc : encodeSignalProtocolMessage msg = .ok protobufBytes)
    (hmac : mac.length = macLength) :
    readSignalFrame (makeVersionByte :: protobufBytes ++ mac) = .ok result ↔
      msg.Decodable protobufBytes ∧
        result = .ratchet msg.normalized ⟨makeVersionByte :: protobufBytes, mac, msg.addresses⟩ := by
  have haddrs := (encodeSignalProtocolMessage_eq_ok henc).1
  rw [readSignalFrame, parseSignalProtocolMessageEnvelope_framed hmac, ok_bind, bind_eq_ok_iff]
  constructor
  · rintro ⟨fields, hfields, hctx⟩
    obtain ⟨hdecodable, rfl⟩ := (decodeSignalProtocolMessage_encoded henc).mp hfields
    simp only [SignalProtocolMessageFields.normalized] at hctx
    rw [createProtobufMacContext_framed hmac haddrs] at hctx
    cases hctx
    exact ⟨hdecodable, rfl⟩
  · rintro ⟨hdecodable, rfl⟩
    refine ⟨_, (decodeSignalProtocolMessage_encoded henc).mpr ⟨hdecodable, rfl⟩, ?_⟩
    simp only [SignalProtocolMessageFields.normalized]
    rw [createProtobufMacContext_framed hmac haddrs]
    rfl

theorem assertMacBoundIdentityType_eq_ok_iff :
    assertMacBoundIdentityType signalFields preKeyFields = .ok () ↔
      signalFields.recipientIdentityType = some preKeyFields.recipientIdentityType := by
  rw [assertMacBoundIdentityType]
  split <;> simp_all

theorem readPreKeyFrame_encoded {preKey : PreKeySignalProtocolMessageFields}
    {inner : SignalProtocolMessageFields} {innerBytes : Bytes} {result : WireMessage}
    (hinner : encodeSignalProtocolMessage inner = .ok innerBytes) (hmac : mac.length = macLength)
    (hmsg : preKey.message = makeVersionByte :: innerBytes ++ mac)
    (henc : encodePreKeySignalProtocolMessage preKey = .ok protobufBytes) :
    readPreKeyFrame (framePreKeySignalProtocolMessage protobufBytes) = .ok result ↔
      (preKey.Decodable protobufBytes ∧ inner.Decodable innerBytes ∧
        inner.recipientIdentityType = some preKey.recipientIdentityType) ∧
      result = .preKey preKey.normalized inner.normalized
        ⟨makeVersionByte :: innerBytes, mac, inner.addresses⟩ := by
  have haddrs := (encodeSignalProtocolMessage_eq_ok hinner).1
  have houter : parsePreKeySignalProtocolMessageEnvelope
      (framePreKeySignalProtocolMessage protobufBytes) = .ok ⟨4, protobufBytes⟩ := rfl
  have hframe : preKey.normalized.message = makeVersionByte :: innerBytes ++ mac := hmsg
  have hctx : createProtobufMacContext (makeVersionByte :: innerBytes ++ mac) mac
      inner.normalized.addresses = .ok ⟨makeVersionByte :: innerBytes, mac, inner.addresses⟩ :=
    createProtobufMacContext_framed hmac haddrs
  rw [readPreKeyFrame, houter, ok_bind, bind_eq_ok_iff]
  constructor
  · rintro ⟨preKeyFields, hpreKey, hrest⟩
    obtain ⟨hdecodable, rfl⟩ := (decodePreKeySignalProtocolMessage_encoded henc).mp hpreKey
    rw [hframe, parseSignalProtocolMessageEnvelope_framed hmac, ok_bind] at hrest
    obtain ⟨signalFields, hsignal, hsame⟩ := bind_eq_ok_iff.mp hrest
    obtain ⟨hdecodableInner, rfl⟩ := (decodeSignalProtocolMessage_encoded hinner).mp hsignal
    obtain ⟨⟨⟩, hident, hmac'⟩ := bind_eq_ok_iff.mp hsame
    obtain ⟨context, hcontext', hres⟩ := bind_eq_ok_iff.mp hmac'
    obtain rfl := Except.ok.inj (hcontext'.symm.trans hctx)
    cases hres
    exact ⟨⟨hdecodable, hdecodableInner, assertMacBoundIdentityType_eq_ok_iff.mp hident⟩, rfl⟩
  · rintro ⟨⟨hdecodable, hdecodableInner, hident⟩, rfl⟩
    refine ⟨_, (decodePreKeySignalProtocolMessage_encoded henc).mpr ⟨hdecodable, rfl⟩, ?_⟩
    rw [hframe, parseSignalProtocolMessageEnvelope_framed hmac, ok_bind]
    refine bind_eq_ok_iff.mpr
      ⟨_, (decodeSignalProtocolMessage_encoded hinner).mpr ⟨hdecodableInner, rfl⟩, ?_⟩
    refine bind_eq_ok_iff.mpr
      ⟨(), assertMacBoundIdentityType_eq_ok_iff.mpr hident, ?_⟩
    exact bind_eq_ok_iff.mpr ⟨_, hctx, rfl⟩

theorem Encodes.head {bytes : Bytes} {wire : List WireField} (tag : UInt8)
    (hbytes : Encodes bytes (field :: wire))
    (htag : varint (field.number * 8 + field.value.wireType) = [tag]) : ∃ rest, bytes = tag :: rest := by
  rw [hbytes.bytes_eq, wireBytes_cons, WireField.bytes, htag]
  exact ⟨_, rfl⟩

theorem isBinaryPreKey_signal (henc : encodeSignalProtocolMessage msg = .ok protobufBytes) :
    isBinaryPreKey (makeVersionByte :: protobufBytes ++ mac) = false := by
  have hbytes := (encodeSignalProtocolMessage_eq_ok henc).2.2
  obtain ⟨rest, rfl⟩ := hbytes.head 0x0a rfl
  rfl

theorem isBinaryPreKey_preKey {msg : PreKeySignalProtocolMessageFields}
    (henc : encodePreKeySignalProtocolMessage msg = .ok protobufBytes) :
    isBinaryPreKey (framePreKeySignalProtocolMessage protobufBytes) = true := by
  have hbytes := (encodePreKeySignalProtocolMessage_eq_ok henc).2
  rw [PreKeySignalProtocolMessageFields.wire] at hbytes
  cases hid : msg.ecOneTimePreKeyId with
  | some id =>
    rw [hid] at hbytes
    obtain ⟨rest, rfl⟩ := hbytes.head 0x08 rfl
    rfl
  | none =>
    rw [hid] at hbytes
    obtain ⟨rest, rfl⟩ := hbytes.head 0x12 rfl
    rfl

theorem exists_applied {σ : Type} {fields : ℕ → FieldRead σ} {wire : List WireField}
    {state result : σ} (hfold : wire.foldlM (applyField fields) state = some result) :
    ∀ field ∈ wire, ∃ before after, applyField fields before field = some after := by
  induction wire generalizing state with
  | nil => nofun
  | cons field wire ih =>
    rw [foldlM_cons, bind_eq_bind, bind_eq_some_iff] at hfold
    obtain ⟨next, happly, hrest⟩ := hfold
    exact forall_mem_cons.mpr ⟨⟨state, next, happly⟩, ih hrest⟩

theorem applyField_ratchetKey {next : SignalWire}
    (happly : applyField signalMessageField state field = some next)
    (hother : field.number ≠ 1) : next.ratchetKey = state.ratchetKey := by
  obtain ⟨number, value⟩ := field
  simp only [applyField] at happly
  unfold signalMessageField at happly
  split at happly <;> cases value <;> simp_all [FieldRead.apply] <;>
    (obtain ⟨-, rfl⟩ := happly; rfl)

theorem signal_reads_ratchetKey {wire : List WireField} {result : SignalWire}
    (hfold : wire.foldlM (applyField signalMessageField) state = some result) :
    (∃ payload, ⟨1, .lengthDelimited payload⟩ ∈ wire) ∨ result.ratchetKey = state.ratchetKey := by
  induction wire generalizing state with
  | nil =>
    cases hfold
    exact .inr rfl
  | cons field wire ih =>
    rw [foldlM_cons, bind_eq_bind, bind_eq_some_iff] at hfold
    obtain ⟨next, happly, hrest⟩ := hfold
    by_cases hone : field.number = 1
    · refine .inl ?_
      obtain ⟨number, value⟩ := field
      obtain rfl : number = 1 := hone
      cases value with
      | lengthDelimited payload => exact ⟨payload, mem_cons_self⟩
      | varint | fixed64 | fixed32 => cases happly
    · rcases ih hrest with ⟨payload, hpayload⟩ | hsame
      · exact .inl ⟨payload, mem_cons_of_mem _ hpayload⟩
      · exact .inr (hsame.trans (applyField_ratchetKey happly hone))

theorem decodeSignalProtocolMessage_eq_ok {bytes : Bytes}
    (hok : decodeSignalProtocolMessage bytes = .ok fields) :
    ∃ wire payload, Canonical wire ∧ bytes = wireBytes wire ∧
      ⟨1, .lengthDelimited payload⟩ ∈ wire := by
  obtain ⟨⟨⟩, -, hread⟩ := bind_eq_ok_iff.mp hok
  obtain ⟨result, hres, hcheck⟩ := bind_eq_ok_iff.mp hread
  obtain ⟨wire, hwire, hbytes, hfold⟩ := readMessage_eq_ok_iff.mp hres
  rcases signal_reads_ratchetKey hfold with ⟨payload, hpayload⟩ | habsent
  · exact ⟨wire, payload, hwire, hbytes, hpayload⟩
  · -- Without the field the decoder misses its ratchet key.
    obtain ⟨addresses, -, hkeyOk⟩ := bind_eq_ok_iff.mp hcheck
    obtain ⟨ratchetKey, hkey, -⟩ := bind_eq_ok_iff.mp hkeyOk
    rw [habsent] at hkey
    cases hkey

theorem not_both_kinds {bytes : Bytes} {outer : PreKeyEnvelope}
    (henvelope : parseSignalProtocolMessageEnvelope bytes = .ok envelope)
    (hsignal : decodeSignalProtocolMessage envelope.protobufBytes = .ok signalFields)
    (houter : parsePreKeySignalProtocolMessageEnvelope bytes = .ok outer)
    (hpreKey : decodePreKeySignalProtocolMessage outer.protobufBytes = .ok preKeyFields) : False := by
  obtain ⟨-, version, -, rfl⟩ := parseSignalProtocolMessageEnvelope_eq_ok_iff.mp henvelope
  cases houter
  obtain ⟨wire, payload, hwire, hbytes, hmem⟩ := decodeSignalProtocolMessage_eq_ok hsignal
  obtain ⟨⟨⟩, -, hread⟩ := bind_eq_ok_iff.mp hpreKey
  obtain ⟨result, hres, -⟩ := bind_eq_ok_iff.mp hread
  obtain ⟨wire', hwire', hbytes', hfold⟩ := readMessage_eq_ok_iff.mp hres
  -- The pre-key protobuf is the signal protobuf followed by the MAC.
  rw [hbytes] at hbytes'
  obtain ⟨others, rfl⟩ := wireBytes_prefix hwire hwire' hbytes'
  obtain ⟨before, after, happly⟩ := exists_applied hfold _ (mem_append_left _ hmem)
  cases happly

/-- Every message that the encoders accept is dispatched as its own kind, with the bytes that its
MAC covers, and it is read back exactly when the decoder's checks hold. -/
theorem message_framing_round_trip :
    (∀ (msg : SignalProtocolMessageFields) (protobufBytes mac framed : Bytes),
      encodeSignalProtocolMessage msg = .ok protobufBytes →
      frameSignalProtocolMessage protobufBytes mac = .ok framed →
      isBinaryPreKey framed = false ∧
      parseSignalProtocolMessageEnvelope framed = .ok ⟨4, protobufBytes, mac⟩ ∧
      ∀ result, readFrame framed = .ok result ↔
        msg.Decodable protobufBytes ∧
        result = .ratchet msg.normalized ⟨makeVersionByte :: protobufBytes, mac, msg.addresses⟩) ∧
    (∀ (preKey : PreKeySignalProtocolMessageFields) (inner : SignalProtocolMessageFields)
      (protobufBytes innerBytes mac : Bytes),
      encodeSignalProtocolMessage inner = .ok innerBytes →
      frameSignalProtocolMessage innerBytes mac = .ok preKey.message →
      encodePreKeySignalProtocolMessage preKey = .ok protobufBytes →
      isBinaryPreKey (framePreKeySignalProtocolMessage protobufBytes) = true ∧
      parsePreKeySignalProtocolMessageEnvelope (framePreKeySignalProtocolMessage protobufBytes) =
        .ok ⟨4, protobufBytes⟩ ∧
      ∀ result, readFrame (framePreKeySignalProtocolMessage protobufBytes) = .ok result ↔
        (preKey.Decodable protobufBytes ∧ inner.Decodable innerBytes ∧
          inner.recipientIdentityType = some preKey.recipientIdentityType) ∧
        result = .preKey preKey.normalized inner.normalized
          ⟨makeVersionByte :: innerBytes, mac, inner.addresses⟩) ∧
    ∀ (bytes : Bytes) (envelope : SignalEnvelope) (outer : PreKeyEnvelope)
      (signalFields : SignalProtocolMessageFields)
      (preKeyFields : PreKeySignalProtocolMessageFields),
      parseSignalProtocolMessageEnvelope bytes = .ok envelope →
      decodeSignalProtocolMessage envelope.protobufBytes = .ok signalFields →
      parsePreKeySignalProtocolMessageEnvelope bytes = .ok outer →
      decodePreKeySignalProtocolMessage outer.protobufBytes ≠ .ok preKeyFields := by
  refine ⟨?_, ?_, ?_⟩
  · intro msg protobufBytes mac framed hencode hframe
    obtain ⟨hmac, rfl⟩ := frameSignalProtocolMessage_eq_ok_iff.mp hframe
    refine ⟨isBinaryPreKey_signal hencode, parseSignalProtocolMessageEnvelope_framed hmac, ?_⟩
    intro result
    rw [readFrame, asMalformed_eq_ok_iff, isBinaryPreKey_signal hencode]
    exact readSignalFrame_encoded hencode hmac
  · intro preKey inner protobufBytes innerBytes mac hinner hframe hencode
    obtain ⟨hmac, hmessage⟩ := frameSignalProtocolMessage_eq_ok_iff.mp hframe
    refine ⟨isBinaryPreKey_preKey hencode, rfl, ?_⟩
    intro result
    rw [readFrame, asMalformed_eq_ok_iff, isBinaryPreKey_preKey hencode, if_pos rfl]
    exact readPreKeyFrame_encoded hinner hmac hmessage hencode
  · intro bytes envelope outer signalFields preKeyFields henvelope hsignal houter hpreKey
    exact not_both_kinds henvelope hsignal houter hpreKey

def messageWithoutKey : SignalProtocolMessageFields where
  ratchetKey := []
  counter := 0
  previousCounter := 0
  ciphertext := [1]
  pqRatchet := none
  addresses := [1]
  recipientIdentityType := none

/-- The encoder takes a ratchet key of any length, the decoder one of 33 bytes. -/
theorem messageWithoutKey_malformed :
    encodeSignalProtocolMessage messageWithoutKey = .ok [10, 0, 16, 0, 24, 0, 34, 1, 1, 50, 1, 1] ∧
    frameSignalProtocolMessage [10, 0, 16, 0, 24, 0, 34, 1, 1, 50, 1, 1] (List.replicate 8 0) =
      .ok ([68, 10, 0, 16, 0, 24, 0, 34, 1, 1, 50, 1, 1] ++ List.replicate 8 0) ∧
    readFrame ([68, 10, 0, 16, 0, 24, 0, 34, 1, 1, 50, 1, 1] ++ List.replicate 8 0) =
      .error (.encryption .invalidCiphertext "Malformed message") := by
  decide

def messageWithKey : SignalProtocolMessageFields :=
  { messageWithoutKey with ratchetKey := List.replicate 33 5 }

theorem messageWithKey_round_trip :
    readFrame (makeVersionByte :: wireBytes messageWithKey.wire ++ List.replicate 8 0) =
      .ok (.ratchet messageWithKey
        ⟨makeVersionByte :: wireBytes messageWithKey.wire, List.replicate 8 0, [1]⟩) :=
  ((message_framing_round_trip.1 messageWithKey (wireBytes messageWithKey.wire)
    (List.replicate 8 0) (makeVersionByte :: wireBytes messageWithKey.wire ++ List.replicate 8 0)
    (by decide) (by decide)).2.2 _).mpr
      ⟨⟨by decide, by decide, by decide⟩, by decide⟩

end SignalProtocol.Proto

import SignalProtocol.Proof.ProtoFields
import SignalProtocol.SenderKeys.Manager

/-! # Frames of sender-key messages

What `encryptGroupMessage` frames, and what the receiver reads from such a frame. -/

open List

namespace SignalProtocol

variable {char : Char} {id : String}

/-- A UUID: not empty, and ASCII. -/
structure IsUuid (id : String) : Prop where
  ne_empty : id ≠ ""
  ascii : ∀ char ∈ id.toList, char.toNat < 2 ^ 7

theorem utf8EncodeChar_ascii (hascii : char.toNat < 2 ^ 7) :
    String.utf8EncodeChar char = [char.val.toUInt8] := by
  refine String.utf8EncodeChar_eq_singleton (Char.utf8Size_eq_one_iff.mpr ?_)
  rw [UInt32.le_iff_toNat_le]
  exact Nat.le_of_lt_succ hascii

theorem toNat_ascii (hascii : char.toNat < 2 ^ 7) : char.val.toUInt8.toNat = char.toNat := by
  rw [UInt32.toNat_toUInt8]
  exact Nat.mod_eq_of_lt (lt_trans hascii (by decide))

theorem utf8DecodeLoop_ascii {chars : List Char} (hascii : ∀ char ∈ chars, char.toNat < 2 ^ 7) :
    utf8DecodeLoop none (chars.flatMap String.utf8EncodeChar) = chars := by
  induction chars with
  | nil => rfl
  | cons char chars ih =>
    obtain ⟨hchar, hchars⟩ := forall_mem_cons.mp hascii
    have hstep : utf8Step char.val.toUInt8.toNat none = ([char], none) := by
      rw [toNat_ascii hchar, utf8Step, utf8Start, if_pos (Nat.le_of_lt_succ hchar),
        Char.ofNat_toNat]
    rw [flatMap_cons, utf8EncodeChar_ascii hchar, singleton_append, utf8DecodeLoop,
      hstep, ih hchars]
    rfl

theorem IsUuid.utf8Decode (hid : IsUuid id) : utf8Decode (stringToBytes id) = id := by
  have hloop := utf8DecodeLoop_ascii hid.ascii
  rw [← stringToBytes] at hloop
  -- A byte order mark does not start with an ASCII byte.
  have hmark (rest : Bytes) : stringToBytes id ≠ 0xef :: 0xbb :: 0xbf :: rest := by
    intro hmark
    have hchars : id.toList ≠ [] := by simpa using hid.ne_empty
    obtain ⟨char, chars, hlist⟩ := exists_cons_of_ne_nil hchars
    have hchar := hid.ascii char (hlist ▸ mem_cons_self)
    rw [stringToBytes, hlist, flatMap_cons, utf8EncodeChar_ascii hchar] at hmark
    have hbyte := toNat_ascii hchar
    rw [(List.cons.inj hmark).1] at hbyte
    exact absurd hchar (by rw [← hbyte]; decide)
  rw [SignalProtocol.utf8Decode, hloop, String.ofList_toList]
  exact hmark

theorem IsUuid.bytes_ne_nil (hid : IsUuid id) : stringToBytes id ≠ [] := by
  intro hnil
  have hdec := hid.utf8Decode
  rw [hnil] at hdec
  exact hid.ne_empty hdec.symm

end SignalProtocol

namespace SignalProtocol.Proto

open Results

variable {senderKeyId : String} {chainId iteration : ℕ}

def senderKeyWire (senderKeyId : String) (chainId iteration : ℕ) (ciphertext : Bytes) :
    List WireField :=
  [⟨1, .lengthDelimited (stringToBytes senderKeyId)⟩] ++ [⟨2, .varint chainId⟩] ++
    [⟨3, .varint iteration⟩] ++ [⟨4, .lengthDelimited ciphertext⟩]

variable {bytes : Bytes}
  {ciphertext : Bytes}

theorem encodeSenderKeyMessage_encodes (hok : encodeSenderKeyMessage
      ⟨some (stringToBytes senderKeyId), some chainId, iteration, ciphertext⟩ = .ok bytes) :
    Encodes bytes (senderKeyWire senderKeyId chainId iteration ciphertext) := by
  obtain ⟨uuid, huuid, hchainOk⟩ := bind_eq_ok_iff.mp hok
  obtain ⟨chain, hchain, hiterationOk⟩ := bind_eq_ok_iff.mp hchainOk
  obtain ⟨index, hidx, hciphertextOk⟩ := bind_eq_ok_iff.mp hiterationOk
  obtain ⟨payload, hpayload, hbytes⟩ := bind_eq_ok_iff.mp hciphertextOk
  cases hbytes
  exact (((encodeBytesField_encodes (by decide) huuid).append
    (encodeUint32Field_encodes (by decide) hchain)).append
    (encodeUint32Field_encodes (by decide) hidx)).append
    (encodeBytesField_encodes (by decide) hpayload)

theorem decodeSenderKeyMessage_wire (hid : IsUuid senderKeyId)
    (hbytes : Encodes bytes (senderKeyWire senderKeyId chainId iteration ciphertext)) :
    decodeSenderKeyMessage bytes =
      .ok ⟨some (stringToBytes senderKeyId), some chainId, iteration, ciphertext⟩ := by
  have hchain := hbytes.uint32 ⟨2, .varint chainId⟩ (by simp [senderKeyWire]) _ rfl
  have hiteration := hbytes.uint32 ⟨3, .varint iteration⟩ (by simp [senderKeyWire]) _ rfl
  have hread : readMessage senderKeyMessageField {} bytes = .ok
      ⟨some (stringToBytes senderKeyId), some chainId, some iteration, some ciphertext⟩ := by
    refine readMessage_eq_ok_iff.mpr ⟨_, hbytes.canonical, hbytes.bytes_eq, ?_⟩
    simp [senderKeyWire, applyField, senderKeyMessageField, FieldRead.apply, hchain, hiteration]
  have hpresent : (some (stringToBytes senderKeyId)).filter (fun uuid => !uuid.isEmpty) =
      some (stringToBytes senderKeyId) := by
    simp [hid.bytes_ne_nil]
  rw [decodeSenderKeyMessage, hread]
  simp only [ok_bind, requireDecoded, pure_eq_ok, hpresent]

theorem senderKeyVersionByte_version : senderKeyVersionByte.toNat >>> 4 = 4 := by decide

theorem parseSenderKeyMessage_eq_ok_iff {envelope : SenderKeyEnvelope} :
    parseSenderKeyMessage bytes = .ok envelope ↔
      envelope.version = 4 ∧ envelope.signature.length = signatureLen ∧
        envelope.protobufBytes ≠ [] ∧
        bytes = senderKeyVersionByte :: envelope.protobufBytes ++ envelope.signature := by
  rw [parseSenderKeyMessage]
  constructor
  · intro hok
    split at hok
    · cases hok
    rename_i hlong
    cases bytes with
    | nil => exact absurd (by decide) hlong
    | cons version rest =>
      split at hok
      · cases hok
      rename_i hver
      obtain rfl : version = senderKeyVersionByte := not_ne_iff.mp hver
      cases hok
      simp only [signatureLen, length_cons, not_lt] at hlong ⊢
      have hsplit : rest.length + 1 - 64 = (rest.length - 64) + 1 := by omega
      rw [hsplit, List.take_succ_cons, drop_succ_cons, drop_one, List.tail_cons,
        cons_append, List.take_append_drop]
      refine ⟨senderKeyVersionByte_version, by rw [length_drop]; omega, ?_, rfl⟩
      refine ne_nil_of_length_pos ?_
      rw [length_take]
      omega
  · obtain ⟨versionNumber, protobufBytes, signature⟩ := envelope
    rintro ⟨rfl, hsignature, hne, rfl⟩
    simp only at hsignature hne ⊢
    have hpos := length_pos_of_ne_nil hne
    have hhead : (senderKeyVersionByte :: protobufBytes ++ signature).head! =
        senderKeyVersionByte := rfl
    have hlen : (senderKeyVersionByte :: protobufBytes ++ signature).length - signatureLen =
        (senderKeyVersionByte :: protobufBytes).length := by
      rw [length_append]
      omega
    rw [if_neg (by simp only [length_append, length_cons]; omega), hlen,
      List.take_left, drop_left, hhead, if_neg (not_ne_iff.mpr rfl),
      senderKeyVersionByte_version]
    rfl

end SignalProtocol.Proto

namespace SignalProtocol.SenderKeys

open Proto Results SenderKeyManager

variable {ciphertext signature : Bytes}
  {protobufBytes : Bytes} {senderKeyId : String} {chainId iteration : ℕ}

structure CanonicalFrame (senderKeyId : String) (chainId iteration : ℕ) (ciphertext signature : Bytes)
    (framed : Bytes) : Prop where
  exists_proto : ∃ protobufBytes,
    Encodes protobufBytes (senderKeyWire senderKeyId chainId iteration ciphertext) ∧
      framed = senderKeyVersionByte :: protobufBytes ++ signature
  signature_length : signature.length = signatureLen

theorem parseGroupMessage_canonical {framed : Bytes} (hid : IsUuid senderKeyId)
    (hframe : CanonicalFrame senderKeyId chainId iteration ciphertext signature framed) :
    parseGroupMessage framed = .ok ⟨senderKeyId, iteration, ciphertext, signature⟩ := by
  obtain ⟨protobufBytes, hproto, rfl⟩ := hframe.exists_proto
  have hne : protobufBytes ≠ [] := by
    rw [hproto.bytes_eq]
    exact append_ne_nil_of_left_ne_nil (WireField.bytes_ne_nil _) _
  have hparse : parseSenderKeyMessage (senderKeyVersionByte :: protobufBytes ++ signature) =
      .ok ⟨4, protobufBytes, signature⟩ :=
    parseSenderKeyMessage_eq_ok_iff.mpr ⟨rfl, hframe.signature_length, hne, rfl⟩
  rw [parseGroupMessage, hparse, ok_bind, decodeSenderKeyMessage_wire hid hproto, ok_bind,
    Option.map_some, Option.getD_some, hid.utf8Decode]
  rfl

theorem serializeForSigning_eq_ok_iff {signed : Bytes} (hid : IsUuid senderKeyId) :
    serializeForSigning iteration ciphertext senderKeyId chainId = .ok signed ↔
      ∃ protobufBytes, encodeSenderKeyMessage
          ⟨some (stringToBytes senderKeyId), some chainId, iteration, ciphertext⟩ =
            .ok protobufBytes ∧
        signed = senderKeyVersionByte :: protobufBytes := by
  rw [serializeForSigning, if_neg hid.ne_empty, bind_eq_ok_iff]
  refine exists_congr fun protobufBytes => and_congr_right fun _ => ?_
  rw [pure_eq_ok, Except.ok.injEq]
  exact eq_comm

variable {manager : SenderKeyManager} {address : SenderKeyAddress}
  {store next : SenderKeyStore} {framed plaintextBytes : Bytes}

def ciphertextOf (manager : SenderKeyManager) (state : SenderKeyState) (plaintextBytes : Bytes) :
    Bytes :=
  let messageKey := manager.deriveMessageKey state.chainKey
  manager.crypto.aesCbcEncrypt messageKey.cipherKey messageKey.iv plaintextBytes

theorem assertSenderKeyVersion_eq_ok_iff {senderKeyVersion : String} :
    assertSenderKeyVersion senderKeyVersion = .ok () ↔ senderKeyVersion = senderKeyFormat := by
  rw [assertSenderKeyVersion]
  split <;> simp_all

theorem frameSenderKeyMessage_eq_ok_iff :
    frameSenderKeyMessage protobufBytes signature = .ok framed ↔
      signature.length = signatureLen ∧
        framed = senderKeyVersionByte :: protobufBytes ++ signature := by
  rw [frameSenderKeyMessage]
  split
  · rename_i hlen
    exact ⟨nofun, fun hboth => absurd hboth.1 hlen⟩
  · rename_i hlen
    rw [pure_eq_ok, Except.ok.injEq]
    exact ⟨fun heq => ⟨not_ne_iff.mp hlen, heq.symm⟩, fun hboth => hboth.2.symm⟩

theorem encryptGroupMessage_eq_ok {now : ℕ}
    (hok : manager.encryptGroupMessage address plaintextBytes now store = .ok framed next) :
    ∃ state protobufBytes, store.getSenderKey address = some state ∧
      manager.assertUsable state now = .ok () ∧
      encodeSenderKeyMessage ⟨some (stringToBytes state.senderKeyId), some state.chainId,
        state.chainIndex, ciphertextOf manager state plaintextBytes⟩ = .ok protobufBytes ∧
      frameSenderKeyMessage protobufBytes
        (manager.crypto.sign state.signatureKey (senderKeyVersionByte :: protobufBytes)) =
          .ok framed ∧
      next = store.storeSenderKey address manager.storage (manager.advance state) := by
  rw [encryptGroupMessage, get_bind] at hok
  cases hstate : store.getSenderKey address with
  | none =>
    rw [hstate] at hok
    cases hok
  | some state =>
    rw [hstate] at hok
    obtain ⟨⟨⟩, -, husableOk⟩ := fromResult_bind_eq_ok_iff.mp hok
    obtain ⟨⟨⟩, husable, hencodeOk⟩ := fromResult_bind_eq_ok_iff.mp husableOk
    obtain ⟨protobufBytes, henc, hstored⟩ := fromResult_bind_eq_ok_iff.mp hencodeOk
    rw [modify_bind] at hstored
    obtain ⟨hframe, rfl⟩ := fromResult_eq_ok_iff.mp hstored
    exact ⟨state, protobufBytes, rfl, husable, henc, hframe, rfl⟩

theorem canonicalFrame_of_framed {state : SenderKeyState}
    (henc : encodeSenderKeyMessage ⟨some (stringToBytes state.senderKeyId), some state.chainId,
      state.chainIndex, ciphertext⟩ = .ok protobufBytes)
    (hframe : frameSenderKeyMessage protobufBytes signature = .ok framed) :
    CanonicalFrame state.senderKeyId state.chainId state.chainIndex ciphertext signature framed := by
  obtain ⟨hlen, hframed⟩ := frameSenderKeyMessage_eq_ok_iff.mp hframe
  exact ⟨⟨protobufBytes, encodeSenderKeyMessage_encodes henc, hframed⟩, hlen⟩

end SignalProtocol.SenderKeys

import Mathlib.Tactic.Ring
import SignalProtocol.Spqr.Ratchet

/-! # Round trip of the SPQR wire format -/

namespace SignalProtocol.Spqr

open Braid Results List Option

variable {type : MessageType} {msg : SPQRWireMessage} {low result shift value : ℕ} {data : Bytes}
  {bytesLeft index : ℕ} (payload : String)
  (total : ℕ)

theorem low_seven_bits (value : ℕ) : value &&& 0x7f = value % 2 ^ 7 :=
  Nat.and_two_pow_sub_one_eq_mod value 7

theorem continuation_byte (hlow : low < 2 ^ 7) :
    (UInt8.ofNat (low ||| 0x80)).toNat = 2 ^ 7 + low := by
  have hor : low ||| 0x80 = 2 ^ 7 + low := by
    rw [Nat.or_comm]
    exact (Nat.two_pow_add_eq_or_of_lt hlow 1).symm
  rw [hor, UInt8.toNat_ofNat']
  omega

theorem continuation_flag (hlow : low < 2 ^ 7) : (2 ^ 7 + low) &&& 0x80 ≠ 0 := by
  have hall : ∀ low < 2 ^ 7, (2 ^ 7 + low) &&& 0x80 ≠ 0 := by decide
  exact hall low hlow

theorem final_flag (hlow : low < 2 ^ 7) : low &&& 0x80 = 0 := by
  have hall : ∀ low < 2 ^ 7, low &&& 0x80 = 0 := by decide
  exact hall low hlow

theorem or_shiftLeft (value : ℕ) (hres : result < 2 ^ shift) :
    result ||| value <<< shift = result + value * 2 ^ shift := by
  rw [Nat.or_comm, Nat.shiftLeft_eq, Nat.mul_comm, ← Nat.two_pow_add_eq_or_of_lt hres,
    Nat.add_comm, Nat.mul_comm]

theorem decodeVarintLoop_last (rest : Bytes) (hpos : 0 < bytesLeft) (hval : value < 2 ^ 7)
    (hres : result < 2 ^ shift) (hmax : result + value * 2 ^ shift ≤ maxUint64) :
    decodeVarintLoop bytesLeft shift result (UInt8.ofNat value :: rest) =
      .ok (result + value * 2 ^ shift, rest) := by
  obtain ⟨bytesLeft, rfl⟩ := Nat.exists_eq_add_of_le' hpos
  have hbyte : (UInt8.ofNat value).toNat = value := by
    rw [UInt8.toNat_ofNat']
    omega
  simp only [decodeVarintLoop]
  rw [hbyte, final_flag hval, if_pos rfl, low_seven_bits, Nat.mod_eq_of_lt hval,
    or_shiftLeft _ hres, if_neg (by omega)]
  rfl

/-- The decoder reads back the bytes of the encoder's loop; the induction is on the bound of the
encoder's continuation bytes. -/
theorem decodeVarintLoop_varintBytes {continuations : ℕ} (rest : Bytes)
    (hbytes : continuations < bytesLeft) (hval : value < 2 ^ (7 * (continuations + 1)))
    (hres : result < 2 ^ shift) (hmax : result + value * 2 ^ shift ≤ maxUint64) :
    decodeVarintLoop bytesLeft shift result (varintBytes continuations value ++ rest) =
      .ok (result + value * 2 ^ shift, rest) := by
  induction continuations generalizing bytesLeft shift result value with
  | zero => exact decodeVarintLoop_last rest hbytes hval hres hmax
  | succ continuations ih =>
    obtain ⟨bytesLeft, rfl⟩ := Nat.exists_eq_add_of_le' (Nat.zero_lt_of_lt hbytes)
    by_cases hlarge : 0x80 ≤ value
    · have hlow : value % 2 ^ 7 < 2 ^ 7 := Nat.mod_lt _ (by norm_num)
      have hbyte : (UInt8.ofNat (value &&& 0x7f ||| 0x80)).toNat = 2 ^ 7 + value % 2 ^ 7 := by
        rw [low_seven_bits, continuation_byte hlow]
      have hpow : 2 ^ (shift + 7) = 2 ^ 7 * 2 ^ shift := by rw [pow_add, Nat.mul_comm]
      have hsplit : result + value % 2 ^ 7 * 2 ^ shift + value / 2 ^ 7 * 2 ^ (shift + 7) =
          result + value * 2 ^ shift := by
        conv_rhs => rw [← Nat.mod_add_div value (2 ^ 7)]
        rw [hpow]
        ring
      have hnext : result + value % 2 ^ 7 * 2 ^ shift < 2 ^ (shift + 7) := by
        calc result + value % 2 ^ 7 * 2 ^ shift
            < 2 ^ shift + value % 2 ^ 7 * 2 ^ shift := by omega
          _ = (value % 2 ^ 7 + 1) * 2 ^ shift := by ring
          _ ≤ 2 ^ 7 * 2 ^ shift := Nat.mul_le_mul_right _ hlow
          _ = 2 ^ (shift + 7) := hpow.symm
      have hrest : value / 2 ^ 7 < 2 ^ (7 * (continuations + 1)) := by
        rw [Nat.div_lt_iff_lt_mul (by norm_num), ← pow_add]
        exact hval
      simp only [varintBytes, if_pos hlarge, cons_append, decodeVarintLoop]
      rw [hbyte, if_neg (continuation_flag hlow), low_seven_bits, Nat.add_mod_left, Nat.mod_mod,
        or_shiftLeft _ hres, Nat.shiftRight_eq_div_pow,
        ih (by omega) hrest hnext (by rw [hsplit]; exact hmax), hsplit]
    · simp only [varintBytes, if_neg hlarge, cons_append, nil_append]
      exact decodeVarintLoop_last rest (Nat.succ_pos _) (by omega) hres hmax

theorem encodeVarintLEB128_ok (hval : value ≤ maxUint64) :
    encodeVarintLEB128 value = .ok (varintBytes 9 value) := by
  rw [encodeVarintLEB128, assertUint64, if_neg (by omega)]
  rfl

theorem decodeVarintLEB128Bigint_varintBytes (rest : Bytes) (hval : value ≤ maxUint64) :
    decodeVarintLEB128Bigint (varintBytes 9 value ++ rest) = .ok (value, rest) := by
  have hbound : value < 2 ^ (7 * (9 + 1)) := by
    simp only [maxUint64] at hval
    omega
  have hdec : decodeVarintLoop maxVarintU64Bytes 0 0 (varintBytes 9 value ++ rest) =
      .ok (0 + value * 2 ^ 0, rest) :=
    decodeVarintLoop_varintBytes rest (by decide) hbound (by norm_num) (by simpa using hval)
  simpa [decodeVarintLEB128Bigint] using hdec

theorem decodeVarintLEB128_varintBytes (rest : Bytes) (hval : value ≤ maxUint32) :
    decodeVarintLEB128 (varintBytes 9 value ++ rest) = .ok (value, rest) := by
  have hbound : value ≤ maxUint64 := by
    simp only [maxUint32] at hval
    simp only [maxUint64]
    omega
  rw [decodeVarintLEB128, decodeVarintLEB128Bigint_varintBytes rest hbound, ok_bind,
    if_neg (not_lt.mpr hval)]
  rfl

/-! ## Messages -/

inductive EncodablePayload (msg : SPQRWireMessage) : Prop where
  | none (hmode : msg.mode = .none) (htype : msg.braidMsgType = none)
      (hindex : msg.braidChunkIndex = none) (hdata : msg.braidChunkData = none)
      (hciphertext : msg.kyberCiphertext = none) (hpublicKey : msg.kyberPublicKey = none)
  | chunk (type : MessageType) (index : ℕ) (data : Bytes) (hmode : msg.mode = .braid)
      (htype : msg.braidMsgType = some type) (hrequires : braidMessageTypeRequiresChunk type)
      (hindex : msg.braidChunkIndex = some index) (hbound : index ≤ Rs.braidChunkIndexMax)
      (hdata : msg.braidChunkData = some data) (hlength : data.length = braidChunkSize)
      (hciphertext : msg.kyberCiphertext = none) (hpublicKey : msg.kyberPublicKey = none)
  | acknowledgment (hmode : msg.mode = .braid) (htype : msg.braidMsgType = some .ct1Ack)
      (hindex : msg.braidChunkIndex = none) (hdata : msg.braidChunkData = none)
      (hciphertext : msg.kyberCiphertext = none) (hpublicKey : msg.kyberPublicKey = none)
  | direct (hmode : msg.mode = .direct) (htype : msg.braidMsgType = none)
      (hindex : msg.braidChunkIndex = none) (hdata : msg.braidChunkData = none)
      (hciphertext : ∀ ciphertext, msg.kyberCiphertext = some ciphertext →
        ciphertext.length = mlkem768CiphertextSize)
      (hpublicKey : ∀ publicKey, msg.kyberPublicKey = some publicKey →
        publicKey.length = mlkem768PublicKeySize)
      (hsome : msg.kyberCiphertext.isSome ∨ msg.kyberPublicKey.isSome)

structure Encodable (msg : SPQRWireMessage) : Prop where
  epoch : ∃ epoch, msg.epoch = some epoch ∧ 1 ≤ epoch ∧ epoch ≤ maxUint64
  chainIndex : msg.chainIndex.getD 0 ≤ maxUint32
  payload : EncodablePayload msg

def decodedForm (msg : SPQRWireMessage) : SPQRWireMessage :=
  { msg with chainIndex := some (msg.chainIndex.getD 0) }

variable {size : ℕ}

theorem setBytes_whole {bytes : Bytes} (hlen : bytes.length = size) :
    setBytes (List.replicate size 0) 0 bytes = .ok bytes := by
  rw [setBytes, if_neg (by simp [hlen])]
  simp [hlen]

variable {other : ℕ}

theorem setBytes_first {bytes : Bytes} (hlen : bytes.length = size) :
    setBytes (List.replicate (size + other) 0) 0 bytes = .ok (bytes ++ List.replicate other 0) := by
  rw [setBytes, if_neg (by simp [hlen])]
  simp [hlen]

theorem setBytes_second {first second : Bytes} (hfst : first.length = size)
    (hsnd : second.length = other) :
    setBytes (first ++ List.replicate other 0) size second = .ok (first ++ second) := by
  rw [setBytes, if_neg (by simp [hfst, hsnd])]
  simp [hfst, hsnd]

theorem takePayload_ok {bytes : Bytes} (rest : Bytes) (hlen : bytes.length = size) :
    takePayload payload size total (bytes ++ rest) = .ok (bytes, rest) := by
  rw [takePayload, if_neg (by simp [hlen]), List.take_left' hlen, drop_left' hlen]
  rfl

theorem takePayload_all {bytes : Bytes} (hlen : bytes.length = size) :
    takePayload payload size total bytes = .ok (bytes, []) := by
  simpa using takePayload_ok payload total [] hlen

theorem encodeBraidPayload_chunk (htype : msg.braidMsgType = some type)
    (hrequires : braidMessageTypeRequiresChunk type) (hidx : msg.braidChunkIndex = some index)
    (hbound : index ≤ Rs.braidChunkIndexMax) (hdata : msg.braidChunkData = some data)
    (hlen : data.length = braidChunkSize) :
    encodeBraidPayload msg =
      .ok (UInt8.ofNat (messageTypeValue type) :: (varintBytes 9 index ++ data)) := by
  have hsmall : index ≤ maxUint64 := hbound.trans (by decide)
  rw [encodeBraidPayload, htype, hdata, hidx]
  simp only [getD_some, if_pos hrequires, Rs.assertBraidChunkIndex,
    if_neg (not_lt.mpr hbound), encodeVarintLEB128_ok hsmall, assertUint64, hlen]
  rw [if_neg (by omega)]
  rfl

theorem decodeBraidPayload_chunk {total : ℕ} (hrequires : braidMessageTypeRequiresChunk type)
    (hbound : index ≤ Rs.braidChunkIndexMax) (hlen : data.length = braidChunkSize) :
    decodeBraidPayload msg type total (varintBytes 9 index ++ data) = .ok { msg with
      braidMsgType := some type
      braidChunkIndex := some index
      braidChunkData := some data } := by
  have hsmall : index ≤ maxUint32 := hbound.trans (by decide)
  have hnonempty : varintBytes 9 index ++ data ≠ [] := by
    intro hempty
    have hlengths := congrArg List.length hempty
    rw [length_append, hlen] at hlengths
    simp [braidChunkSize] at hlengths
  rw [decodeBraidPayload, if_pos hrequires, if_neg hnonempty,
    decodeVarintLEB128_varintBytes data hsmall, ok_bind, Rs.assertBraidChunkIndex,
    if_neg (not_lt.mpr hbound), pure_eq_ok, ok_bind, takePayload_all _ _ hlen]
  rfl

theorem decodePayload_braid (epoch chainIndex total : ℕ) (rest : Bytes)
    (hrequires : braidMessageTypeRequiresChunk type) :
    decodePayload epoch chainIndex total (UInt8.ofNat (messageTypeValue type)).toNat rest =
      decodeBraidPayload { epoch, chainIndex, mode := .braid } type total rest := by
  cases type <;> first | rfl | cases hrequires

theorem encodeDirectPayload_ok (hcipher : ∀ ciphertext, msg.kyberCiphertext = some ciphertext →
      ciphertext.length = mlkem768CiphertextSize)
    (hpub : ∀ publicKey, msg.kyberPublicKey = some publicKey →
      publicKey.length = mlkem768PublicKeySize)
    (hsome : msg.kyberCiphertext.isSome ∨ msg.kyberPublicKey.isSome) :
    ∃ modeByte rest, encodeDirectPayload msg = .ok (modeByte :: rest) ∧
      ∀ epoch chainIndex total, decodePayload epoch chainIndex total modeByte.toNat rest = .ok {
        epoch
        chainIndex
        mode := .direct
        kyberCiphertext := msg.kyberCiphertext
        kyberPublicKey := msg.kyberPublicKey } := by
  rw [encodeDirectPayload]
  cases hct : msg.kyberCiphertext with
  | none =>
    cases hpk : msg.kyberPublicKey with
    | none => simp [hct, hpk] at hsome
    | some publicKey =>
      have hlen := hpub publicKey hpk
      refine ⟨UInt8.ofNat directPublicKey, publicKey, ?_, ?_⟩
      · simp only [setBytes_whole hlen]
        rfl
      · intro epoch chainIndex total
        change decodeDirectPayload _ directPublicKey total publicKey = _
        rw [decodeDirectPayload, if_neg (by decide), if_pos rfl, takePayload_all _ _ hlen]
        rfl
  | some ciphertext =>
    have hlen := hcipher ciphertext hct
    cases hpk : msg.kyberPublicKey with
    | none =>
      refine ⟨UInt8.ofNat directCiphertext, ciphertext, ?_, ?_⟩
      · simp only [setBytes_whole hlen]
        rfl
      · intro epoch chainIndex total
        change decodeDirectPayload _ directCiphertext total ciphertext = _
        rw [decodeDirectPayload, if_pos rfl, takePayload_all _ _ hlen]
        rfl
    | some publicKey =>
      have hother := hpub publicKey hpk
      refine ⟨UInt8.ofNat directBoth, ciphertext ++ publicKey, ?_, ?_⟩
      · simp only [setBytes_first hlen, setBytes_second hlen hother, ok_bind]
        rfl
      · intro epoch chainIndex total
        change decodeDirectPayload _ directBoth total (ciphertext ++ publicKey) = _
        rw [decodeDirectPayload, if_neg (by decide), if_neg (by decide),
          takePayload_ok _ _ _ hlen, ok_bind, takePayload_all _ _ hother]
        rfl

theorem encodePayload_ok (henc : Encodable msg) :
    ∃ modeByte rest, encodePayload msg = .ok (modeByte :: rest) ∧
      ∀ epoch total, msg.epoch = some epoch →
        decodePayload epoch (msg.chainIndex.getD 0) total modeByte.toNat rest =
          .ok (decodedForm msg) := by
  obtain ⟨epoch, chainIndex, mode, type, index, data, ciphertext, publicKey⟩ := msg
  cases henc.payload with
  | none hmode htype hidx hdata hcipher hpub =>
    cases hmode; cases htype; cases hidx; cases hdata; cases hcipher; cases hpub
    refine ⟨0, [], rfl, ?_⟩
    rintro epoch total ⟨⟩
    rfl
  | chunk type index data hmode htype hrequires hidx hbound hdata hlen hcipher
      hpub =>
      cases hmode; cases htype; cases hidx; cases hdata; cases hcipher; cases hpub
      refine ⟨_, _, encodeBraidPayload_chunk rfl hrequires rfl hbound rfl hlen, ?_⟩
      rintro epoch total ⟨⟩
      rw [decodePayload_braid _ _ _ _ hrequires, decodeBraidPayload_chunk hrequires hbound hlen]
      rfl
  | acknowledgment hmode htype hidx hdata hcipher hpub =>
    cases hmode; cases htype; cases hidx; cases hdata; cases hcipher; cases hpub
    refine ⟨4, [], rfl, ?_⟩
    rintro epoch total ⟨⟩
    rfl
  | direct hmode htype hidx hdata hcipher hpub hsome =>
    cases hmode; cases htype; cases hidx; cases hdata
    obtain ⟨modeByte, rest, hencode, hdec⟩ :=
      encodeDirectPayload_ok hcipher hpub hsome
    refine ⟨modeByte, rest, hencode, ?_⟩
    rintro epoch total ⟨⟩
    exact hdec _ _ _

theorem decodeSPQRWire_encodeSPQRWire (henc : Encodable msg) :
    ∃ bytes, encodeSPQRWire msg = .ok bytes ∧ bytes ≠ [] ∧
      decodeSPQRWire bytes = .ok (decodedForm msg) := by
  obtain ⟨epoch, hepoch, hpos, hmax⟩ := henc.epoch
  have hidx : msg.chainIndex.getD 0 ≤ maxUint64 := henc.chainIndex.trans (by decide)
  obtain ⟨modeByte, rest, hencode, hdec⟩ := encodePayload_ok henc
  have hepochValid : ¬ (epoch < 1 ∨ maxUint64 < epoch) := by omega
  have hindexValid : ¬ (msg.chainIndex.getD 0 < 0 ∨ maxUint32 < msg.chainIndex.getD 0) :=
    not_or.mpr ⟨Nat.not_lt_zero _, not_lt.mpr henc.chainIndex⟩
  refine ⟨_, ?_, cons_ne_nil (UInt8.ofNat versionV1) (varintBytes 9 epoch ++
    varintBytes 9 (msg.chainIndex.getD 0) ++ modeByte :: rest), ?_⟩
  · rw [encodeSPQRWire, hepoch]
    simp only [assertUint64, assertUint32, if_neg hepochValid, if_neg hindexValid,
      encodeVarintLEB128_ok hmax, encodeVarintLEB128_ok hidx, hencode, pure_eq_ok, ok_bind]
    simp
  · simp only [decodeSPQRWire]
    rw [if_neg (by decide), if_neg (by decide), append_assoc,
      decodeVarintLEB128Bigint_varintBytes _ hmax, ok_bind, spqrWireEpochToBigInt, assertUint64,
      if_neg hepochValid, pure_eq_ok, ok_bind, pure_eq_ok, ok_bind,
      decodeVarintLEB128_varintBytes _ henc.chainIndex, ok_bind]
    exact hdec epoch _ hepoch

/-! ## Round trip of the wire messages that the encoder accepts

The decoder returns whole messages only: the fields of one mode, each payload in its fixed size. -/

variable {msg : SPQRWireMessage} {total chainIndex : ℕ} {payload : Bytes} {modeByte : ℕ}

/-- The documented normalization: an absent chain index is zero, and a braid `None` message and a
direct message without a payload are header-only. -/
def normalized (msg : SPQRWireMessage) : SPQRWireMessage :=
  if msg.mode = .braid ∧ msg.braidMsgType.getD .none = .none then
    { decodedForm msg with mode := .none, braidMsgType := none }
  else if msg.mode = .direct ∧ msg.kyberCiphertext = none ∧ msg.kyberPublicKey = none then
    { decodedForm msg with mode := .none }
  else decodedForm msg

def NoBraidFields (msg : SPQRWireMessage) : Prop :=
  msg.braidMsgType = none ∧ msg.braidChunkIndex = none ∧ msg.braidChunkData = none

def NoDirectFields (msg : SPQRWireMessage) : Prop :=
  msg.kyberCiphertext = none ∧ msg.kyberPublicKey = none

/-- No field of another mode, a chunk index exactly with a chunk, and each direct payload in its
fixed size. -/
def Whole (msg : SPQRWireMessage) : Prop :=
  match msg.mode with
  | .none => NoBraidFields msg ∧ NoDirectFields msg
  | .braid => NoDirectFields msg ∧ (msg.braidChunkIndex.isSome ↔ msg.braidChunkData.isSome)
  | .direct => NoBraidFields msg ∧
      (∀ ciphertext, msg.kyberCiphertext = some ciphertext →
        ciphertext.length = mlkem768CiphertextSize) ∧
      ∀ publicKey, msg.kyberPublicKey = some publicKey → publicKey.length = mlkem768PublicKeySize

theorem takePayload_eq_ok {payload : String} {size : ℕ} {rest : Bytes} {result : Bytes × Bytes}
    (hok : takePayload payload size total rest = .ok result) : result.1.length = size := by
  rw [takePayload] at hok
  split at hok
  · cases hok
  · cases hok
    rw [length_take]
    omega

theorem decodeDirectPayload_eq_ok {epoch : ℕ} {rest : Bytes}
    (hok : decodeDirectPayload { epoch, chainIndex, mode := .direct } modeByte total rest =
      .ok msg) :
    msg.epoch = some epoch ∧ msg.chainIndex = some chainIndex ∧ EncodablePayload msg := by
  rw [decodeDirectPayload] at hok
  split at hok
  · obtain ⟨ciphertext, hcipher, hmsg⟩ := bind_eq_ok_iff.mp hok
    cases hmsg
    refine ⟨rfl, rfl, .direct rfl rfl rfl rfl ?_ ?_ (.inl rfl)⟩
    · rintro _ ⟨⟩
      exact takePayload_eq_ok hcipher
    · rintro _ ⟨⟩
  · split at hok
    · obtain ⟨publicKey, hpub, hmsg⟩ := bind_eq_ok_iff.mp hok
      cases hmsg
      refine ⟨rfl, rfl, .direct rfl rfl rfl rfl ?_ ?_ (.inr rfl)⟩
      · rintro _ ⟨⟩
      · rintro _ ⟨⟩
        exact takePayload_eq_ok hpub
    · obtain ⟨ciphertext, hcipher, hrest⟩ := bind_eq_ok_iff.mp hok
      obtain ⟨publicKey, hpub, hmsg⟩ := bind_eq_ok_iff.mp hrest
      cases hmsg
      refine ⟨rfl, rfl, .direct rfl rfl rfl rfl ?_ ?_ (.inl rfl)⟩
      · rintro _ ⟨⟩
        exact takePayload_eq_ok hcipher
      · rintro _ ⟨⟩
        exact takePayload_eq_ok hpub

theorem assertBraidChunkIndex_eq_ok {index : ℕ} {name : String}
    (hok : Rs.assertBraidChunkIndex index name = .ok ()) : index ≤ Rs.braidChunkIndexMax := by
  by_contra hlarge
  rw [Rs.assertBraidChunkIndex, if_pos (not_le.mp hlarge)] at hok
  cases hok

theorem decodeBraidPayload_eq_ok {epoch : ℕ} {type : MessageType} {rest : Bytes}
    (htype : type ≠ .none)
    (hok : decodeBraidPayload { epoch, chainIndex, mode := .braid } type total rest = .ok msg) :
    msg.epoch = some epoch ∧ msg.chainIndex = some chainIndex ∧ EncodablePayload msg := by
  rw [decodeBraidPayload] at hok
  by_cases hrequires : braidMessageTypeRequiresChunk type = true
  · rw [if_pos hrequires] at hok
    split at hok
    · cases hok
    · obtain ⟨index, -, hindexed⟩ := bind_eq_ok_iff.mp hok
      obtain ⟨⟨⟩, hbound, hrest⟩ := bind_eq_ok_iff.mp hindexed
      obtain ⟨chunk, hchunk, hmsg⟩ := bind_eq_ok_iff.mp hrest
      cases hmsg
      exact ⟨rfl, rfl, .chunk type index.1 chunk.1 rfl rfl hrequires rfl
        (assertBraidChunkIndex_eq_ok hbound) rfl (takePayload_eq_ok hchunk) rfl rfl⟩
  · rw [if_neg hrequires] at hok
    cases hok
    have hack : type = .ct1Ack := by
      cases type <;> first | rfl | exact absurd rfl htype | exact absurd rfl hrequires
    exact ⟨rfl, rfl, .acknowledgment rfl (congrArg some hack) rfl rfl rfl rfl⟩

theorem decodePayload_eq_ok {epoch : ℕ} {rest : Bytes}
    (hok : decodePayload epoch chainIndex total modeByte rest = .ok msg) :
    msg.epoch = some epoch ∧ msg.chainIndex = some chainIndex ∧ EncodablePayload msg := by
  rw [decodePayload] at hok
  split at hok
  · exact decodeDirectPayload_eq_ok hok
  · cases htype : messageTypeOfValue modeByte with
    | none => rw [htype] at hok; cases hok
    | some type =>
      rw [htype] at hok
      by_cases hnone : type = .none
      · obtain rfl := hnone
        cases hok
        exact ⟨rfl, rfl, .none rfl rfl rfl rfl rfl rfl⟩
      · have hbraid : decodeBraidPayload { epoch, chainIndex, mode := .braid } type total rest =
            .ok msg := by
          cases type <;> first | exact hok | exact absurd rfl hnone
        exact decodeBraidPayload_eq_ok hnone hbraid

theorem decodeSPQRWire_eq_ok {bytes : Bytes}
    (hok : decodeSPQRWire bytes = .ok msg) : Encodable msg ∧ decodedForm msg = msg := by
  cases bytes with
  | nil => cases hok
  | cons version rest =>
    rw [decodeSPQRWire] at hok
    split at hok
    · cases hok
    · split at hok
      · cases hok
      · obtain ⟨epoch, -, hcheck⟩ := bind_eq_ok_iff.mp hok
        obtain ⟨wireEpoch, hwire, hindexed⟩ := bind_eq_ok_iff.mp hcheck
        obtain ⟨chainIndex, hidx, hrest⟩ := bind_eq_ok_iff.mp hindexed
        have hvalid : 1 ≤ wireEpoch ∧ wireEpoch ≤ maxUint64 := by
          rw [spqrWireEpochToBigInt, assertUint64] at hwire
          split at hwire
          · cases hwire
          · cases hwire
            omega
        have hsmall : chainIndex.1 ≤ maxUint32 := by
          obtain ⟨decoded, -, hdec⟩ := bind_eq_ok_iff.mp hidx
          split at hdec
          · cases hdec
          · cases hdec
            omega
        split at hrest
        · cases hrest
        · obtain ⟨hmsgEpoch, hmsgIndex, hpayload⟩ := decodePayload_eq_ok hrest
          refine ⟨⟨⟨wireEpoch, hmsgEpoch, hvalid⟩, ?_, hpayload⟩, ?_⟩
          · rw [hmsgIndex]
            exact hsmall
          · rw [decodedForm, hmsgIndex, getD_some, ← hmsgIndex]

theorem encodeSPQRWire_eq_ok {bytes : Bytes} (hok : encodeSPQRWire msg = .ok bytes) :
    (∃ epoch, msg.epoch = some epoch ∧ 1 ≤ epoch ∧ epoch ≤ maxUint64) ∧
      msg.chainIndex.getD 0 ≤ maxUint32 ∧ ∃ payload, encodePayload msg = .ok payload := by
  rw [encodeSPQRWire] at hok
  cases hepoch : msg.epoch with
  | none => rw [hepoch] at hok; cases hok
  | some epoch =>
    rw [hepoch] at hok
    obtain ⟨⟨⟩, hvalid, hcheck⟩ := bind_eq_ok_iff.mp hok
    obtain ⟨⟨⟩, hidx, hvarints⟩ := bind_eq_ok_iff.mp hcheck
    obtain ⟨epochBytes, -, hindexed⟩ := bind_eq_ok_iff.mp hvarints
    obtain ⟨indexBytes, -, hrest⟩ := bind_eq_ok_iff.mp hindexed
    obtain ⟨payload, hpayload, -⟩ := bind_eq_ok_iff.mp hrest
    rw [assertUint64] at hvalid
    rw [assertUint32] at hidx
    split at hvalid
    · cases hvalid
    · split at hidx
      · cases hidx
      · exact ⟨⟨epoch, rfl, by omega, by omega⟩, by omega, payload, hpayload⟩

theorem encodeBraidPayload_eq_ok (hok : encodeBraidPayload msg = .ok payload) :
    if braidMessageTypeRequiresChunk (msg.braidMsgType.getD .none) then
      ∃ chunk, msg.braidChunkData = some chunk ∧ chunk.length = braidChunkSize ∧
        msg.braidChunkIndex.getD 0 ≤ Rs.braidChunkIndexMax
    else msg.braidChunkData = none := by
  rw [encodeBraidPayload] at hok
  dsimp only at hok
  split
  · rename_i hrequires
    rw [if_pos hrequires] at hok
    cases hdata : msg.braidChunkData with
    | none => rw [hdata] at hok; cases hok
    | some chunk =>
      rw [hdata] at hok
      obtain ⟨⟨⟩, -, hcheck⟩ := bind_eq_ok_iff.mp hok
      obtain ⟨⟨⟩, hbound, hindexed⟩ := bind_eq_ok_iff.mp hcheck
      obtain ⟨indexBytes, -, hrest⟩ := bind_eq_ok_iff.mp hindexed
      split at hrest
      · cases hrest
      · rename_i hlen
        exact ⟨chunk, rfl, not_not.mp hlen, assertBraidChunkIndex_eq_ok hbound⟩
  · rename_i hrequires
    rw [if_neg hrequires] at hok
    cases hdata : msg.braidChunkData with
    | none => rfl
    | some chunk => rw [hdata] at hok; cases hok

theorem EncodablePayload.whole (hpayload : EncodablePayload msg) : Whole msg := by
  cases hpayload with
  | none hmode htype hidx hdata hcipher hpub =>
    simp [Whole, NoBraidFields, NoDirectFields, *]
  | chunk type index data hmode htype hrequires hidx hbound hdata hlen hcipher
      hpub =>
      simp [Whole, NoDirectFields, *]
  | acknowledgment hmode htype hidx hdata hcipher hpub =>
    simp [Whole, NoDirectFields, *]
  | direct hmode htype hidx hdata hcipher hpub hsome =>
    rw [Whole, hmode]
    exact ⟨⟨htype, hidx, hdata⟩, hcipher, hpub⟩

theorem braidType_cases (hok : encodeBraidPayload msg = .ok payload) :
    msg.braidMsgType.getD .none = .none ∧ msg.braidChunkData = none ∨
    msg.braidMsgType = some .ct1Ack ∧ msg.braidChunkData = none ∨
    ∃ type chunk, msg.braidMsgType = some type ∧ braidMessageTypeRequiresChunk type ∧
      msg.braidChunkData = some chunk ∧ chunk.length = braidChunkSize ∧
      msg.braidChunkIndex.getD 0 ≤ Rs.braidChunkIndexMax := by
  have hchunk := encodeBraidPayload_eq_ok hok
  cases htype : msg.braidMsgType with
  | none =>
    rw [htype] at hchunk
    exact .inl ⟨rfl, hchunk⟩
  | some type =>
    rw [htype, getD_some] at hchunk
    by_cases hrequires : braidMessageTypeRequiresChunk type = true
    · rw [if_pos hrequires] at hchunk
      obtain ⟨chunk, hdata, hlen, hbound⟩ := hchunk
      exact .inr (.inr ⟨type, chunk, rfl, hrequires, hdata, hlen, hbound⟩)
    · rw [if_neg hrequires] at hchunk
      cases type <;> first
        | exact .inl ⟨rfl, hchunk⟩
        | exact .inr (.inl ⟨rfl, hchunk⟩)
        | exact absurd rfl hrequires

theorem normalized_of_whole {bytes : Bytes}
    (hacc : encodeSPQRWire msg = .ok bytes) (hwhole : Whole msg) :
    encodeSPQRWire (normalized msg) = encodeSPQRWire msg ∧ EncodablePayload (normalized msg) := by
  obtain ⟨-, -, payload, hpayload⟩ := encodeSPQRWire_eq_ok hacc
  obtain ⟨epoch, chainIndex, mode, type, index, data, ciphertext, publicKey⟩ := msg
  cases mode with
  | none =>
    obtain ⟨⟨rfl, rfl, rfl⟩, rfl, rfl⟩ := hwhole
    exact ⟨rfl, .none rfl rfl rfl rfl rfl rfl⟩
  | braid =>
    obtain ⟨⟨rfl, rfl⟩, hidx⟩ := hwhole
    rcases braidType_cases hpayload with ⟨htype, rfl⟩ | ⟨rfl, rfl⟩ |
      ⟨type, chunk, rfl, hrequires, rfl, hlen, hbound⟩
    · obtain rfl : index = none := by simpa using hidx
      rw [normalized, if_pos ⟨rfl, htype⟩]
      refine ⟨?_, .none rfl rfl rfl rfl rfl rfl⟩
      dsimp only at htype
      simp only [encodeSPQRWire, decodedForm, encodePayload, encodeBraidPayload, htype]
      rfl
    · obtain rfl : index = none := by simpa using hidx
      exact ⟨rfl, .acknowledgment rfl rfl rfl rfl rfl rfl⟩
    · obtain ⟨index, rfl⟩ := isSome_iff_exists.mp (hidx.mpr rfl)
      have hsome : ¬ (some type).getD MessageType.none = .none := by
        rintro rfl
        cases hrequires
      rw [normalized, if_neg (fun hboth => hsome hboth.2), if_neg (by simp)]
      exact ⟨rfl, .chunk type index chunk rfl rfl hrequires rfl hbound rfl hlen rfl rfl⟩
  | direct =>
    obtain ⟨⟨rfl, rfl, rfl⟩, hcipher, hpub⟩ := hwhole
    rw [normalized, if_neg (by simp)]
    by_cases hnone : ciphertext = none ∧ publicKey = none
    · obtain ⟨rfl, rfl⟩ := hnone
      exact ⟨rfl, .none rfl rfl rfl rfl rfl rfl⟩
    · rw [if_neg (fun hboth => hnone hboth.2)]
      refine ⟨rfl, .direct rfl rfl rfl rfl hcipher hpub ?_⟩
      by_contra hneither
      rw [not_or, not_isSome_iff_eq_none, not_isSome_iff_eq_none] at hneither
      exact hnone hneither

theorem whole_of_normalized {bytes : Bytes} (hacc : encodeSPQRWire msg = .ok bytes)
    (hwhole : Whole (normalized msg)) : Whole msg := by
  obtain ⟨-, -, payload, hpayload⟩ := encodeSPQRWire_eq_ok hacc
  obtain ⟨epoch, chainIndex, mode, type, index, data, ciphertext, publicKey⟩ := msg
  cases mode with
  | none => exact hwhole
  | braid =>
    by_cases htype : type.getD .none = .none
    · rw [normalized, if_pos ⟨rfl, htype⟩] at hwhole
      obtain ⟨⟨-, rfl, rfl⟩, hdirect⟩ := hwhole
      exact ⟨hdirect, Iff.rfl⟩
    · rw [normalized, if_neg (fun hboth => htype hboth.2), if_neg (by simp)] at hwhole
      exact hwhole
  | direct =>
    rw [normalized, if_neg (by simp)] at hwhole
    by_cases hnone : ciphertext = none ∧ publicKey = none
    · obtain ⟨rfl, rfl⟩ := hnone
      rw [if_pos ⟨rfl, rfl, rfl⟩] at hwhole
      exact ⟨hwhole.1, nofun, nofun⟩
    · rw [if_neg (fun hboth => hnone hboth.2)] at hwhole
      exact hwhole

variable (msg : SPQRWireMessage)

theorem normalized_epoch : (normalized msg).epoch = msg.epoch := by
  rw [normalized]
  split
  · rfl
  · split <;> rfl

theorem normalized_chainIndex :
    (normalized msg).chainIndex = some (msg.chainIndex.getD 0) := by
  rw [normalized]
  split
  · rfl
  · split <;> rfl

/-- Round trip: an accepted message decodes to its normalization exactly when it is whole. -/
theorem decodeSPQRWire_eq_normalized_iff {msg : SPQRWireMessage} {bytes : Bytes}
    (haccepted : encodeSPQRWire msg = .ok bytes) :
    decodeSPQRWire bytes = .ok (normalized msg) ↔ Whole msg := by
  constructor
  · intro hdecode
    exact whole_of_normalized haccepted (decodeSPQRWire_eq_ok hdecode).1.payload.whole
  · intro hwhole
    obtain ⟨hsame, hpayload⟩ := normalized_of_whole haccepted hwhole
    obtain ⟨hepoch, hindex, -⟩ := encodeSPQRWire_eq_ok haccepted
    have hencodable : Encodable (normalized msg) := by
      refine ⟨?_, ?_, hpayload⟩
      · rw [normalized_epoch]
        exact hepoch
      · rw [normalized_chainIndex]
        exact hindex
    obtain ⟨bytes', hencode, -, hdecode⟩ := decodeSPQRWire_encodeSPQRWire hencodable
    rw [hsame, haccepted] at hencode
    cases hencode
    rw [hdecode, decodedForm, normalized_chainIndex, getD_some, ← normalized_chainIndex]

/-- A direct message with a whole public key. -/
def publicKeyMessage : SPQRWireMessage where
  epoch := some 1
  mode := .direct
  kyberPublicKey := some (List.replicate mlkem768PublicKeySize 7)

theorem decodeSPQRWire_eq_normalized_iff_publicKey : ∃ bytes,
    encodeSPQRWire publicKeyMessage = .ok bytes ∧
      (decodeSPQRWire bytes = .ok (normalized publicKeyMessage) ↔ Whole publicKeyMessage) := by
  have haccepted : encodeSPQRWire publicKeyMessage = .ok ([1, 1, 0, 0x81] ++
      List.replicate mlkem768PublicKeySize 7) := by
    decide +kernel
  exact ⟨_, haccepted, decodeSPQRWire_eq_normalized_iff haccepted⟩

/-- A direct message whose ciphertext is shorter than its slot. -/
def shortCiphertextMessage : SPQRWireMessage where
  epoch := some 1
  mode := .direct
  kyberCiphertext := some [7]

/-- The encoder accepts a short ciphertext and pads it. -/
theorem shortCiphertextMessage_padded :
    encodeSPQRWire shortCiphertextMessage = .ok ([1, 1, 0, 0x80, 7] ++ List.replicate 1087 0) ∧
      decodeSPQRWire ([1, 1, 0, 0x80, 7] ++ List.replicate 1087 0) ≠
        .ok (normalized shortCiphertextMessage) := by
  decide +kernel

end SignalProtocol.Spqr

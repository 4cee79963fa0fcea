import SignalProtocol.Proof.SpqrWire
import SignalProtocol.Proto.Primitives

/-! # Messages as lists of fields

The reader accepts exactly the canonical encodings of lists of fields, and a decoder folds over
the fields of its message. -/

namespace SignalProtocol.Proto

open Spqr Results List Option

variable {rest' : Bytes} {value bytesRead number : ℕ} {payload : Bytes} {digits rounds : ℕ}
  (continuations : ℕ) (byte : UInt8)
  (field : WireField)

/-! ## Varints -/

theorem varintBytes_of_lt (hval : value < 2 ^ 7) :
    varintBytes continuations value = [UInt8.ofNat value] := by
  cases continuations with
  | zero => rfl
  | succ continuations => exact if_neg (by omega)

theorem varintBytes_of_le (hval : 2 ^ 7 ≤ value) :
    varintBytes (continuations + 1) value =
      UInt8.ofNat ((value &&& 0x7f) ||| 0x80) :: varintBytes continuations (value >>> 7) :=
  if_pos hval

theorem byte_high_bit : byte.toNat &&& 0x80 = 0 ↔ byte.toNat < 2 ^ 7 := by
  constructor
  · intro hflag
    by_contra hlarge
    have hbyte := byte.toNat_lt
    have hsplit : byte.toNat = 2 ^ 7 + (byte.toNat - 2 ^ 7) := by omega
    rw [hsplit] at hflag
    exact continuation_flag (by omega) hflag
  · exact final_flag

theorem byte_eq_zero_iff : byte = 0 ↔ byte.toNat = 0 := by
  rw [← UInt8.toNat_inj]
  rfl

theorem decodeVarint64Loop_cons (rest : Bytes) (hval : value < 2 ^ (7 * bytesRead)) :
    decodeVarint64Loop bytesRead (7 * bytesRead) value (byte :: rest) =
      if bytesRead + 1 = maxVarint64Bytes ∧ 1 < byte.toNat % 2 ^ 7 then
        .error (.error "Varint value exceeds uint64 range")
      else if byte.toNat < 2 ^ 7 then
        if 1 < bytesRead + 1 ∧ byte.toNat = 0 then
          .error (.error "Varint is not canonically encoded")
        else .ok (value + byte.toNat % 2 ^ 7 * 2 ^ (7 * bytesRead), rest)
      else if maxVarint64Bytes ≤ bytesRead + 1 then .error (.error "Varint too long")
      else decodeVarint64Loop (bytesRead + 1) (7 * (bytesRead + 1))
        (value + byte.toNat % 2 ^ 7 * 2 ^ (7 * bytesRead)) rest := by
  rw [decodeVarint64Loop]
  simp only [low_seven_bits, or_shiftLeft _ hval, byte_high_bit, byte_eq_zero_iff]
  rfl

theorem varint_value_lt {digit : ℕ} (hval : value < 2 ^ (7 * bytesRead))
    (hdigit : digit < 2 ^ 7) : value + digit * 2 ^ (7 * bytesRead) < 2 ^ (7 * (bytesRead + 1)) := by
  have hpow : 2 ^ (7 * (bytesRead + 1)) = 2 ^ 7 * 2 ^ (7 * bytesRead) := by ring
  have hle : (digit + 1) * 2 ^ (7 * bytesRead) ≤ 2 ^ 7 * 2 ^ (7 * bytesRead) :=
    Nat.mul_le_mul_right _ hdigit
  rw [hpow]
  calc
    value + digit * 2 ^ (7 * bytesRead) <
        2 ^ (7 * bytesRead) + digit * 2 ^ (7 * bytesRead) := by omega
    _ = (digit + 1) * 2 ^ (7 * bytesRead) := by ring
    _ ≤ 2 ^ 7 * 2 ^ (7 * bytesRead) := hle

theorem varint_digits_sum (bytesRead value digits : ℕ) :
    value + digits % 2 ^ 7 * 2 ^ (7 * bytesRead) + digits / 2 ^ 7 * 2 ^ (7 * (bytesRead + 1)) =
      value + digits * 2 ^ (7 * bytesRead) := by
  have hpow : 2 ^ (7 * (bytesRead + 1)) = 2 ^ 7 * 2 ^ (7 * bytesRead) := by ring
  have hsplit : digits % 2 ^ 7 + digits / 2 ^ 7 * 2 ^ 7 = digits := by omega
  calc
    value + digits % 2 ^ 7 * 2 ^ (7 * bytesRead) + digits / 2 ^ 7 * 2 ^ (7 * (bytesRead + 1)) =
        value + (digits % 2 ^ 7 + digits / 2 ^ 7 * 2 ^ 7) * 2 ^ (7 * bytesRead) := by
      rw [hpow]
      ring
    _ = value + digits * 2 ^ (7 * bytesRead) := by rw [hsplit]

theorem varint_digits_pow (hread : bytesRead + 1 < maxVarint64Bytes) :
    2 ^ (64 - 7 * bytesRead) = 2 ^ (64 - 7 * (bytesRead + 1)) * 2 ^ 7 := by
  simp only [maxVarint64Bytes] at hread
  rw [← pow_add]
  congr 1
  omega

/-- An accepted varint is canonical; the induction is on the bytes. -/
theorem decodeVarint64Loop_sound {bytes rest : Bytes} {result : ℕ}
    (hread : bytesRead < maxVarint64Bytes) (hval : value < 2 ^ (7 * bytesRead))
    (hok : decodeVarint64Loop bytesRead (7 * bytesRead) value bytes = .ok (result, rest)) :
    ∃ digits, digits < 2 ^ (64 - 7 * bytesRead) ∧ (0 < bytesRead → 0 < digits) ∧
      result = value + digits * 2 ^ (7 * bytesRead) ∧
      bytes = varintBytes (maxVarint64Bytes - 1 - bytesRead) digits ++ rest := by
  induction bytes generalizing bytesRead value with
  | nil => cases hok
  | cons byte bytes ih =>
    rw [decodeVarint64Loop_cons byte bytes hval] at hok
    have hbyte := byte.toNat_lt
    by_cases hlarge : bytesRead + 1 = maxVarint64Bytes ∧ 1 < byte.toNat % 2 ^ 7
    · rw [if_pos hlarge] at hok
      cases hok
    rw [if_neg hlarge] at hok
    by_cases hlast : byte.toNat < 2 ^ 7
    · -- The last byte: one digit, not zero after a continuation byte.
      rw [if_pos hlast] at hok
      by_cases hredundant : 1 < bytesRead + 1 ∧ byte.toNat = 0
      · rw [if_pos hredundant] at hok
        cases hok
      rw [if_neg hredundant, Nat.mod_eq_of_lt hlast] at hok
      rw [Nat.mod_eq_of_lt hlast] at hlarge
      cases hok
      refine ⟨byte.toNat, ?_, fun hpos => by omega, rfl, ?_⟩
      · simp only [maxVarint64Bytes] at hread hlarge
        by_cases hnine : bytesRead = 9
        · have hsmall : byte.toNat < 2 := by omega
          rw [hnine]
          exact hsmall
        · calc
            byte.toNat < 2 ^ 7 := hlast
            _ ≤ 2 ^ (64 - 7 * bytesRead) := Nat.pow_le_pow_right (by decide) (by omega)
      · rw [varintBytes_of_lt _ hlast, UInt8.ofNat_toNat]
        rfl
    · rw [if_neg hlast] at hok
      by_cases hlong : maxVarint64Bytes ≤ bytesRead + 1
      · rw [if_pos hlong] at hok
        cases hok
      rw [if_neg hlong] at hok
      obtain ⟨digits, hdigits, hpos, hres, hbytes⟩ := ih (not_le.mp hlong)
        (varint_value_lt hval (Nat.mod_lt _ (by decide))) hok
      have hdigit : byte.toNat % 2 ^ 7 < 2 ^ 7 := Nat.mod_lt _ (by decide)
      have hsplit : 2 ^ 7 + byte.toNat % 2 ^ 7 = byte.toNat := by omega
      have hlow : (byte.toNat % 2 ^ 7 + digits * 2 ^ 7) % 2 ^ 7 = byte.toNat % 2 ^ 7 := by omega
      have hhigh : (byte.toNat % 2 ^ 7 + digits * 2 ^ 7) / 2 ^ 7 = digits := by omega
      have hzero := hpos (Nat.succ_pos _)
      refine ⟨byte.toNat % 2 ^ 7 + digits * 2 ^ 7, ?_, fun _ => by omega, ?_, ?_⟩
      · rw [varint_digits_pow (not_le.mp hlong)]
        omega
      · rw [hres, show 7 * (bytesRead + 1) = 7 + 7 * bytesRead by ring, pow_add]
        ring
      · have hcount : maxVarint64Bytes - 1 - bytesRead =
            maxVarint64Bytes - 1 - (bytesRead + 1) + 1 := by
          simp only [maxVarint64Bytes] at hlong ⊢
          omega
        have hcons : UInt8.ofNat (byte.toNat % 2 ^ 7 ||| 0x80) = byte := by
          rw [← UInt8.toNat_inj, continuation_byte hdigit, hsplit]
        rw [hcount, varintBytes_of_le _ (by omega), low_seven_bits, hlow,
          Nat.shiftRight_eq_div_pow, hhigh, hbytes, hcons]
        rfl

theorem decodeVarint64Loop_last (rest : Bytes) (hval : value < 2 ^ (7 * bytesRead))
    (hsmall : digits < 2 ^ 7) (htenth : bytesRead + 1 = maxVarint64Bytes → digits < 2)
    (hpos : 0 < bytesRead → 0 < digits) :
    decodeVarint64Loop bytesRead (7 * bytesRead) value
        (varintBytes continuations digits ++ rest) =
      .ok (value + digits * 2 ^ (7 * bytesRead), rest) := by
  have hbyte : (UInt8.ofNat digits).toNat = digits := by
    rw [UInt8.toNat_ofNat']
    omega
  rw [varintBytes_of_lt _ hsmall, singleton_append, decodeVarint64Loop_cons _ _ hval,
    hbyte, Nat.mod_eq_of_lt hsmall, if_neg (by omega), if_pos hsmall, if_neg (by omega)]

/-- The reader accepts canonical bytes; the induction is on the encoder's bound. -/
theorem decodeVarint64Loop_complete {continuations : ℕ} (rest : Bytes)
    (hcount : bytesRead + continuations + 1 = maxVarint64Bytes)
    (hval : value < 2 ^ (7 * bytesRead)) (hdigits : digits < 2 ^ (64 - 7 * bytesRead))
    (hpos : 0 < bytesRead → 0 < digits) :
    decodeVarint64Loop bytesRead (7 * bytesRead) value
        (varintBytes continuations digits ++ rest) =
      .ok (value + digits * 2 ^ (7 * bytesRead), rest) := by
  induction continuations generalizing bytesRead value digits with
  | zero =>
    have hnine : bytesRead = 9 := by
      simp only [maxVarint64Bytes] at hcount
      omega
    have htwo : digits < 2 := by
      rw [hnine] at hdigits
      exact hdigits
    exact decodeVarint64Loop_last 0 rest hval (by omega) (fun _ => htwo) hpos
  | succ continuations ih =>
    by_cases hsmall : digits < 2 ^ 7
    · exact decodeVarint64Loop_last _ rest hval hsmall (by omega) hpos
    · have hlow : digits % 2 ^ 7 < 2 ^ 7 := Nat.mod_lt _ (by decide)
      have hhigh : digits / 2 ^ 7 < 2 ^ (64 - 7 * (bytesRead + 1)) := by
        rw [varint_digits_pow (by omega)] at hdigits
        omega
      rw [varintBytes_of_le _ (not_lt.mp hsmall), cons_append, low_seven_bits,
        Nat.shiftRight_eq_div_pow, decodeVarint64Loop_cons _ _ hval, continuation_byte hlow,
        Nat.add_mod_left, Nat.mod_mod, if_neg (by omega), if_neg (by omega), if_neg (by omega),
        ih (by omega) (varint_value_lt hval hlow) hhigh (fun _ => by omega),
        varint_digits_sum]

def varint (value : ℕ) : Bytes := varintBytes (maxVarint64Bytes - 1) value

/-- Varints are canonical: the reader accepts exactly the encodings of 64-bit values. -/
theorem decodeVarint64_eq_ok_iff {bytes rest : Bytes} :
    decodeVarint64 bytes = .ok (value, rest) ↔ value < 2 ^ 64 ∧ bytes = varint value ++ rest := by
  constructor
  · intro hok
    have hread : 0 < maxVarint64Bytes := by decide
    have hzero : 0 < 2 ^ (7 * 0) := by decide
    obtain ⟨digits, hdigits, -, hval, hbytes⟩ := decodeVarint64Loop_sound hread hzero hok
    obtain rfl : value = digits := by simpa using hval
    exact ⟨hdigits, hbytes⟩
  · rintro ⟨hval, rfl⟩
    have hcount : 0 + (maxVarint64Bytes - 1) + 1 = maxVarint64Bytes := by decide
    have hzero : 0 < 2 ^ (7 * 0) := by decide
    have hok := decodeVarint64Loop_complete rest hcount hzero hval
      (fun hpos => absurd hpos (lt_irrefl 0))
    simpa [decodeVarint64, varint] using hok

theorem encodeVarint_eq_ok_iff {bytes : Bytes} :
    encodeVarint value = .ok bytes ↔ value ≤ uint32Max ∧ bytes = varint value := by
  rw [encodeVarint]
  split
  · rename_i hlarge
    exact ⟨nofun, fun hboth => absurd hboth.1 (not_le.mpr hlarge)⟩
  · rename_i hsmall
    rw [pure_eq_ok, Except.ok.injEq]
    exact ⟨fun heq => ⟨not_lt.mp hsmall, heq.symm⟩, fun hboth => hboth.2.symm⟩

theorem varint_ne_nil (value : ℕ) : varint value ≠ [] := by
  rw [varint, maxVarint64Bytes, varintBytes]
  split <;> exact cons_ne_nil _ _

theorem varint_append_inj {first second : ℕ} {rest : Bytes} (hfst : first < 2 ^ 64)
    (hsnd : second < 2 ^ 64) (heq : varint first ++ rest = varint second ++ rest') :
    first = second ∧ rest = rest' := by
  have hdec : decodeVarint64 (varint first ++ rest) = .ok (first, rest) :=
    decodeVarint64_eq_ok_iff.mpr ⟨hfst, rfl⟩
  rw [heq, decodeVarint64_eq_ok_iff.mpr ⟨hsnd, rfl⟩, Except.ok.injEq, Prod.mk.injEq] at hdec
  exact ⟨hdec.1.symm, hdec.2.symm⟩

inductive WireValue where
  | varint (value : ℕ)
  | fixed64 (payload : Bytes)
  | lengthDelimited (payload : Bytes)
  | fixed32 (payload : Bytes)

namespace WireValue

def wireType : WireValue → ℕ
  | .varint _ => wireTypeVarint
  | .fixed64 _ => wireTypeFixed64
  | .lengthDelimited _ => wireTypeLengthDelimited
  | .fixed32 _ => wireTypeFixed32

def bytes : WireValue → Bytes
  | .varint value => Proto.varint value
  | .fixed64 payload => payload
  | .lengthDelimited payload => Proto.varint payload.length ++ payload
  | .fixed32 payload => payload

def Canonical : WireValue → Prop
  | .varint value => value < 2 ^ 64
  | .fixed64 payload => payload.length = 8
  | .lengthDelimited payload => payload.length < 2 ^ 64
  | .fixed32 payload => payload.length = 4

theorem wireType_lt (value : WireValue) : value.wireType < 8 := by
  cases value <;> exact Nat.le_of_ble_eq_true rfl

end WireValue

structure WireField where
  number : ℕ
  value : WireValue

namespace WireField

def bytes (field : WireField) : Bytes :=
  varint (field.number * 8 + field.value.wireType) ++ field.value.bytes

structure Canonical (field : WireField) : Prop where
  number_pos : 0 < field.number
  number_le : field.number ≤ maxFieldNumber
  value : field.value.Canonical

theorem Canonical.tag_lt {field : WireField} (hfield : field.Canonical) :
    field.number * 8 + field.value.wireType < 2 ^ 64 := by
  have hnum := hfield.number_le
  have htype := field.value.wireType_lt
  simp only [maxFieldNumber] at hnum
  omega

end WireField

def Canonical (wire : List WireField) : Prop := ∀ field ∈ wire, field.Canonical

def wireBytes (wire : List WireField) : Bytes := (wire.map WireField.bytes).flatten

@[simp] theorem wireBytes_nil : wireBytes [] = [] := rfl

@[simp] theorem wireBytes_cons (wire : List WireField) :
    wireBytes (field :: wire) = field.bytes ++ wireBytes wire := rfl

@[simp] theorem wireBytes_append (first second : List WireField) :
    wireBytes (first ++ second) = wireBytes first ++ wireBytes second := by
  rw [wireBytes, map_append, flatten_append]
  rfl

theorem WireField.bytes_ne_nil : field.bytes ≠ [] := by
  rw [WireField.bytes]
  exact append_ne_nil_of_left_ne_nil (varint_ne_nil _) _

theorem WireValue.bytes_append_inj {first second : WireValue} {rest : Bytes}
    (hfst : first.Canonical) (hsnd : second.Canonical)
    (htype : first.wireType = second.wireType)
    (heq : first.bytes ++ rest = second.bytes ++ rest') : first = second ∧ rest = rest' := by
  cases first with
  | varint value =>
    cases second with
    | varint value' =>
      obtain ⟨rfl, hrest⟩ := varint_append_inj hfst hsnd heq
      exact ⟨rfl, hrest⟩
    | fixed64 | lengthDelimited | fixed32 => exact absurd htype (Nat.ne_of_beq_eq_false rfl)
  | fixed64 payload =>
    cases second with
    | fixed64 payload' =>
      obtain ⟨rfl, hrest⟩ := append_inj heq (hfst.trans hsnd.symm)
      exact ⟨rfl, hrest⟩
    | varint | lengthDelimited | fixed32 => exact absurd htype (Nat.ne_of_beq_eq_false rfl)
  | lengthDelimited payload =>
    cases second with
    | lengthDelimited payload' =>
      simp only [WireValue.bytes, append_assoc] at heq
      obtain ⟨hlen, hpayload⟩ := varint_append_inj hfst hsnd heq
      obtain ⟨rfl, hrest⟩ := append_inj hpayload hlen
      exact ⟨rfl, hrest⟩
    | varint | fixed64 | fixed32 => exact absurd htype (Nat.ne_of_beq_eq_false rfl)
  | fixed32 payload =>
    cases second with
    | fixed32 payload' =>
      obtain ⟨rfl, hrest⟩ := append_inj heq (hfst.trans hsnd.symm)
      exact ⟨rfl, hrest⟩
    | varint | fixed64 | lengthDelimited => exact absurd htype (Nat.ne_of_beq_eq_false rfl)

theorem WireField.bytes_append_inj {first second : WireField} {rest : Bytes}
    (hfst : first.Canonical) (hsnd : second.Canonical)
    (heq : first.bytes ++ rest = second.bytes ++ rest') : first = second ∧ rest = rest' := by
  obtain ⟨number, value⟩ := first
  obtain ⟨number', value'⟩ := second
  simp only [WireField.bytes, append_assoc] at heq
  obtain ⟨htag, hval⟩ := varint_append_inj hfst.tag_lt hsnd.tag_lt heq
  have htype := value.wireType_lt
  have htype' := value'.wireType_lt
  obtain rfl : number = number' := by
    simp only at htag
    omega
  obtain ⟨rfl, hrest⟩ :=
    WireValue.bytes_append_inj hfst.value hsnd.value (Nat.add_left_cancel htag) hval
  exact ⟨rfl, hrest⟩

theorem wireBytes_prefix {first second : List WireField} {rest : Bytes} (hfst : Canonical first)
    (hsnd : Canonical second) (heq : wireBytes first ++ rest = wireBytes second) :
    ∃ others, second = first ++ others := by
  induction first generalizing second with
  | nil => exact ⟨second, rfl⟩
  | cons field first ih =>
    cases second with
    | nil =>
      refine absurd heq ?_
      simp [WireField.bytes_ne_nil]
    | cons field' second =>
      simp only [wireBytes_cons, append_assoc] at heq
      obtain ⟨rfl, hrest⟩ := WireField.bytes_append_inj (hfst _ mem_cons_self)
        (hsnd _ mem_cons_self) heq
      obtain ⟨others, rfl⟩ := ih (fun other hother => hfst other (mem_cons_of_mem _ hother))
        (fun other hother => hsnd other (mem_cons_of_mem _ hother)) hrest
      exact ⟨others, rfl⟩

/-! ## What the readers accept -/

theorem readTag_eq_ok_iff {bytes rest : Bytes} {tag : FieldTag} :
    readTag bytes = .ok (tag, rest) ↔
      (0 < tag.fieldNumber ∧ tag.fieldNumber ≤ maxFieldNumber ∧ tag.wireType < 8) ∧
        bytes = varint (tag.fieldNumber * 8 + tag.wireType) ++ rest := by
  have hnum (value : ℕ) : value >>> 3 = value / 8 := Nat.shiftRight_eq_div_pow value 3
  have htype (value : ℕ) : value &&& 0x07 = value % 8 := Nat.and_two_pow_sub_one_eq_mod value 3
  simp only [readTag, bind_eq_ok_iff, hnum, htype]
  constructor
  · rintro ⟨⟨value, after⟩, hval, hok⟩
    obtain ⟨-, hbytes⟩ := decodeVarint64_eq_ok_iff.mp hval
    split at hok
    · cases hok
    · rename_i hvalid
      cases hok
      push Not at hvalid
      refine ⟨⟨Nat.pos_of_ne_zero hvalid.1, hvalid.2, Nat.mod_lt _ (by decide)⟩, ?_⟩
      rw [Nat.div_add_mod']
      exact hbytes
  · rintro ⟨⟨hpos, hle, hlt⟩, rfl⟩
    have hdiv : (tag.fieldNumber * 8 + tag.wireType) / 8 = tag.fieldNumber := by omega
    have hmod : (tag.fieldNumber * 8 + tag.wireType) % 8 = tag.wireType := by omega
    have hlarge : tag.fieldNumber * 8 + tag.wireType < 2 ^ 64 := by
      simp only [maxFieldNumber] at hle
      omega
    refine ⟨_, decodeVarint64_eq_ok_iff.mpr ⟨hlarge, rfl⟩, ?_⟩
    simp only [hdiv, hmod]
    exact if_neg (by omega)

theorem readLengthDelimited_eq_ok_iff {bytes rest : Bytes} :
    readLengthDelimited bytes = .ok (payload, rest) ↔
      payload.length < 2 ^ 64 ∧ bytes = varint payload.length ++ (payload ++ rest) := by
  simp only [readLengthDelimited, bind_eq_ok_iff]
  constructor
  · rintro ⟨⟨length, after⟩, hlen, hok⟩
    obtain ⟨hlarge, hbytes⟩ := decodeVarint64_eq_ok_iff.mp hlen
    split at hok
    · cases hok
    · rename_i henough
      cases hok
      have htake : (after.take length).length = length :=
        length_take_of_le (not_lt.mp henough)
      rw [htake, List.take_append_drop]
      exact ⟨hlarge, hbytes⟩
  · rintro ⟨hlarge, rfl⟩
    refine ⟨_, decodeVarint64_eq_ok_iff.mpr ⟨hlarge, rfl⟩, ?_⟩
    simp

theorem advance_eq_ok_iff {count : ℕ} {message : String} {bytes rest : Bytes} :
    advance count message bytes = .ok rest ↔
      ∃ payload : Bytes, payload.length = count ∧ bytes = payload ++ rest := by
  rw [advance]
  constructor
  · intro hok
    split at hok
    · cases hok
    · cases hok
      refine ⟨bytes.take count, ?_, (List.take_append_drop count bytes).symm⟩
      rw [length_take]
      omega
  · rintro ⟨payload, rfl, rfl⟩
    simp

theorem expectWireType_eq_ok_iff {wireType expected : ℕ} :
    expectWireType wireType expected = .ok () ↔ wireType = expected := by
  rw [expectWireType]
  split <;> simp_all

variable {σ : Type}

/-- What a decoder does with a field, when it takes it. -/
def FieldRead.apply (state : σ) : FieldRead σ → WireValue → Option σ
  | .uint32 store, .varint value => if value ≤ uint32Max then some (store state value) else none
  | .bytes store, .lengthDelimited payload => some (store state payload)
  | .skip, _ => some state
  | _, _ => none

variable {bytes : Bytes}

theorem skipField_eq_ok_iff {wireType : ℕ} {rest : Bytes} :
    skipField wireType bytes = .ok rest ↔
      ∃ value : WireValue, value.Canonical ∧ value.wireType = wireType ∧
        bytes = value.bytes ++ rest := by
  rw [skipField]
  constructor
  · intro hok
    split at hok
    · rename_i htype
      obtain ⟨⟨value, after⟩, hval, hrest⟩ := bind_eq_ok_iff.mp hok
      obtain ⟨hlarge, hbytes⟩ := decodeVarint64_eq_ok_iff.mp hval
      cases hrest
      exact ⟨.varint value, hlarge, htype.symm, hbytes⟩
    split at hok
    · rename_i htype
      obtain ⟨payload, hpayload, hbytes⟩ := advance_eq_ok_iff.mp hok
      exact ⟨.fixed64 payload, hpayload, htype.symm, hbytes⟩
    split at hok
    · rename_i htype
      obtain ⟨⟨payload, after⟩, hpayload, hrest⟩ := bind_eq_ok_iff.mp hok
      obtain ⟨hlarge, hbytes⟩ := readLengthDelimited_eq_ok_iff.mp hpayload
      cases hrest
      exact ⟨.lengthDelimited payload, hlarge, htype.symm, by
        rw [hbytes, WireValue.bytes, append_assoc]⟩
    split at hok
    · rename_i htype
      obtain ⟨payload, hpayload, hbytes⟩ := advance_eq_ok_iff.mp hok
      exact ⟨.fixed32 payload, hpayload, htype.symm, hbytes⟩
    · cases hok
  · rintro ⟨value, hval, rfl, rfl⟩
    cases value with
    | varint value =>
      exact bind_eq_ok_iff.mpr ⟨_, decodeVarint64_eq_ok_iff.mpr ⟨hval, rfl⟩, rfl⟩
    | fixed64 payload => exact advance_eq_ok_iff.mpr ⟨payload, hval, rfl⟩
    | lengthDelimited payload =>
      refine bind_eq_ok_iff.mpr ⟨_, readLengthDelimited_eq_ok_iff.mpr ⟨hval, ?_⟩, rfl⟩
      rw [WireValue.bytes, append_assoc]
    | fixed32 payload => exact advance_eq_ok_iff.mpr ⟨payload, hval, rfl⟩

theorem readUint32_eq_ok_iff {wireType : ℕ} {rest : Bytes} :
    readUint32 wireType bytes = .ok (value, rest) ↔
      wireType = wireTypeVarint ∧ value ≤ uint32Max ∧ bytes = varint value ++ rest := by
  simp only [readUint32, bind_eq_ok_iff]
  constructor
  · rintro ⟨⟨⟩, htype, ⟨value', after⟩, hval, hok⟩
    obtain ⟨-, hbytes⟩ := decodeVarint64_eq_ok_iff.mp hval
    split at hok
    · cases hok
    · rename_i hsmall
      cases hok
      exact ⟨expectWireType_eq_ok_iff.mp htype, not_lt.mp hsmall, hbytes⟩
  · rintro ⟨htype, hsmall, rfl⟩
    have hlarge : value < 2 ^ 64 := by
      simp only [uint32Max] at hsmall
      omega
    exact ⟨(), expectWireType_eq_ok_iff.mpr htype, _,
      decodeVarint64_eq_ok_iff.mpr ⟨hlarge, rfl⟩, if_neg (not_lt.mpr hsmall)⟩

theorem readBytes_eq_ok_iff {wireType : ℕ} {rest : Bytes} :
    readBytes wireType bytes = .ok (payload, rest) ↔
      wireType = wireTypeLengthDelimited ∧ payload.length < 2 ^ 64 ∧
        bytes = varint payload.length ++ (payload ++ rest) := by
  simp only [readBytes, bind_eq_ok_iff, readLengthDelimited_eq_ok_iff]
  constructor
  · rintro ⟨⟨⟩, htype, hrest⟩
    exact ⟨expectWireType_eq_ok_iff.mp htype, hrest⟩
  · rintro ⟨htype, hrest⟩
    exact ⟨(), expectWireType_eq_ok_iff.mpr htype, hrest⟩

variable {state : σ}

theorem readField_eq_ok_iff {wireType : ℕ} {next : σ} {rest : Bytes} {read : FieldRead σ} :
    readField wireType state bytes read = .ok (next, rest) ↔
      ∃ value : WireValue, value.Canonical ∧ value.wireType = wireType ∧
        bytes = value.bytes ++ rest ∧ read.apply state value = some next := by
  cases read with
  | uint32 store =>
    simp only [readField, bind_eq_ok_iff]
    constructor
    · rintro ⟨⟨value, after⟩, hval, hok⟩
      obtain ⟨htype, hsmall, hbytes⟩ := readUint32_eq_ok_iff.mp hval
      cases hok
      have hlarge : value < 2 ^ 64 := by
        simp only [uint32Max] at hsmall
        omega
      exact ⟨.varint value, hlarge, htype.symm, hbytes, if_pos hsmall⟩
    · rintro ⟨value, -, rfl, rfl, happly⟩
      cases value with
      | varint value =>
        rw [FieldRead.apply, ite_none_right_eq_some, Option.some.injEq] at happly
        obtain ⟨hsmall, rfl⟩ := happly
        exact ⟨_, readUint32_eq_ok_iff.mpr ⟨rfl, hsmall, rfl⟩, rfl⟩
      | fixed64 | lengthDelimited | fixed32 => cases happly
  | bytes store =>
    simp only [readField, bind_eq_ok_iff]
    constructor
    · rintro ⟨⟨payload, after⟩, hpayload, hok⟩
      obtain ⟨htype, hlarge, hbytes⟩ := readBytes_eq_ok_iff.mp hpayload
      cases hok
      refine ⟨.lengthDelimited payload, hlarge, htype.symm, ?_, rfl⟩
      rw [hbytes, WireValue.bytes, append_assoc]
    · rintro ⟨value, hval, rfl, rfl, happly⟩
      cases value with
      | lengthDelimited payload =>
        cases happly
        refine ⟨_, readBytes_eq_ok_iff.mpr ⟨rfl, hval, ?_⟩, rfl⟩
        rw [WireValue.bytes, append_assoc]
      | varint | fixed64 | fixed32 => cases happly
  | skip =>
    simp only [readField, bind_eq_ok_iff, skipField_eq_ok_iff]
    constructor
    · rintro ⟨after, ⟨value, hval, htype, hbytes⟩, hok⟩
      cases hok
      exact ⟨value, hval, htype, hbytes, rfl⟩
    · rintro ⟨value, hval, htype, hbytes, happly⟩
      cases happly
      exact ⟨rest, ⟨value, hval, htype, hbytes⟩, rfl⟩

def applyField (fields : ℕ → FieldRead σ) (state : σ) (field : WireField) : Option σ :=
  (fields field.number).apply state field.value

variable {fields : ℕ → FieldRead σ}
  {result : σ}

theorem readFields_nil_iff :
    readFields fields rounds state [] = .ok result ↔
      ∃ wire, Canonical wire ∧ [] = wireBytes wire ∧
        wire.foldlM (applyField fields) state = some result := by
  have hread : readFields fields rounds state [] = .ok state := by
    cases rounds <;> rfl
  rw [hread]
  constructor
  · rintro ⟨⟩
    exact ⟨[], nofun, rfl, rfl⟩
  · rintro ⟨wire, -, hbytes, hfold⟩
    cases wire with
    | nil =>
      cases hfold
      rfl
    | cons field wire =>
      refine absurd hbytes.symm ?_
      simp [WireField.bytes_ne_nil]

/-- A message decoder accepts the canonical encodings of the lists of fields it takes; the
induction is on the rounds. -/
theorem readFields_eq_ok_iff (hrounds : bytes.length ≤ rounds) :
    readFields fields rounds state bytes = .ok result ↔
      ∃ wire, Canonical wire ∧ bytes = wireBytes wire ∧
        wire.foldlM (applyField fields) state = some result := by
  induction rounds generalizing state bytes with
  | zero =>
    obtain rfl := eq_nil_of_length_eq_zero (Nat.le_zero.mp hrounds)
    exact readFields_nil_iff
  | succ rounds ih =>
    cases bytes with
    | nil => exact readFields_nil_iff
    | cons byte bytes =>
      rw [readFields, bind_eq_ok_iff]
      constructor
      · rintro ⟨⟨tag, after⟩, htag, hok⟩
        obtain ⟨⟨next, rest⟩, hfield, hrest⟩ := bind_eq_ok_iff.mp hok
        obtain ⟨⟨hpos, hle, -⟩, hbytes⟩ := readTag_eq_ok_iff.mp htag
        obtain ⟨value, hval, htype, rfl, happly⟩ := readField_eq_ok_iff.mp hfield
        have hcons : byte :: bytes = (WireField.mk tag.fieldNumber value).bytes ++ rest := by
          rw [hbytes, WireField.bytes, htype, append_assoc]
        have hshort : rest.length ≤ rounds := by
          have hlen := congrArg List.length hcons
          have hfst := length_pos_of_ne_nil
            (WireField.bytes_ne_nil ⟨tag.fieldNumber, value⟩)
          rw [length_append] at hlen
          omega
        obtain ⟨wire, hwire, rfl, hfold⟩ := (ih hshort).mp hrest
        refine ⟨⟨tag.fieldNumber, value⟩ :: wire, ?_, hcons, ?_⟩
        · exact forall_mem_cons.mpr ⟨⟨hpos, hle, hval⟩, hwire⟩
        · rw [foldlM_cons, applyField, happly]
          exact hfold
      · rintro ⟨wire, hwire, hbytes, hfold⟩
        cases wire with
        | nil => cases hbytes
        | cons field wire =>
          obtain ⟨hfield, hwire⟩ := forall_mem_cons.mp hwire
          have hshort : (wireBytes wire).length ≤ rounds := by
            have hlen := congrArg List.length hbytes
            have hfst := length_pos_of_ne_nil (WireField.bytes_ne_nil field)
            rw [wireBytes_cons, length_append] at hlen
            omega
          rw [foldlM_cons, bind_eq_bind, bind_eq_some_iff] at hfold
          obtain ⟨next, happly, hfold⟩ := hfold
          rw [hbytes, wireBytes_cons, WireField.bytes, append_assoc]
          refine ⟨(⟨field.number, field.value.wireType⟩, field.value.bytes ++ wireBytes wire),
            readTag_eq_ok_iff.mpr
              ⟨⟨hfield.number_pos, hfield.number_le, field.value.wireType_lt⟩, rfl⟩,
            bind_eq_ok_iff.mpr ⟨(next, wireBytes wire),
              readField_eq_ok_iff.mpr ⟨field.value, hfield.value, rfl, rfl, happly⟩,
              (ih hshort).mpr ⟨wire, hwire, rfl, hfold⟩⟩⟩

theorem readMessage_eq_ok_iff :
    readMessage fields state bytes = .ok result ↔
      ∃ wire, Canonical wire ∧ bytes = wireBytes wire ∧
        wire.foldlM (applyField fields) state = some result :=
  readFields_eq_ok_iff le_rfl

def optionalField {α : Type} (number : ℕ) (wire : α → WireValue) : Option α → List WireField
  | some value => [⟨number, wire value⟩]
  | none => []

structure Encodes (bytes : Bytes) (wire : List WireField) : Prop where
  canonical : Canonical wire
  uint32 : ∀ field ∈ wire, ∀ value, field.value = .varint value → value ≤ uint32Max
  bytes_eq : bytes = wireBytes wire

theorem Encodes.append {first second : Bytes} {wire wire' : List WireField}
    (hfst : Encodes first wire) (hsnd : Encodes second wire') :
    Encodes (first ++ second) (wire ++ wire') where
  canonical := fun field hfield =>
    (mem_append.mp hfield).elim (hfst.canonical field) (hsnd.canonical field)
  uint32 := fun field hfield =>
    (mem_append.mp hfield).elim (hfst.uint32 field) (hsnd.uint32 field)
  bytes_eq := by rw [hfst.bytes_eq, hsnd.bytes_eq, wireBytes_append]

theorem encodes_nil : Encodes [] [] := ⟨nofun, nofun, rfl⟩

theorem encodeTag_eq_ok {wireType : ℕ} (htype : wireType < 8)
    (hok : encodeTag number wireType = .ok bytes) : bytes = varint (number * 8 + wireType) := by
  have htag : number <<< 3 ||| wireType = number * 8 + wireType := by
    rw [← Nat.shiftLeft_add_eq_or_of_lt htype number, Nat.shiftLeft_eq]
  rw [encodeTag, encodeVarint_eq_ok_iff, htag] at hok
  exact hok.2

theorem encodeUint32Field_encodes (hnum : 0 < number ∧ number ≤ maxFieldNumber)
    (hok : encodeUint32Field number value = .ok bytes) :
    Encodes bytes [⟨number, .varint value⟩] := by
  obtain ⟨tag, htag, hval⟩ := bind_eq_ok_iff.mp hok
  obtain ⟨encoded, henc, hbytes⟩ := bind_eq_ok_iff.mp hval
  obtain ⟨hsmall, rfl⟩ := encodeVarint_eq_ok_iff.mp henc
  obtain rfl := encodeTag_eq_ok (by decide) htag
  cases hbytes
  have hlarge : value < 2 ^ 64 := lt_of_le_of_lt hsmall (by decide)
  refine ⟨?_, ?_, (append_nil _).symm⟩
  · exact forall_mem_singleton.mpr ⟨hnum.1, hnum.2, hlarge⟩
  · refine forall_mem_singleton.mpr ?_
    rintro _ ⟨⟩
    exact hsmall

theorem encodeBytesField_encodes {data : Bytes} (hnum : 0 < number ∧ number ≤ maxFieldNumber)
    (hok : encodeBytesField number data = .ok bytes) :
    Encodes bytes [⟨number, .lengthDelimited data⟩] := by
  obtain ⟨tag, htag, hlen⟩ := bind_eq_ok_iff.mp hok
  obtain ⟨encoded, henc, hbytes⟩ := bind_eq_ok_iff.mp hlen
  obtain ⟨hsmall, rfl⟩ := encodeVarint_eq_ok_iff.mp henc
  obtain rfl := encodeTag_eq_ok (by decide) htag
  cases hbytes
  have hlarge : data.length < 2 ^ 64 := lt_of_le_of_lt hsmall (by decide)
  refine ⟨?_, forall_mem_singleton.mpr nofun, ?_⟩
  · exact forall_mem_singleton.mpr ⟨hnum.1, hnum.2, hlarge⟩
  · rw [wireBytes_cons, wireBytes_nil, append_nil, append_assoc]
    rfl

theorem encodeOptional_encodes {α : Type} {encode : α → Except ProtocolError Bytes}
    {wire : α → WireValue} {value : Option α}
    (henc : ∀ {value bytes}, encode value = .ok bytes → Encodes bytes [⟨number, wire value⟩])
    (hok : encodeOptional encode value = .ok bytes) :
    Encodes bytes (optionalField number wire value) := by
  cases value with
  | none =>
    cases hok
    exact encodes_nil
  | some value => exact henc hok

/-! ## Canonical varints

The encoder writes one spelling of each 64-bit value, and the decoder accepts no other. -/

variable {value : ℕ}

/-- The loop of the encoder stops within its bound of bytes; the induction is on the bound. -/
theorem encodeVarint64Loop_eq (continuations : ℕ) (hval : value < 2 ^ (7 * (continuations + 1))) :
    encodeVarint64Loop value = varintBytes continuations value := by
  induction continuations generalizing value with
  | zero =>
    rw [encodeVarint64Loop, if_neg (by omega)]
    rfl
  | succ continuations ih =>
    rw [encodeVarint64Loop]
    by_cases hlarge : 2 ^ 7 ≤ value
    · have hshift : value >>> 7 < 2 ^ (7 * (continuations + 1)) := by
        rw [Nat.shiftRight_eq_div_pow]
        apply Nat.div_lt_of_lt_mul
        calc
          value < 2 ^ (7 * (continuations + 1 + 1)) := hval
          _ = 2 ^ 7 * 2 ^ (7 * (continuations + 1)) := by ring
      rw [if_pos (by omega), varintBytes_of_le _ hlarge, ih hshift]
    · rw [if_neg (by omega), varintBytes_of_lt _ (by omega)]

theorem encodeVarint64Loop_eq_varint (hval : value < 2 ^ 64) :
    encodeVarint64Loop value = varint value := by
  have hbound : value < 2 ^ (7 * (9 + 1)) := lt_trans hval (by decide)
  exact encodeVarint64Loop_eq 9 hbound

theorem encodeVarint64_eq_ok_iff {bytes : Bytes} :
    encodeVarint64 value = .ok bytes ↔ value ≤ uint64Max ∧ bytes = varint value := by
  rw [encodeVarint64]
  by_cases hlarge : uint64Max < value
  · rw [if_pos hlarge]
    exact ⟨nofun, fun hboth => absurd hboth.1 (not_le.mpr hlarge)⟩
  · have hval : value < 2 ^ 64 := by
      simp only [uint64Max, not_lt] at hlarge
      omega
    rw [if_neg hlarge, pure_eq_ok, Except.ok.injEq, encodeVarint64Loop_eq_varint hval]
    exact ⟨fun heq => ⟨not_lt.mp hlarge, heq.symm⟩, fun hboth => hboth.2.symm⟩

theorem decodeVarint64At_eq_ok_iff {bytes : Bytes} {offset bytesRead : ℕ} :
    decodeVarint64At bytes offset = .ok (value, bytesRead) ↔
      value < 2 ^ 64 ∧ bytesRead = (varint value).length ∧
        (bytes.drop offset).take bytesRead = varint value := by
  rw [decodeVarint64At, bind_eq_ok_iff]
  constructor
  · rintro ⟨⟨read, rest⟩, hread, heq⟩
    obtain ⟨hval, hbytes⟩ := decodeVarint64_eq_ok_iff.mp hread
    rw [pure_eq_ok, Except.ok.injEq, Prod.mk.injEq] at heq
    obtain ⟨rfl, rfl⟩ := heq
    have hlen : (bytes.drop offset).length - rest.length = (varint read).length := by
      rw [hbytes, length_append, Nat.add_sub_cancel]
    refine ⟨hval, hlen, ?_⟩
    rw [hlen, hbytes, List.take_left]
  · rintro ⟨hval, rfl, htake⟩
    have hbytes : bytes.drop offset =
        varint value ++ (bytes.drop offset).drop (varint value).length := by
      conv_lhs => rw [← List.take_append_drop (varint value).length (bytes.drop offset), htake]
    refine ⟨_, decodeVarint64_eq_ok_iff.mpr ⟨hval, hbytes⟩, ?_⟩
    have hlen := congrArg List.length hbytes
    rw [length_append] at hlen
    rw [pure_eq_ok, Except.ok.injEq, Prod.mk.injEq]
    refine ⟨rfl, ?_⟩
    dsimp only
    omega

/-- Each 64-bit value has one spelling, at any place in the bytes. -/
theorem varints_canonical :
    (∀ value ≤ uint64Max, ∀ before after, ∃ bytes, encodeVarint64 value = .ok bytes ∧
      decodeVarint64At (before ++ bytes ++ after) before.length = .ok (value, bytes.length)) ∧
    (∀ value ≤ uint32Max, encodeVarint value = encodeVarint64 value) ∧
    ∀ bytes offset value bytesRead,
      decodeVarint64At bytes offset = .ok (value, bytesRead) →
        value ≤ uint64Max ∧ offset + bytesRead ≤ bytes.length ∧
          encodeVarint64 value = .ok ((bytes.drop offset).take bytesRead) := by
  refine ⟨?_, ?_, ?_⟩
  · intro value hvalue before after
    refine ⟨varint value, encodeVarint64_eq_ok_iff.mpr ⟨hvalue, rfl⟩,
      decodeVarint64At_eq_ok_iff.mpr ⟨?_, rfl, ?_⟩⟩
    · simp only [uint64Max] at hvalue
      omega
    · rw [append_assoc, drop_left, List.take_left]
  · intro value hvalue
    have hlarge : value ≤ uint64Max := le_trans hvalue (by decide)
    rw [encodeVarint_eq_ok_iff.mpr ⟨hvalue, rfl⟩, encodeVarint64_eq_ok_iff.mpr ⟨hlarge, rfl⟩]
  · intro bytes offset value bytesRead hread
    obtain ⟨hvalue, hlength, htake⟩ := decodeVarint64At_eq_ok_iff.mp hread
    have hle : value ≤ uint64Max := by
      simp only [uint64Max]
      omega
    have htaken := congrArg List.length htake
    rw [← hlength, length_take, length_drop] at htaken
    have hpos : 0 < bytesRead := by
      rw [hlength]
      exact length_pos_iff.mpr (varint_ne_nil value)
    exact ⟨hle, by omega, encodeVarint64_eq_ok_iff.mpr ⟨hle, htake⟩⟩

/-- The largest value, and the spelling of 300 after two other bytes. -/
theorem varints_canonical_spellings :
    (∃ bytes, encodeVarint64 (2 ^ 64 - 1) = .ok bytes ∧
      decodeVarint64At ([1] ++ bytes ++ [2]) 1 = .ok (2 ^ 64 - 1, bytes.length)) ∧
    encodeVarint 300 = encodeVarint64 300 ∧
    encodeVarint64 300 = .ok [0xac, 0x02] :=
  ⟨varints_canonical.1 _ (by decide) [1] [2], varints_canonical.2.1 300 (by decide),
    (varints_canonical.2.2 [9, 9, 0xac, 0x02, 7] 2 300 2 (by decide)).2.2⟩

end SignalProtocol.Proto

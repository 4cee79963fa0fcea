import SignalProtocol.Platform.Text
import SignalProtocol.Proof.SpqrWire

/-! # The base64 codec

The decoder accepts exactly the texts that the encoder writes, up to whitespace. -/

namespace SignalProtocol

open Spqr Results List

variable {isFinalChunk : Bool} {first second third fourth : UInt16} {value padding offset : ℕ}
  {index left : ℕ}

def base64Unit (value : ℕ) : UInt16 := UInt16.ofNat (base64Alphabet.getD value 'A').toNat

section

variable (hval : value < 64)

include hval

theorem base64Unit_facts :
    JsString.ofChar (base64Alphabet.getD value 'A') = [base64Unit value] ∧
      base64Lookup (base64Unit value).toNat = some value ∧ base64Unit value ≠ paddingUnit ∧
      JsString.isWhitespace (base64Unit value) = false ∧
      urlSafeUnit (base64Unit value) ≠ paddingUnit ∧
      standardUnit (urlSafeUnit (base64Unit value)) = base64Unit value := by
  have hall : ∀ index : Fin 64,
      JsString.ofChar (base64Alphabet.getD index 'A') = [base64Unit index] ∧
        base64Lookup (base64Unit index).toNat = some index.val ∧ base64Unit index ≠ paddingUnit ∧
        JsString.isWhitespace (base64Unit index) = false ∧
        urlSafeUnit (base64Unit index) ≠ paddingUnit ∧
        standardUnit (urlSafeUnit (base64Unit index)) = base64Unit index := by
    decide +kernel
  exact hall ⟨value, hval⟩

theorem base64Unit_ne_paddingUnit : base64Unit value ≠ paddingUnit :=
  (base64Unit_facts hval).2.2.1

end

theorem base64Unit_of_lookup {unit : UInt16}
    (hlookup : base64Lookup unit.toNat = some value) : value < 64 ∧ unit = base64Unit value := by
  have hall : ∀ code : Fin 256, (base64Lookup code).all fun found =>
      found < 64 ∧ (base64Unit found).toNat = code := by decide +kernel
  have hcode : unit.toNat < 256 := by
    by_contra hlarge
    rw [base64Lookup, if_neg hlarge] at hlookup
    cases hlookup
  have hfound := hall ⟨unit.toNat, hcode⟩
  rw [hlookup] at hfound
  obtain ⟨hval, hunit⟩ : value < 64 ∧ (base64Unit value).toNat = unit.toNat := by
    simpa using hfound
  exact ⟨hval, UInt16.toNat_inj.mp hunit.symm⟩

theorem decodeBase64Char_eq_ok_iff {unit : UInt16} :
    decodeBase64Char unit index = .ok value ↔ value < 64 ∧ unit = base64Unit value := by
  rw [decodeBase64Char]
  constructor
  · intro hok
    cases hlookup : base64Lookup unit.toNat with
    | none => simp [hlookup] at hok
    | some found =>
      obtain rfl : found = value := by simpa [hlookup] using hok
      exact base64Unit_of_lookup hlookup
  · rintro ⟨hval, rfl⟩
    rw [(base64Unit_facts hval).2.1]
    rfl

/-! ## Chunks -/

def sextetBytes (first second third fourth : ℕ) : Bytes :=
  [UInt8.ofNat (first * 4 + second / 16), UInt8.ofNat (second % 16 * 16 + third / 4),
    UInt8.ofNat (third % 4 * 64 + fourth)]

theorem sextets_value {first second third fourth : ℕ} (hsnd : second < 64) (hthird : third < 64)
    (hfourth : fourth < 64) :
    first <<< 18 ||| second <<< 12 ||| third <<< 6 ||| fourth =
      first * 2 ^ 18 + second * 2 ^ 12 + third * 2 ^ 6 + fourth := by
  have hlow : third <<< 6 ||| fourth = fourth + third * 2 ^ 6 := by
    rw [Nat.or_comm, or_shiftLeft _ (by omega)]
  have hmiddle : second <<< 12 ||| (fourth + third * 2 ^ 6) =
      fourth + third * 2 ^ 6 + second * 2 ^ 12 := by
    rw [Nat.or_comm, or_shiftLeft _ (by omega)]
  rw [Nat.or_assoc, Nat.or_assoc, hlow, hmiddle, Nat.or_comm, or_shiftLeft _ (by omega)]
  ring

theorem chunk_bytes {first second third fourth : ℕ} (hfst : first < 64) (hsnd : second < 64)
    (hthird : third < 64) (hfourth : fourth < 64) :
    let value := first <<< 18 ||| second <<< 12 ||| third <<< 6 ||| fourth
    [UInt8.ofNat (value >>> 16 &&& 0xff), UInt8.ofNat (value >>> 8 &&& 0xff),
      UInt8.ofNat (value &&& 0xff)] = sextetBytes first second third fourth := by
  have hbyte (value : ℕ) : value &&& 0xff = value % 2 ^ 8 := Nat.and_two_pow_sub_one_eq_mod value 8
  have hhigh : (first * 2 ^ 18 + second * 2 ^ 12 + third * 2 ^ 6 + fourth) / 2 ^ 16 % 2 ^ 8 =
      first * 4 + second / 16 := by omega
  have hmiddle : (first * 2 ^ 18 + second * 2 ^ 12 + third * 2 ^ 6 + fourth) / 2 ^ 8 % 2 ^ 8 =
      second % 16 * 16 + third / 4 := by omega
  have hlow : (first * 2 ^ 18 + second * 2 ^ 12 + third * 2 ^ 6 + fourth) % 2 ^ 8 =
      third % 4 * 64 + fourth := by omega
  dsimp only
  rw [sextets_value hsnd hthird hfourth, hbyte, hbyte, hbyte, Nat.shiftRight_eq_div_pow,
    Nat.shiftRight_eq_div_pow, hhigh, hmiddle, hlow, sextetBytes]

theorem decodeBase64Padded_eq_ok_iff {unit : UInt16} :
    decodeBase64Padded unit index = .ok value ↔
      unit = paddingUnit ∧ value = 0 ∨ value < 64 ∧ unit = base64Unit value := by
  rw [decodeBase64Padded]
  by_cases hpad : unit = paddingUnit
  · rw [if_pos hpad, pure_eq_ok, Except.ok.injEq]
    constructor
    · exact fun hzero => .inl ⟨hpad, hzero.symm⟩
    · rintro (⟨-, rfl⟩ | ⟨hval, rfl⟩)
      · rfl
      · exact absurd hpad (base64Unit_ne_paddingUnit hval)
  · rw [if_neg hpad, decodeBase64Char_eq_ok_iff]
    simp [hpad]

theorem base64ChunkBytes_eq_ok_iff {first second third fourth : ℕ} {bytes : Bytes}
    (hfst : first < 64) (hsnd : second < 64) (hthird : third < 64) (hfourth : fourth < 64) :
    base64ChunkBytes padding isFinalChunk first second third fourth = .ok bytes ↔
      (isFinalChunk = true → padding = 2 → second % 16 = 0) ∧
        (isFinalChunk = true → padding = 1 → third % 4 = 0) ∧
          bytes = sextetBytes first second third fourth := by
  have hsixteen : second &&& 0x0f = second % 16 := Nat.and_two_pow_sub_one_eq_mod second 4
  have hfour : third &&& 0x03 = third % 4 := Nat.and_two_pow_sub_one_eq_mod third 2
  have hchunk := chunk_bytes hfst hsnd hthird hfourth
  dsimp only at hchunk
  rw [base64ChunkBytes]
  dsimp only
  rw [hchunk, hsixteen, hfour]
  split
  · rename_i htwo
    simp [htwo]
  · rename_i htwo
    split
    · rename_i hone
      simp [hone]
    · rename_i hone
      have hbits : (isFinalChunk = true → padding = 2 → second % 16 = 0) ∧
          (isFinalChunk = true → padding = 1 → third % 4 = 0) := by
        refine ⟨fun hfinal hpad => ?_, fun hfinal hpad => ?_⟩
        · by_contra hne
          exact htwo ⟨hfinal, hpad, hne⟩
        · by_contra hne
          exact hone ⟨hfinal, hpad, hne⟩
      rw [pure_eq_ok, Except.ok.injEq]
      exact ⟨fun heq => ⟨hbits.1, hbits.2, heq.symm⟩, fun hboth => hboth.2.2.symm⟩

inductive ChunkTail (padding : ℕ) (isFinalChunk : Bool) : (third fourth : UInt16) →
    (thirdValue fourthValue : ℕ) → Prop where
  | whole {third fourth : ℕ} (hthird : third < 64) (hfourth : fourth < 64) :
      ChunkTail padding isFinalChunk (base64Unit third) (base64Unit fourth) third fourth
  | one {third : ℕ} (hthird : third < 64) (hfinal : isFinalChunk = true) (hpadding : padding ≠ 0) :
      ChunkTail padding isFinalChunk (base64Unit third) paddingUnit third 0
  | two (hfinal : isFinalChunk = true) (hpadding : padding = 2) :
      ChunkTail padding isFinalChunk paddingUnit paddingUnit 0 0

theorem ChunkTail.lt {thirdValue fourthValue : ℕ}
    (htail : ChunkTail padding isFinalChunk third fourth thirdValue fourthValue) :
    thirdValue < 64 ∧ fourthValue < 64 := by
  cases htail with
  | whole hthird hfourth => exact ⟨hthird, hfourth⟩
  | one hthird _ _ => exact ⟨hthird, by decide⟩
  | two _ _ => decide

theorem decodeBase64Chunk_eq_ok_iff {bytes : Bytes} :
    decodeBase64Chunk padding offset isFinalChunk first second third fourth = .ok bytes ↔
      ∃ firstValue secondValue thirdValue fourthValue, firstValue < 64 ∧ secondValue < 64 ∧
        first = base64Unit firstValue ∧ second = base64Unit secondValue ∧
          ChunkTail padding isFinalChunk third fourth thirdValue fourthValue ∧
          (isFinalChunk = true → padding = 2 → secondValue % 16 = 0) ∧
          (isFinalChunk = true → padding = 1 → thirdValue % 4 = 0) ∧
          bytes = sextetBytes firstValue secondValue thirdValue fourthValue := by
  rw [decodeBase64Chunk]
  constructor
  · intro hok
    split at hok
    · cases hok
    split at hok
    · cases hok
    split at hok
    · cases hok
    split at hok
    · cases hok
    split at hok
    · cases hok
    rename_i hinner hthirdOnly htwo hone
    obtain ⟨firstValue, hfirstRead, hok⟩ := bind_eq_ok_iff.mp hok
    obtain ⟨secondValue, hsecondRead, hok⟩ := bind_eq_ok_iff.mp hok
    obtain ⟨thirdValue, hthirdRead, hok⟩ := bind_eq_ok_iff.mp hok
    obtain ⟨fourthValue, hfourthRead, hok⟩ := bind_eq_ok_iff.mp hok
    obtain ⟨hfst, hfirstUnit⟩ := decodeBase64Char_eq_ok_iff.mp hfirstRead
    obtain ⟨hsnd, hsecondUnit⟩ := decodeBase64Char_eq_ok_iff.mp hsecondRead
    have htail : ChunkTail padding isFinalChunk third fourth thirdValue fourthValue := by
      have hfinal : third = paddingUnit ∨ fourth = paddingUnit → isFinalChunk = true := by
        intro hpadded
        by_contra hfinal
        exact hinner ⟨hfinal, hpadded⟩
      rcases decodeBase64Padded_eq_ok_iff.mp hthirdRead with ⟨rfl, rfl⟩ | ⟨hthird, rfl⟩
      · obtain rfl : fourth = paddingUnit := by
          by_contra hne
          exact hthirdOnly ⟨rfl, hne⟩
        rcases decodeBase64Padded_eq_ok_iff.mp hfourthRead with ⟨-, rfl⟩ | ⟨hfourth, heq⟩
        · refine .two (hfinal (.inl rfl)) ?_
          by_contra hne
          exact htwo ⟨rfl, hne⟩
        · exact absurd heq.symm (base64Unit_ne_paddingUnit hfourth)
      · rcases decodeBase64Padded_eq_ok_iff.mp hfourthRead with ⟨rfl, rfl⟩ | ⟨hfourth, rfl⟩
        · exact .one hthird (hfinal (.inr rfl)) fun hzero => hone ⟨rfl, hzero⟩
        · exact .whole hthird hfourth
    obtain ⟨hthird, hfourth⟩ := htail.lt
    obtain ⟨htwo, hone, rfl⟩ := (base64ChunkBytes_eq_ok_iff hfst hsnd hthird hfourth).mp hok
    exact ⟨firstValue, secondValue, thirdValue, fourthValue, hfst, hsnd, hfirstUnit,
      hsecondUnit, htail, htwo, hone, rfl⟩
  · rintro ⟨firstValue, secondValue, thirdValue, fourthValue, hfst, hsnd, rfl, rfl, htail,
      htwo, hone, rfl⟩
    have hfirstPadding := base64Unit_ne_paddingUnit hfst
    have hsecondPadding := base64Unit_ne_paddingUnit hsnd
    obtain ⟨hthirdValue, hfourthValue⟩ := htail.lt
    have hbytes : base64ChunkBytes padding isFinalChunk firstValue secondValue thirdValue
        fourthValue = .ok (sextetBytes firstValue secondValue thirdValue fourthValue) :=
      (base64ChunkBytes_eq_ok_iff hfst hsnd hthirdValue hfourthValue).mpr ⟨htwo, hone, rfl⟩
    have hthirdRead : decodeBase64Padded third (offset + 2) = .ok thirdValue := by
      rw [decodeBase64Padded_eq_ok_iff]
      cases htail with
      | whole hthird _ => exact .inr ⟨hthird, rfl⟩
      | one hthird _ _ => exact .inr ⟨hthird, rfl⟩
      | two _ _ => exact .inl ⟨rfl, rfl⟩
    have hfourthRead : decodeBase64Padded fourth (offset + 3) = .ok fourthValue := by
      rw [decodeBase64Padded_eq_ok_iff]
      cases htail with
      | whole _ hfourth => exact .inr ⟨hfourth, rfl⟩
      | one _ _ _ => exact .inl ⟨rfl, rfl⟩
      | two _ _ => exact .inl ⟨rfl, rfl⟩
    have hchecks : ¬ (¬ isFinalChunk = true ∧ (third = paddingUnit ∨ fourth = paddingUnit)) ∧
        ¬ (third = paddingUnit ∧ fourth ≠ paddingUnit) ∧ ¬ (third = paddingUnit ∧ padding ≠ 2) ∧
          ¬ (fourth = paddingUnit ∧ padding = 0) := by
      cases htail with
      | whole hthird hfourth =>
        simp [base64Unit_ne_paddingUnit hthird, base64Unit_ne_paddingUnit hfourth]
      | one hthird hfinal hpad =>
        simp [base64Unit_ne_paddingUnit hthird, hfinal, hpad]
      | two hfinal hpad => simp [hfinal, hpad]
    rw [if_neg (by simp [hfirstPadding, hsecondPadding]), if_neg hchecks.1, if_neg hchecks.2.1,
      if_neg hchecks.2.2.1, if_neg hchecks.2.2.2,
      decodeBase64Char_eq_ok_iff.mpr ⟨hfst, rfl⟩, ok_bind,
      decodeBase64Char_eq_ok_iff.mpr ⟨hsnd, rfl⟩, ok_bind, hthirdRead, ok_bind, hfourthRead,
      ok_bind, hbytes]

def base64Units (bytes : Bytes) : JsString := JsString.ofString (bytesToBase64 bytes)

theorem base64Units_eq (bytes : Bytes) :
    base64Units bytes = JsString.ofChars (base64Chars bytes) := by
  rw [base64Units, JsString.ofString, bytesToBase64, String.toList_ofList]

theorem ofChar_base64Digit (value shift : ℕ) :
    JsString.ofChar (base64Digit value shift) = [base64Unit (value / 2 ^ shift % 64)] := by
  rw [base64Digit, Nat.shiftRight_eq_div_pow]
  exact (base64Unit_facts (Nat.mod_lt _ (by decide))).1

theorem ofChar_padding : JsString.ofChar '=' = [paddingUnit] := by decide

@[simp] theorem base64Units_nil : base64Units [] = [] := by
  rw [base64Units_eq]
  rfl

theorem base64Units_one (first : UInt8) : base64Units [first] =
    [base64Unit (first.toNat / 4), base64Unit (first.toNat % 4 * 16), paddingUnit,
      paddingUnit] := by
  have hfst := first.toNat_lt
  have hhigh : first.toNat <<< 16 / 2 ^ 18 % 64 = first.toNat / 4 := by
    rw [Nat.shiftLeft_eq]
    omega
  have hlow : first.toNat <<< 16 / 2 ^ 12 % 64 = first.toNat % 4 * 16 := by
    rw [Nat.shiftLeft_eq]
    omega
  rw [base64Units_eq, base64Chars, JsString.ofChars]
  simp only [flatMap_cons, flatMap_nil, ofChar_base64Digit, ofChar_padding, hhigh, hlow]
  rfl

theorem base64Units_two (first second : UInt8) : base64Units [first, second] =
    [base64Unit (first.toNat / 4), base64Unit (first.toNat % 4 * 16 + second.toNat / 16),
      base64Unit (second.toNat % 16 * 4), paddingUnit] := by
  have hfst := first.toNat_lt
  have hsnd := second.toNat_lt
  have hval : first.toNat <<< 16 ||| second.toNat <<< 8 =
      first.toNat * 2 ^ 16 + second.toNat * 2 ^ 8 := by
    have hlow : second.toNat <<< 8 < 2 ^ 16 := by
      rw [Nat.shiftLeft_eq]
      omega
    rw [Nat.or_comm, or_shiftLeft _ hlow, Nat.shiftLeft_eq, Nat.add_comm]
  rw [base64Units_eq, base64Chars, hval, JsString.ofChars]
  simp only [flatMap_cons, flatMap_nil, ofChar_base64Digit, ofChar_padding, cons_append, nil_append]
  refine congrArg₂ _ (congrArg _ ?_) (congrArg₂ _ (congrArg _ ?_) (congrArg₂ _ (congrArg _ ?_) rfl))
  · omega
  · omega
  · omega

theorem base64Units_cons (first second third : UInt8) (rest : Bytes) :
    base64Units (first :: second :: third :: rest) =
      base64Unit (first.toNat / 4) :: base64Unit (first.toNat % 4 * 16 + second.toNat / 16) ::
        base64Unit (second.toNat % 16 * 4 + third.toNat / 64) :: base64Unit (third.toNat % 64) ::
          base64Units rest := by
  have hfst := first.toNat_lt
  have hsnd := second.toNat_lt
  have hthird := third.toNat_lt
  have hval : first.toNat <<< 16 ||| second.toNat <<< 8 ||| third.toNat =
      first.toNat * 2 ^ 16 + second.toNat * 2 ^ 8 + third.toNat := by
    have hlow : second.toNat <<< 8 ||| third.toNat = third.toNat + second.toNat * 2 ^ 8 := by
      rw [Nat.or_comm, or_shiftLeft _ hthird]
    rw [Nat.or_assoc, hlow, Nat.or_comm, or_shiftLeft _ (by omega)]
    ring
  rw [base64Units_eq, base64Units_eq, base64Chars, hval, JsString.ofChars]
  simp only [flatMap_cons, ofChar_base64Digit, cons_append, nil_append]
  refine congrArg₂ _ (congrArg _ ?_) (congrArg₂ _ (congrArg _ ?_) (congrArg₂ _ (congrArg _ ?_)
    (congrArg₂ _ (congrArg _ ?_) rfl)))
  · omega
  · omega
  · omega
  · omega

theorem length_base64Units (bytes : Bytes) :
    (base64Units bytes).length = 4 * ((bytes.length + 2) / 3) := by
  induction bytes using base64Chars.induct with
  | case1 => simp
  | case2 first => simp [base64Units_one]
  | case3 first second => simp [base64Units_two]
  | case4 first second third rest ih =>
    rw [base64Units_cons]
    simp only [length_cons, ih]
    omega

theorem base64Padding_cons {rest : JsString} (hrest : 2 ≤ rest.length) :
    base64Padding (first :: second :: third :: fourth :: rest) = base64Padding rest := by
  have hreverse : (first :: second :: third :: fourth :: rest).reverse =
      rest.reverse ++ [fourth, third, second, first] := by simp
  rw [base64Padding, base64Padding, hreverse,
    List.take_append_of_le_length (by simpa using hrest),
    List.take_append_of_le_length (by simpa using le_trans (by decide) hrest)]

theorem base64Padding_chunk (first second third fourth : UInt16) :
    base64Padding [first, second, third, fourth] =
      if fourth = paddingUnit ∧ third = paddingUnit then 2
      else if fourth = paddingUnit then 1 else 0 := by
  simp [base64Padding]

theorem base64Padding_units (bytes : Bytes) :
    base64Padding (base64Units bytes) = (3 - bytes.length % 3) % 3 := by
  induction bytes using base64Chars.induct with
  | case1 =>
    rw [base64Units_nil]
    rfl
  | case2 first =>
    rw [base64Units_one, base64Padding_chunk]
    simp
  | case3 first second =>
    have hunit := base64Unit_ne_paddingUnit (show second.toNat % 16 * 4 < 64 by omega)
    rw [base64Units_two, base64Padding_chunk]
    simp [hunit]
  | case4 first second third rest ih =>
    rw [base64Units_cons]
    cases rest with
    | nil =>
      have hunit := base64Unit_ne_paddingUnit (show third.toNat % 64 < 64 by omega)
      rw [base64Units_nil, base64Padding_chunk]
      simp [hunit]
    | cons fourth rest =>
      have hlen : 2 ≤ (base64Units (fourth :: rest)).length := by
        rw [length_base64Units, length_cons]
        omega
      rw [base64Padding_cons hlen, ih]
      simp only [length_cons]
      omega

/-! ## The decoder -/

theorem base64Units_sextetBytes {first second third fourth : ℕ} (hfst : first < 64)
    (hsnd : second < 64) (hthird : third < 64) (hfourth : fourth < 64) (rest : Bytes) :
    base64Units (sextetBytes first second third fourth ++ rest) =
      base64Unit first :: base64Unit second :: base64Unit third :: base64Unit fourth ::
        base64Units rest := by
  have hbytes (value : ℕ) (hval : value < 256) : (UInt8.ofNat value).toNat = value :=
    UInt8.toNat_ofNat_of_lt' hval
  rw [sextetBytes, cons_append, cons_append, cons_append, nil_append,
    base64Units_cons, hbytes _ (by omega), hbytes _ (by omega), hbytes _ (by omega)]
  refine congrArg₂ _ (congrArg _ ?_) (congrArg₂ _ (congrArg _ ?_) (congrArg₂ _ (congrArg _ ?_)
    (congrArg₂ _ (congrArg _ ?_) rfl)))
  · omega
  · omega
  · omega
  · omega

theorem decodeBase64Chunks_last {bytes : Bytes} :
    decodeBase64Chunks padding offset left [first, second, third, fourth] = .ok bytes ↔
      ∃ chunk, decodeBase64Chunk padding offset true first second third fourth = .ok chunk ∧
        bytes = chunk.take left := by
  rw [decodeBase64Chunks, bind_eq_ok_iff]
  constructor
  · rintro ⟨chunk, hchunk, hok⟩
    refine ⟨chunk, hchunk, ?_⟩
    simpa [decodeBase64Chunks] using hok.symm
  · rintro ⟨chunk, hchunk, rfl⟩
    exact ⟨chunk, hchunk, by simp [decodeBase64Chunks]⟩

theorem lastChunk_sound {bytes : Bytes}
    (hok : decodeBase64Chunks (base64Padding [first, second, third, fourth]) offset
      (3 - base64Padding [first, second, third, fourth]) [first, second, third, fourth] =
        .ok bytes) : [first, second, third, fourth] = base64Units bytes := by
  have hbytes (value : ℕ) (hval : value < 256) : (UInt8.ofNat value).toNat = value :=
    UInt8.toNat_ofNat_of_lt' hval
  obtain ⟨chunk, hchunk, rfl⟩ := decodeBase64Chunks_last.mp hok
  obtain ⟨high, low, third, fourth, hhigh, hlow, rfl, rfl, htail, htwo, hone, rfl⟩ :=
    decodeBase64Chunk_eq_ok_iff.mp hchunk
  rw [base64Padding_chunk] at *
  cases htail with
  | whole hthird hfourth =>
    have hpad := base64Unit_ne_paddingUnit hfourth
    have hunits := base64Units_sextetBytes hhigh hlow hthird hfourth []
    rw [append_nil, base64Units_nil] at hunits
    simp only [hpad, false_and, if_false]
    exact hunits.symm
  | one hthird _ _ =>
    have hpad := base64Unit_ne_paddingUnit hthird
    have hbits : third % 4 = 0 := hone rfl (by simp [hpad])
    simp only [hpad, and_false, if_false, if_true]
    rw [sextetBytes, List.take_succ_cons, List.take_succ_cons, List.take_zero, base64Units_two,
      hbytes _ (by omega), hbytes _ (by omega)]
    refine congrArg₂ _ (congrArg _ ?_) (congrArg₂ _ (congrArg _ ?_)
      (congrArg₂ _ (congrArg _ ?_) rfl))
    · omega
    · omega
    · omega
  | two _ _ =>
    have hbits : low % 16 = 0 := htwo rfl (by simp)
    simp only [and_self, if_true]
    rw [sextetBytes, List.take_succ_cons, List.take_zero, base64Units_one, hbytes _ (by omega)]
    refine congrArg₂ _ (congrArg _ ?_) (congrArg₂ _ (congrArg _ ?_) rfl)
    · omega
    · omega

theorem decodeBase64Chunk_three
    (hpad : isFinalChunk = true → padding = 0) (first second third : UInt8) :
    decodeBase64Chunk padding offset isFinalChunk (base64Unit (first.toNat / 4))
      (base64Unit (first.toNat % 4 * 16 + second.toNat / 16))
      (base64Unit (second.toNat % 16 * 4 + third.toNat / 64)) (base64Unit (third.toNat % 64)) =
        .ok [first, second, third] := by
  have hfst := first.toNat_lt
  have hsnd := second.toNat_lt
  have hthird := third.toNat_lt
  refine decodeBase64Chunk_eq_ok_iff.mpr ⟨_, _, _, _, by omega, by omega, rfl, rfl,
    .whole (by omega) (by omega), fun hfinal htwo => ?_, fun hfinal hone => ?_, ?_⟩
  · rw [hpad hfinal] at htwo
    cases htwo
  · rw [hpad hfinal] at hone
    cases hone
  · have hhigh : first.toNat / 4 * 4 + (first.toNat % 4 * 16 + second.toNat / 16) / 16 =
        first.toNat := by omega
    have hmiddle : (first.toNat % 4 * 16 + second.toNat / 16) % 16 * 16 +
        (second.toNat % 16 * 4 + third.toNat / 64) / 4 = second.toNat := by omega
    have hlow : (second.toNat % 16 * 4 + third.toNat / 64) % 4 * 64 + third.toNat % 64 =
        third.toNat := by omega
    rw [sextetBytes, hhigh, hmiddle, hlow, UInt8.ofNat_toNat, UInt8.ofNat_toNat, UInt8.ofNat_toNat]

theorem lastChunk_complete {bytes : Bytes} (hne : bytes ≠ []) (hlen : bytes.length ≤ 3) :
    decodeBase64Chunks (base64Padding (base64Units bytes)) offset
      (3 - base64Padding (base64Units bytes)) (base64Units bytes) = .ok bytes := by
  rw [base64Padding_units]
  rcases bytes with _ | ⟨first, _ | ⟨second, _ | ⟨third, _ | ⟨fourth, rest⟩⟩⟩⟩
  · exact absurd rfl hne
  · have hfst := first.toNat_lt
    rw [base64Units_one, decodeBase64Chunks_last]
    refine ⟨_, decodeBase64Chunk_eq_ok_iff.mpr ⟨first.toNat / 4, first.toNat % 4 * 16, 0, 0,
      by omega, by omega, rfl, rfl, .two rfl rfl, fun _ _ => by omega, fun _ _ => rfl, rfl⟩, ?_⟩
    have hbyte : first.toNat / 4 * 4 + first.toNat % 4 * 16 / 16 = first.toNat := by omega
    rw [sextetBytes, hbyte, UInt8.ofNat_toNat]
    rfl
  · have hfst := first.toNat_lt
    have hsnd := second.toNat_lt
    rw [base64Units_two, decodeBase64Chunks_last]
    refine ⟨_, decodeBase64Chunk_eq_ok_iff.mpr ⟨first.toNat / 4,
      first.toNat % 4 * 16 + second.toNat / 16, second.toNat % 16 * 4, 0, by omega, by omega, rfl,
      rfl, .one (by omega) rfl (by simp), fun _ hpad => by simp at hpad,
      fun _ _ => by omega, rfl⟩, ?_⟩
    have hhigh : first.toNat / 4 * 4 + (first.toNat % 4 * 16 + second.toNat / 16) / 16 =
        first.toNat := by omega
    have hlow : (first.toNat % 4 * 16 + second.toNat / 16) % 16 * 16 +
        second.toNat % 16 * 4 / 4 = second.toNat := by omega
    rw [sextetBytes, hhigh, hlow, UInt8.ofNat_toNat, UInt8.ofNat_toNat]
    rfl
  · have hpad : (3 - [first, second, third].length % 3) % 3 = 0 := by simp
    rw [hpad, base64Units_cons, base64Units_nil, decodeBase64Chunks_last]
    exact ⟨_, decodeBase64Chunk_three (fun _ => rfl) first second third, rfl⟩
  · simp only [length_cons] at hlen
    omega

variable {units : JsString}

theorem exists_chunk (hlen : 4 ≤ units.length) :
    ∃ first second third fourth rest, units = first :: second :: third :: fourth :: rest := by
  rcases units with _ | ⟨first, _ | ⟨second, _ | ⟨third, _ | ⟨fourth, rest⟩⟩⟩⟩
  · simp at hlen
  · simp at hlen
  · simp at hlen
  · simp at hlen
  · exact ⟨first, second, third, fourth, rest, rfl⟩

theorem base64Padding_le (units : JsString) : base64Padding units ≤ 2 := by
  rw [base64Padding]
  split
  · exact le_rfl
  · split <;> decide

theorem decodeBase64Chunks_cons_eq_ok_iff {rest : JsString} {bytes : Bytes} (hrest : rest ≠ [])
    (hleft : 3 ≤ left) :
    decodeBase64Chunks padding offset left (first :: second :: third :: fourth :: rest) =
        .ok bytes ↔
      ∃ x y z tail, bytes = x :: y :: z :: tail ∧
        [first, second, third, fourth] = base64Units [x, y, z] ∧
          decodeBase64Chunks padding (offset + 4) (left - 3) rest = .ok tail := by
  have hempty : rest.isEmpty = false := isEmpty_eq_false_iff.mpr hrest
  have htake (x y z : UInt8) : [x, y, z].take left = [x, y, z] :=
    List.take_of_length_le (by simpa using hleft)
  rw [decodeBase64Chunks, hempty, bind_eq_ok_iff]
  constructor
  · rintro ⟨chunk, hchunk, hok⟩
    obtain ⟨tail, htail, hbytes⟩ := bind_eq_ok_iff.mp hok
    obtain ⟨high, low, thirdValue, fourthValue, hhigh, hlow, rfl, rfl, hvals, -, -, rfl⟩ :=
      decodeBase64Chunk_eq_ok_iff.mp hchunk
    cases hvals with
    | whole hthird hfourth =>
      have hunits := base64Units_sextetBytes hhigh hlow hthird hfourth []
      rw [append_nil, base64Units_nil] at hunits
      obtain rfl := Except.ok.inj hbytes
      rw [sextetBytes] at hunits ⊢
      exact ⟨_, _, _, tail, by rw [htake]; rfl, hunits.symm, htail⟩
    | one _ hfinal _ => cases hfinal
    | two hfinal _ => cases hfinal
  · rintro ⟨x, y, z, tail, rfl, hunits, htail⟩
    rw [base64Units_cons, base64Units_nil] at hunits
    simp only [List.cons.injEq, and_true] at hunits
    obtain ⟨rfl, rfl, rfl, rfl⟩ := hunits
    refine ⟨[x, y, z], decodeBase64Chunk_three (fun hfinal => by cases hfinal) x y z, ?_⟩
    rw [htail, ok_bind, htake]
    rfl

/-- The induction is on the chunks; the last one decides the padding. -/
theorem decodeBase64Chunks_eq_ok_iff (chunks : ℕ) {bytes : Bytes}
    (hlen : units.length = 4 * (chunks + 1)) :
    decodeBase64Chunks (base64Padding units) offset
        (3 * (chunks + 1) - base64Padding units) units = .ok bytes ↔
      units = base64Units bytes := by
  obtain ⟨first, second, third, fourth, rest, rfl⟩ := exists_chunk (show 4 ≤ units.length by omega)
  induction chunks generalizing offset first second third fourth rest bytes with
  | zero =>
    have hrest : rest = [] := by
      apply eq_nil_of_length_eq_zero
      simp only [length_cons] at hlen
      omega
    subst hrest
    refine ⟨fun hok => lastChunk_sound hok, fun hunits => ?_⟩
    have hcount := congrArg List.length hunits
    rw [length_base64Units, hlen] at hcount
    have hne : bytes ≠ [] := by
      rintro rfl
      simp at hcount
    rw [hunits]
    exact lastChunk_complete hne (by omega)
  | succ chunks ih =>
    have hrest : rest.length = 4 * (chunks + 1) := by
      simp only [length_cons] at hlen
      omega
    have hne : rest ≠ [] := by
      rintro rfl
      simp at hrest
    have hpad : base64Padding (first :: second :: third :: fourth :: rest) =
        base64Padding rest := base64Padding_cons (by omega)
    have hsmall := base64Padding_le rest
    have hleft : 3 * (chunks + 1 + 1) - base64Padding rest - 3 =
        3 * (chunks + 1) - base64Padding rest := by omega
    obtain ⟨next, second', third', fourth', later, rfl⟩ :=
      exists_chunk (show 4 ≤ rest.length by omega)
    rw [hpad, decodeBase64Chunks_cons_eq_ok_iff hne (by omega), hleft]
    constructor
    · rintro ⟨x, y, z, tail, rfl, hunits, htail⟩
      rw [ih _ _ _ _ _ hrest] at htail
      rw [base64Units_cons, base64Units_nil] at hunits
      simp only [List.cons.injEq, and_true] at hunits
      rw [base64Units_cons, ← htail, hunits.1, hunits.2.1, hunits.2.2.1, hunits.2.2.2]
    · intro hunits
      obtain ⟨x, y, z, tail, rfl⟩ : ∃ x y z tail, bytes = x :: y :: z :: tail := by
        have hcount := congrArg List.length hunits
        rw [length_base64Units, hlen] at hcount
        rcases bytes with _ | ⟨x, _ | ⟨y, _ | ⟨z, tail⟩⟩⟩
        · simp at hcount
        · simp at hcount
        · simp at hcount
        · exact ⟨x, y, z, tail, rfl⟩
      rw [base64Units_cons] at hunits
      simp only [List.cons.injEq] at hunits
      refine ⟨x, y, z, tail, rfl, ?_, (ih _ _ _ _ _ hrest).mpr (by simpa using hunits.2.2.2.2)⟩
      rw [base64Units_cons, base64Units_nil, hunits.1, hunits.2.1, hunits.2.2.1, hunits.2.2.2.1]

theorem base64ToBytes_eq_ok_iff {base64 : JsString} {bytes : Bytes} :
    base64ToBytes base64 = .ok bytes ↔ normalizeBase64 base64 = base64Units bytes := by
  rw [base64ToBytes]
  by_cases hempty : normalizeBase64 base64 = []
  · rw [if_pos hempty, hempty, pure_eq_ok, Except.ok.injEq]
    constructor
    · rintro rfl
      exact base64Units_nil.symm
    · intro hunits
      have hlen := length_base64Units bytes
      rw [← hunits, length_nil] at hlen
      exact (eq_nil_of_length_eq_zero (by omega)).symm
  · rw [if_neg hempty]
    by_cases hmultiple : (normalizeBase64 base64).length % 4 = 0
    · obtain ⟨count, hcount⟩ : ∃ count, (normalizeBase64 base64).length = 4 * (count + 1) := by
        have hpos := length_pos_iff.mpr hempty
        exact ⟨(normalizeBase64 base64).length / 4 - 1, by omega⟩
      have hleft : (normalizeBase64 base64).length / 4 * 3 = 3 * (count + 1) := by omega
      rw [if_neg (not_not.mpr hmultiple), hleft]
      exact decodeBase64Chunks_eq_ok_iff count hcount
    · rw [if_pos hmultiple, throw_eq_error]
      refine ⟨nofun, fun hunits => absurd ?_ hmultiple⟩
      rw [hunits, length_base64Units, Nat.mul_mod_right]

theorem mem_base64Units {bytes : Bytes} {unit : UInt16} (hmem : unit ∈ base64Units bytes) :
    (∃ value < 64, unit = base64Unit value) ∨ unit = paddingUnit := by
  induction bytes using base64Chars.induct with
  | case1 => simp at hmem
  | case2 first =>
    have hfst := first.toNat_lt
    rw [base64Units_one] at hmem
    simp only [mem_cons, not_mem_nil, or_false] at hmem
    rcases hmem with rfl | rfl | rfl | rfl
    · exact .inl ⟨_, by omega, rfl⟩
    · exact .inl ⟨_, by omega, rfl⟩
    · exact .inr rfl
    · exact .inr rfl
  | case3 first second =>
    have hfst := first.toNat_lt
    have hsnd := second.toNat_lt
    rw [base64Units_two] at hmem
    simp only [mem_cons, not_mem_nil, or_false] at hmem
    rcases hmem with rfl | rfl | rfl | rfl
    · exact .inl ⟨_, by omega, rfl⟩
    · exact .inl ⟨_, by omega, rfl⟩
    · exact .inl ⟨_, by omega, rfl⟩
    · exact .inr rfl
  | case4 first second third rest ih =>
    have hfst := first.toNat_lt
    have hsnd := second.toNat_lt
    have hthird := third.toNat_lt
    rw [base64Units_cons] at hmem
    simp only [mem_cons] at hmem
    rcases hmem with rfl | rfl | rfl | rfl | hmem
    · exact .inl ⟨_, by omega, rfl⟩
    · exact .inl ⟨_, by omega, rfl⟩
    · exact .inl ⟨_, by omega, rfl⟩
    · exact .inl ⟨_, by omega, rfl⟩
    · exact ih hmem

theorem normalizeBase64_base64Units (bytes : Bytes) :
    normalizeBase64 (base64Units bytes) = base64Units bytes := by
  rw [normalizeBase64, filter_eq_self]
  intro unit hmem
  rcases mem_base64Units hmem with ⟨value, hval, rfl⟩ | rfl
  · rw [(base64Unit_facts hval).2.2.2.1]
    rfl
  · decide

def base64Sextets : Bytes → List ℕ
  | [] => []
  | [first] => [first.toNat / 4, first.toNat % 4 * 16]
  | [first, second] =>
    [first.toNat / 4, first.toNat % 4 * 16 + second.toNat / 16, second.toNat % 16 * 4]
  | first :: second :: third :: rest =>
    first.toNat / 4 :: (first.toNat % 4 * 16 + second.toNat / 16) ::
      (second.toNat % 16 * 4 + third.toNat / 64) :: third.toNat % 64 :: base64Sextets rest

theorem base64Sextets_lt (bytes : Bytes) : ∀ value ∈ base64Sextets bytes, value < 64 := by
  induction bytes using base64Chars.induct with
  | case1 => simp [base64Sextets]
  | case2 first =>
    have hfst := first.toNat_lt
    simp only [base64Sextets, forall_mem_cons]
    exact ⟨by omega, by omega, by simp⟩
  | case3 first second =>
    have hfst := first.toNat_lt
    have hsnd := second.toNat_lt
    simp only [base64Sextets, forall_mem_cons]
    exact ⟨by omega, by omega, by omega, by simp⟩
  | case4 first second third rest ih =>
    have hfst := first.toNat_lt
    have hsnd := second.toNat_lt
    have hthird := third.toNat_lt
    simp only [base64Sextets, forall_mem_cons]
    exact ⟨by omega, by omega, by omega, by omega, ih⟩

theorem base64Units_eq_append (bytes : Bytes) :
    base64Units bytes = (base64Sextets bytes).map base64Unit ++
      List.replicate ((3 - bytes.length % 3) % 3) paddingUnit := by
  induction bytes using base64Chars.induct with
  | case1 => simp [base64Sextets]
  | case2 first => simp [base64Units_one, base64Sextets, List.replicate]
  | case3 first second => simp [base64Units_two, base64Sextets]
  | case4 first second third rest ih =>
    have hmod : (rest.length + 1 + 1 + 1) % 3 = rest.length % 3 := by omega
    rw [base64Units_cons, ih, base64Sextets]
    simp only [map_cons, cons_append, length_cons, hmod]

theorem length_base64Sextets (bytes : Bytes) :
    (base64Sextets bytes).length = 4 * ((bytes.length + 2) / 3) - (3 - bytes.length % 3) % 3 := by
  have hlen := length_base64Units bytes
  rw [base64Units_eq_append, length_append, length_map, length_replicate] at hlen
  omega

theorem stripBase64Padding_append (hunits : ∀ unit ∈ units, unit ≠ paddingUnit)
    (count : ℕ) : stripBase64Padding (units ++ List.replicate count paddingUnit) = units := by
  have hdrop : (List.replicate count paddingUnit ++ units.reverse).dropWhile
      (· = paddingUnit) = units.reverse.dropWhile (· = paddingUnit) :=
    dropWhile_append_of_pos fun unit hmem => by simpa using eq_of_mem_replicate hmem
  have hkeep : units.reverse.dropWhile (· = paddingUnit) = units.reverse := by
    cases hreverse : units.reverse with
    | nil => rfl
    | cons unit rest =>
      have hmem : unit ∈ units := by
        rw [← mem_reverse, hreverse]
        exact mem_cons_self
      rw [dropWhile_cons, if_neg (by simpa using hunits unit hmem)]
  rw [stripBase64Padding, reverse_append, reverse_replicate, hdrop, hkeep, reverse_reverse]

theorem base64ToUrlSafe_base64Units (bytes : Bytes) :
    base64ToUrlSafe (base64Units bytes) =
      (base64Sextets bytes).map fun value => urlSafeUnit (base64Unit value) := by
  have hpad : urlSafeUnit paddingUnit = paddingUnit := by decide
  rw [base64ToUrlSafe, base64Units_eq_append, map_append, map_map, map_replicate, hpad]
  apply stripBase64Padding_append
  intro unit hmem
  obtain ⟨value, hval, rfl⟩ := mem_map.mp hmem
  exact (base64Unit_facts (base64Sextets_lt bytes value hval)).2.2.2.2.1

theorem urlSafeToBase64_base64ToUrlSafe (bytes : Bytes) :
    urlSafeToBase64 (base64ToUrlSafe (base64Units bytes)) = base64Units bytes := by
  have hstandard : ((base64Sextets bytes).map fun value => urlSafeUnit (base64Unit value)).map
      standardUnit = (base64Sextets bytes).map base64Unit := by
    rw [map_map]
    apply map_congr_left
    intro value hmem
    exact (base64Unit_facts (base64Sextets_lt bytes value hmem)).2.2.2.2.2
  have hlen := length_base64Sextets bytes
  rw [base64ToUrlSafe_base64Units, urlSafeToBase64, hstandard, base64Units_eq_append]
  simp only [length_map, hlen]
  rcases (by omega : bytes.length % 3 = 0 ∨ bytes.length % 3 = 1 ∨ bytes.length % 3 = 2) with
    hmod | hmod | hmod
  · rw [hmod, if_neg (by omega), if_neg (by omega)]
    simp
  · rw [hmod, if_pos (by omega)]
    rfl
  · rw [hmod, if_neg (by omega), if_pos (by omega)]
    rfl

theorem base64_roundTrips :
    (∀ bytes, base64ToBytes (JsString.ofString (bytesToBase64 bytes)) = .ok bytes) ∧
      (∀ text bytes, base64ToBytes text = .ok bytes →
        JsString.ofString (bytesToBase64 bytes) = normalizeBase64 text) ∧
      ∀ bytes,
        base64ToUrlSafe (JsString.ofString (bytesToBase64 bytes)) = bytesToUrlSafeBase64 bytes ∧
        urlSafeToBase64 (base64ToUrlSafe (JsString.ofString (bytesToBase64 bytes))) =
          JsString.ofString (bytesToBase64 bytes) ∧
        base64ToUrlSafe (urlSafeToBase64 (bytesToUrlSafeBase64 bytes)) =
          bytesToUrlSafeBase64 bytes := by
  refine ⟨fun bytes => ?_, fun text bytes hok => ?_, fun bytes => ?_⟩
  · exact base64ToBytes_eq_ok_iff.mpr (normalizeBase64_base64Units bytes)
  · exact (base64ToBytes_eq_ok_iff.mp hok).symm
  · have hback := urlSafeToBase64_base64ToUrlSafe bytes
    refine ⟨rfl, hback, ?_⟩
    change base64ToUrlSafe (urlSafeToBase64 (base64ToUrlSafe (base64Units bytes))) = _
    rw [hback]
    rfl

/-- Whitespace in the text is all that is lost. -/
theorem base64_roundTrips_spaced :
    JsString.ofString (bytesToBase64 [0x66, 0x6f]) =
      normalizeBase64 (JsString.ofString " Zm8=\n") :=
  base64_roundTrips.2.1 _ _ (by decide)

end SignalProtocol

import SignalProtocol.Platform.Text
import Mathlib.Tactic.Ring

/-! # Strings and their bytes

The decoder reads the bytes of the characters of a string back. -/

namespace SignalProtocol

open List

variable {str : JsString} {first : UInt16} {byte : UInt8} {value high : ℕ} {second : UInt16}
  {codePoint lower upper low : ℕ} (chars : List Char) (char : Char)

/-! ## UTF-8 -/

theorem char_valid :
    char.toNat < 0xd800 ∨ 0xdfff < char.toNat ∧ char.toNat < 0x110000 := char.valid

theorem toNat_ofNat_char (hval : value.isValidChar) : (Char.ofNat value).toNat = value := by
  rw [Char.ofNat, dif_pos hval]
  rfl

theorem utf8_low_six (value low : ℕ) (hlow : low < 2 ^ 6) :
    value <<< 6 ||| ((low + 0x80) &&& 0x3f) = value * 2 ^ 6 + low := by
  have hmask : (low + 0x80) &&& 0x3f = low := by
    have hmod : (low + 0x80) &&& 0x3f = (low + 0x80) % 2 ^ 6 :=
      Nat.and_two_pow_sub_one_eq_mod _ 6
    omega
  rw [hmask, ← Nat.shiftLeft_add_eq_or_of_lt hlow, Nat.shiftLeft_eq]

theorem toNat_utf8Byte (hval : value < 2 ^ 8) : (UInt8.ofNat value).toNat = value :=
  UInt8.toNat_ofNat_of_lt' hval

/-- One continuation byte that is not the last one. -/
theorem utf8DecodeLoop_continue {missing : ℕ}
    (hbyte : byte.toNat = low + 0x80) (hlow : low < 2 ^ 6) (hmiss : missing ≠ 1)
    (hlower : lower ≤ low + 0x80) (hupper : low + 0x80 ≤ upper) (rest : Bytes) :
    utf8DecodeLoop (some ⟨codePoint, missing, lower, upper⟩) (byte :: rest) =
      utf8DecodeLoop (some ⟨codePoint * 2 ^ 6 + low, missing - 1, 0x80, 0xbf⟩) rest := by
  rw [utf8DecodeLoop, hbyte, utf8Step]
  dsimp only
  rw [if_neg (by omega), utf8_low_six codePoint low hlow, if_neg hmiss, nil_append]

theorem utf8DecodeLoop_last (hbyte : byte.toNat = low + 0x80) (hlow : low < 2 ^ 6)
    (hlower : lower ≤ low + 0x80) (hupper : low + 0x80 ≤ upper) (rest : Bytes) :
    utf8DecodeLoop (some ⟨codePoint, 1, lower, upper⟩) (byte :: rest) =
      Char.ofNat (codePoint * 2 ^ 6 + low) :: utf8DecodeLoop none rest := by
  rw [utf8DecodeLoop, hbyte, utf8Step]
  dsimp only
  rw [if_neg (by omega), utf8_low_six codePoint low hlow, if_pos rfl]
  rfl

theorem utf8DecodeLoop_start {pending : Utf8Pending}
    (hstart : utf8Start byte.toNat = ([], some pending)) (rest : Bytes) :
    utf8DecodeLoop none (byte :: rest) = utf8DecodeLoop (some pending) rest := by
  rw [utf8DecodeLoop, utf8Step, hstart]
  rfl

variable {byte : ℕ}

theorem utf8Start_two (hbyte : byte = high + 0xc0) (hlow : 2 ≤ high)
    (hhigh : high < 2 ^ 5) : utf8Start byte = ([], some ⟨high, 1, 0x80, 0xbf⟩) := by
  have hmask : byte &&& 0x1f = high := by
    have hmod : byte &&& 0x1f = byte % 2 ^ 5 := Nat.and_two_pow_sub_one_eq_mod byte 5
    omega
  rw [utf8Start, if_neg (by omega), if_pos (by omega), hmask]

theorem utf8Start_three (hbyte : byte = high + 0xe0) (hhigh : high < 2 ^ 4) :
    utf8Start byte = ([], some ⟨high, 2, if byte = 0xe0 then 0xa0 else 0x80,
      if byte = 0xed then 0x9f else 0xbf⟩) := by
  have hmask : byte &&& 0x0f = high := by
    have hmod : byte &&& 0x0f = byte % 2 ^ 4 := Nat.and_two_pow_sub_one_eq_mod byte 4
    omega
  rw [utf8Start, if_neg (by omega), if_neg (by omega), if_pos (by omega), hmask]

theorem utf8Start_four (hbyte : byte = high + 0xf0) (hhigh : high < 5) :
    utf8Start byte = ([], some ⟨high, 3, if byte = 0xf0 then 0x90 else 0x80,
      if byte = 0xf4 then 0x8f else 0xbf⟩) := by
  have hmask : byte &&& 0x07 = high := by
    have hmod : byte &&& 0x07 = byte % 2 ^ 3 := Nat.and_two_pow_sub_one_eq_mod byte 3
    omega
  rw [utf8Start, if_neg (by omega), if_neg (by omega), if_neg (by omega), if_pos (by omega), hmask]

/-- The bounds of the second byte leave out long spellings and surrogates; neither is the encoding
of a character. -/
theorem utf8DecodeLoop_utf8EncodeChar (rest : Bytes) :
    utf8DecodeLoop none (String.utf8EncodeChar char ++ rest) =
      char :: utf8DecodeLoop none rest := by
  have hvalid := char_valid char
  have hnat : char.val.toNat = char.toNat := rfl
  have hchar {value : ℕ} (hval : value = char.toNat) : Char.ofNat value = char := by
    rw [hval, Char.ofNat_toNat]
  rw [String.utf8EncodeChar, hnat]
  by_cases hone : char.toNat ≤ 0x7f
  · rw [if_pos hone, singleton_append, utf8DecodeLoop, toNat_utf8Byte (by omega), utf8Step,
      utf8Start, if_pos hone, Char.ofNat_toNat]
    rfl
  rw [if_neg hone]
  by_cases htwo : char.toNat ≤ 0x7ff
  · rw [if_pos htwo, cons_append, cons_append, nil_append,
      utf8DecodeLoop_start (utf8Start_two (toNat_utf8Byte (by omega)) (by omega) (by omega)),
      utf8DecodeLoop_last (toNat_utf8Byte (by omega)) (by omega) (by omega) (by omega)]
    congr 1
    exact hchar (by omega)
  rw [if_neg htwo]
  by_cases hthree : char.toNat ≤ 0xffff
  · rw [if_pos hthree, cons_append, cons_append, cons_append, nil_append,
      utf8DecodeLoop_start (utf8Start_three (toNat_utf8Byte (by omega)) (by omega)),
      toNat_utf8Byte (by omega),
      utf8DecodeLoop_continue (toNat_utf8Byte (by omega)) (by omega) (by decide)
        (by split <;> omega) (by split <;> omega),
      utf8DecodeLoop_last (toNat_utf8Byte (by omega)) (by omega) (by omega) (by omega)]
    congr 1
    exact hchar (by omega)
  · rw [if_neg hthree, cons_append, cons_append, cons_append, cons_append,
      nil_append, utf8DecodeLoop_start (utf8Start_four (toNat_utf8Byte (by omega)) (by omega)),
      toNat_utf8Byte (by omega),
      utf8DecodeLoop_continue (toNat_utf8Byte (by omega)) (by omega) (by decide)
        (by split <;> omega) (by split <;> omega),
      utf8DecodeLoop_continue (toNat_utf8Byte (by omega)) (by omega) (by decide) (by omega)
        (by omega),
      utf8DecodeLoop_last (toNat_utf8Byte (by omega)) (by omega) (by omega) (by omega)]
    congr 1
    exact hchar (by omega)

def utf8Encode (chars : List Char) : Bytes := chars.flatMap String.utf8EncodeChar

theorem utf8DecodeLoop_utf8Encode (rest : Bytes) :
    utf8DecodeLoop none (utf8Encode chars ++ rest) = chars ++ utf8DecodeLoop none rest := by
  induction chars with
  | nil => rfl
  | cons char chars ih =>
    rw [utf8Encode, flatMap_cons, append_assoc, utf8DecodeLoop_utf8EncodeChar, cons_append]
    exact congrArg _ ih

theorem utf8DecodeLoop_encoded :
    utf8DecodeLoop none (utf8Encode chars) = chars := by
  have happend := utf8DecodeLoop_utf8Encode chars []
  rwa [append_nil, utf8DecodeLoop, append_nil] at happend

theorem utf8Encode_injective : Function.Injective utf8Encode :=
  Function.LeftInverse.injective utf8DecodeLoop_encoded

def byteOrderMark : Char := Char.ofNat 0xfeff

def dropMark : List Char → List Char
  | [] => []
  | char :: chars => if char = byteOrderMark then chars else char :: chars

theorem utf8DecodeLoop_mark (rest : Bytes) :
    utf8DecodeLoop none (0xef :: 0xbb :: 0xbf :: rest) =
      byteOrderMark :: utf8DecodeLoop none rest :=
  utf8DecodeLoop_utf8EncodeChar byteOrderMark rest

theorem utf8Decode_utf8Encode :
    utf8Decode (utf8Encode chars) = String.ofList (dropMark chars) := by
  by_cases hmark : ∃ rest, utf8Encode chars = 0xef :: 0xbb :: 0xbf :: rest
  · obtain ⟨rest, hrest⟩ := hmark
    have hchars := utf8DecodeLoop_encoded chars
    rw [hrest, utf8DecodeLoop_mark] at hchars
    rw [hrest, ← hchars]
    change String.ofList (utf8DecodeLoop none rest) = _
    rw [dropMark, if_pos rfl]
  · rw [utf8Decode, utf8DecodeLoop_encoded]
    · cases chars with
      | nil => rfl
      | cons char chars =>
        have hchar : char ≠ byteOrderMark := by
          rintro rfl
          exact hmark ⟨utf8Encode chars, rfl⟩
        rw [dropMark, if_neg hchar]
    · intro rest hrest
      exact hmark ⟨rest, hrest⟩

namespace JsString

theorem ofChar_of_le {char : Char} (hchar : char.toNat ≤ 0xffff) :
    ofChar char = [UInt16.ofNat char.toNat] := if_pos hchar

theorem toNat_unit (hval : value < 2 ^ 16) : (UInt16.ofNat value).toNat = value :=
  UInt16.toNat_ofNat_of_lt' hval

theorem isHighSurrogate_iff {unit : UInt16} :
    isHighSurrogate unit = true ↔ 0xd800 ≤ unit.toNat ∧ unit.toNat ≤ 0xdbff :=
  decide_eq_true_iff

theorem isLowSurrogate_iff {unit : UInt16} :
    isLowSurrogate unit = true ↔ 0xdc00 ≤ unit.toNat ∧ unit.toNat ≤ 0xdfff :=
  decide_eq_true_iff

theorem charOfUnit_of_not_surrogate {unit : UInt16}
    (hunit : unit.toNat < 0xd800 ∨ 0xdfff < unit.toNat) :
    charOfUnit unit = Char.ofNat unit.toNat := by
  rw [charOfUnit, if_neg]
  rw [isHighSurrogate_iff, isLowSurrogate_iff]
  omega

theorem toChars_cons_of_not {rest : JsString}
    (hpair : isHighSurrogate first = true → ∀ second ∈ rest.head?, isLowSurrogate second = false) :
    toChars (first :: rest) = charOfUnit first :: toChars rest := by
  cases rest with
  | nil => rfl
  | cons second rest =>
    rw [toChars, if_neg]
    rintro ⟨hhigh, hlow⟩
    rw [hpair hhigh second rfl] at hlow
    cases hlow

theorem toChars_pair (hfst : isHighSurrogate first = true)
    (hsnd : isLowSurrogate second = true) (rest : JsString) :
    toChars (first :: second :: rest) =
      Char.ofNat (0x10000 + (first.toNat - 0xd800) * 0x400 + (second.toNat - 0xdc00)) ::
        toChars rest := by
  rw [toChars, if_pos ⟨hfst, hsnd⟩]

theorem toChars_ofChar_append (char : Char) (rest : JsString) :
    toChars (ofChar char ++ rest) = char :: toChars rest := by
  have hvalid := char_valid char
  by_cases hchar : char.toNat ≤ 0xffff
  · have hunit : (UInt16.ofNat char.toNat).toNat = char.toNat := toNat_unit (by omega)
    have hpair : isHighSurrogate (UInt16.ofNat char.toNat) = true →
        ∀ second ∈ rest.head?, isLowSurrogate second = false := by
      rw [isHighSurrogate_iff, hunit]
      omega
    rw [ofChar_of_le hchar, singleton_append, toChars_cons_of_not hpair,
      charOfUnit_of_not_surrogate (by omega), hunit, Char.ofNat_toNat]
  · have hhigh : (UInt16.ofNat (0xd800 + (char.toNat - 0x10000) / 0x400)).toNat =
        0xd800 + (char.toNat - 0x10000) / 0x400 := toNat_unit (by omega)
    have hlow : (UInt16.ofNat (0xdc00 + (char.toNat - 0x10000) % 0x400)).toNat =
        0xdc00 + (char.toNat - 0x10000) % 0x400 := toNat_unit (by omega)
    have hval : 0x10000 + (0xd800 + (char.toNat - 0x10000) / 0x400 - 0xd800) * 0x400 +
        (0xdc00 + (char.toNat - 0x10000) % 0x400 - 0xdc00) = char.toNat := by omega
    rw [ofChar, if_neg hchar, cons_append, singleton_append, toChars_pair
      (by rw [isHighSurrogate_iff, hhigh]; omega) (by rw [isLowSurrogate_iff, hlow]; omega),
      hhigh, hlow, hval, Char.ofNat_toNat]

variable (chars : List Char)

theorem toChars_ofChars_append (rest : JsString) :
    toChars (ofChars chars ++ rest) = chars ++ toChars rest := by
  induction chars with
  | nil => rfl
  | cons char chars ih =>
    rw [ofChars, flatMap_cons, append_assoc, toChars_ofChar_append, cons_append]
    exact congrArg _ ih

@[simp] theorem toChars_ofChars : toChars (ofChars chars) = chars := by
  have happend := toChars_ofChars_append chars []
  rwa [append_nil, toChars, append_nil] at happend

@[simp] theorem toChars_toWellFormed (str : JsString) : toChars (toWellFormed str) = toChars str :=
  toChars_ofChars _

theorem encode_eq (str : JsString) : encode str = utf8Encode (toChars str) := rfl

@[simp] theorem encode_toWellFormed (str : JsString) : encode (toWellFormed str) = encode str := by
  rw [encode_eq, encode_eq, toChars_toWellFormed]

theorem encode_eq_encode_iff {str' : JsString} :
    encode str = encode str' ↔ toWellFormed str = toWellFormed str' := by
  constructor
  · intro heq
    rw [toWellFormed, toWellFormed, utf8Encode_injective heq]
  · intro heq
    rw [← encode_toWellFormed, heq, encode_toWellFormed]

theorem utf8Decode_encode (str : JsString) :
    ofString (utf8Decode (encode str)) = ofChars (dropMark (toChars str)) := by
  rw [encode_eq, utf8Decode_utf8Encode, ofString, String.toList_ofList]

theorem ofChar_charOfUnit {unit : UInt16} (hunit : charOfUnit unit ≠ replacementCharacter) :
    ofChar (charOfUnit unit) = [unit] := by
  have hsurrogate : ¬ (isHighSurrogate unit = true ∨ isLowSurrogate unit = true) := by
    intro hsurrogate
    exact hunit (if_pos hsurrogate)
  rw [isHighSurrogate_iff, isLowSurrogate_iff] at hsurrogate
  have hlt := unit.toNat_lt
  have hnat : (Char.ofNat unit.toNat).toNat = unit.toNat :=
    toNat_ofNat_char (by rw [Nat.isValidChar]; omega)
  rw [charOfUnit_of_not_surrogate (by omega), ofChar_of_le (by omega), hnat, UInt16.ofNat_toNat]

theorem ofChar_pair (hfst : isHighSurrogate first = true)
    (hsnd : isLowSurrogate second = true) :
    ofChar (Char.ofNat (0x10000 + (first.toNat - 0xd800) * 0x400 + (second.toNat - 0xdc00))) =
      [first, second] := by
  rw [isHighSurrogate_iff] at hfst
  rw [isLowSurrogate_iff] at hsnd
  have hnat := toNat_ofNat_char (show Nat.isValidChar
    (0x10000 + (first.toNat - 0xd800) * 0x400 + (second.toNat - 0xdc00)) by
      rw [Nat.isValidChar]
      omega)
  have hhigh : 0xd800 + (0x10000 + (first.toNat - 0xd800) * 0x400 + (second.toNat - 0xdc00) -
      0x10000) / 0x400 = first.toNat := by omega
  have hlow : 0xdc00 + (0x10000 + (first.toNat - 0xd800) * 0x400 + (second.toNat - 0xdc00) -
      0x10000) % 0x400 = second.toNat := by omega
  rw [ofChar, hnat, if_neg (by omega), hhigh, hlow, UInt16.ofNat_toNat, UInt16.ofNat_toNat]

theorem toWellFormed_of_not_mem (hstr : replacementCharacter ∉ toChars str) :
    toWellFormed str = str := by
  rw [toWellFormed]
  induction str using toChars.induct with
  | case1 => rfl
  | case2 unit =>
    rw [toChars, mem_singleton] at hstr
    rw [toChars, ofChars, flatMap_singleton, ofChar_charOfUnit (Ne.symm hstr)]
  | case3 first second rest hpair ih =>
    rw [toChars_pair hpair.1 hpair.2, mem_cons, not_or] at hstr
    rw [toChars_pair hpair.1 hpair.2, ofChars, flatMap_cons, ofChar_pair hpair.1 hpair.2]
    exact congrArg (fun units => first :: second :: units) (ih hstr.2)
  | case4 first second rest hpair ih =>
    rw [toChars, if_neg hpair, mem_cons, not_or] at hstr
    rw [toChars, if_neg hpair, ofChars, flatMap_cons, ofChar_charOfUnit (Ne.symm hstr.1)]
    exact congrArg (fun units => first :: units) (ih hstr.2)

theorem not_mem_of_toWellFormed (hform : toWellFormed str = str)
    (hstr : 0xfffd ∉ str) : replacementCharacter ∉ toChars str := by
  intro hmem
  apply hstr
  rw [← hform]
  exact mem_flatMap.mpr ⟨replacementCharacter, hmem, mem_singleton.mpr rfl⟩

theorem exists_other_spelling (hform : toWellFormed str = str)
    (hstr : 0xfffd ∈ str) : ∃ other, other ≠ str ∧ toChars other = toChars str := by
  have hmem : replacementCharacter ∈ toChars str := by
    by_contra hnot
    rw [← hform, toWellFormed, ofChars, mem_flatMap] at hstr
    obtain ⟨char, hchar, hunit⟩ := hstr
    have hvalid := char_valid char
    rw [ofChar] at hunit
    split at hunit
    · have hnat : 0xfffd = char.toNat := by
        have hcast := congrArg UInt16.toNat (mem_singleton.mp hunit)
        rwa [toNat_unit (by omega)] at hcast
      have hreplacement : char = replacementCharacter := by
        rw [← Char.ofNat_toNat char, ← hnat]
        rfl
      exact hnot (hreplacement ▸ hchar)
    · simp only [mem_cons, not_mem_nil, or_false] at hunit
      have hunits : 0xfffd = 0xd800 + (char.toNat - 0x10000) / 0x400 ∨
          0xfffd = 0xdc00 + (char.toNat - 0x10000) % 0x400 := by
        rcases hunit with hunit | hunit
        · have hcast := congrArg UInt16.toNat hunit
          rw [toNat_unit (by omega)] at hcast
          exact .inl hcast
        · have hcast := congrArg UInt16.toNat hunit
          rw [toNat_unit (by omega)] at hcast
          exact .inr hcast
      omega
  obtain ⟨before, after, hsplit⟩ := append_of_mem hmem
  have hlone : toChars (0xdc00 :: ofChars after) = replacementCharacter :: after := by
    rw [toChars_cons_of_not fun hhigh => absurd hhigh (by decide), toChars_ofChars]
    rfl
  refine ⟨ofChars before ++ 0xdc00 :: ofChars after, ?_, ?_⟩
  · rw [← hform, toWellFormed, hsplit]
    intro heq
    simp only [ofChars, flatMap_append, flatMap_cons] at heq
    have hhead := congrArg List.head? (append_cancel_left heq)
    rw [ofChar_of_le (by decide), head?_cons, singleton_append, head?_cons] at hhead
    exact absurd hhead (by decide)
  · rw [toChars_ofChars_append, hlone, hsplit]

theorem encode_unique_iff : (∀ other, encode other = encode str → other = str) ↔
      toWellFormed str = str ∧ 0xfffd ∉ str := by
  constructor
  · intro hunique
    have hform : toWellFormed str = str := hunique _ (encode_toWellFormed str)
    refine ⟨hform, fun hmem => ?_⟩
    obtain ⟨other, hne, hchars⟩ := exists_other_spelling hform hmem
    exact hne (hunique other (by rw [encode_eq, encode_eq, hchars]))
  · rintro ⟨hform, hmem⟩ other henc
    have hchars : toChars other = toChars str := utf8Encode_injective henc
    have hother : replacementCharacter ∉ toChars other := by
      rw [hchars]
      exact not_mem_of_toWellFormed hform hmem
    rw [← toWellFormed_of_not_mem hother, toWellFormed, hchars]
    exact hform

theorem charOfUnit_eq_mark_iff {unit : UInt16} :
    charOfUnit unit = byteOrderMark ↔ unit = 0xfeff := by
  have hlt := unit.toNat_lt
  by_cases hsurrogate : unit.toNat < 0xd800 ∨ 0xdfff < unit.toNat
  · rw [charOfUnit_of_not_surrogate hsurrogate]
    constructor
    · intro hmark
      have hnat := toNat_ofNat_char (show unit.toNat.isValidChar by
        rw [Nat.isValidChar]
        omega)
      rw [hmark] at hnat
      exact UInt16.toNat_inj.mp hnat.symm
    · rintro rfl
      rfl
  · have hreplacement : charOfUnit unit = replacementCharacter := by
      rw [charOfUnit, if_pos]
      rw [isHighSurrogate_iff, isLowSurrogate_iff]
      omega
    rw [hreplacement]
    refine ⟨fun hmark => absurd hmark (by decide), ?_⟩
    rintro rfl
    exact absurd (Or.inr (by decide)) hsurrogate

theorem head?_toChars_eq_mark :
    (toChars str).head? = some byteOrderMark ↔ str.head? = some 0xfeff := by
  cases str with
  | nil => simp [toChars]
  | cons first rest =>
    by_cases hpair : isHighSurrogate first = true ∧
        ∃ second ∈ rest.head?, isLowSurrogate second = true
    · obtain ⟨hhigh, second, hsnd, hlow⟩ := hpair
      obtain ⟨rest, rfl⟩ := head?_eq_some_iff.mp hsnd
      rw [toChars_pair hhigh hlow, head?_cons, head?_cons, Option.some.injEq, Option.some.injEq]
      constructor
      · intro hmark
        have hspelled := ofChar_pair hhigh hlow
        rw [hmark] at hspelled
        cases hspelled
      · rintro rfl
        exact absurd hhigh (by decide)
    · rw [toChars_cons_of_not, head?_cons, head?_cons, Option.some.injEq,
        Option.some.injEq, charOfUnit_eq_mark_iff]
      intro hhigh second hsnd
      by_contra hlow
      exact hpair ⟨hhigh, second, hsnd, by simpa using hlow⟩

theorem dropMark_eq_self_iff {chars : List Char} :
    dropMark chars = chars ↔ chars.head? ≠ some byteOrderMark := by
  cases chars with
  | nil => simp [dropMark]
  | cons char chars =>
    rw [dropMark, head?_cons, Ne, Option.some.injEq]
    split
    · rename_i hmark
      simp [hmark]
    · rename_i hmark
      simp [hmark]

theorem utf8Decode_encode_eq_self_iff :
    ofString (utf8Decode (encode str)) = str ↔ toWellFormed str = str ∧ str.head? ≠ some 0xfeff := by
  rw [utf8Decode_encode, Ne, ← head?_toChars_eq_mark, ← Ne, ← dropMark_eq_self_iff]
  constructor
  · intro heq
    have hchars := congrArg toChars heq
    rw [toChars_ofChars] at hchars
    rw [hchars] at heq
    exact ⟨heq, hchars⟩
  · rintro ⟨hform, hmark⟩
    rw [hmark]
    exact hform

end JsString

end SignalProtocol

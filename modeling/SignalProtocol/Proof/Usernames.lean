import Mathlib.Data.List.TakeWhile
import Mathlib.Tactic.FinCases
import Mathlib.Tactic.IntervalCases
import SignalProtocol.Proof.RetryFamilyIds
import SignalProtocol.Username.Hash

/-! # Usernames are read and numbered exactly

A username that is read is the text of its parts when its discriminator is written in digits, and
the number of a nickname is a bijective numeration below the group order. -/

namespace SignalProtocol.Username

open JoinedText KeyValue Results Retry Url List

variable {nickname other username discStr text : JsString} {discriminator : ℤ} {value : ℕ}
  {number : List Char} {code : UInt16}

/-! ### Numbers in text -/

theorem toNat_unit {char : Char} (hdigit : char.isDigit = true) :
    (unit char).toNat = char.toNat ∧ 48 ≤ char.toNat ∧ char.toNat ≤ 57 := by
  have hrange : '0'.toNat ≤ char.toNat ∧ char.toNat ≤ '9'.toNat := by
    simpa [Char.isDigit, UInt32.le_iff_toNat_le] using hdigit
  have hbounds : 48 ≤ char.toNat ∧ char.toNat ≤ 57 := hrange
  refine ⟨?_, hbounds⟩
  rw [unit, UInt16.toNat_ofNat']
  omega

theorem isDigit_iff : isDigit code = true ↔ 48 ≤ code.toNat ∧ code.toNat ≤ 57 := by
  simp only [isDigit, decide_eq_true_eq, UInt16.le_iff_toNat_le]
  exact Iff.rfl

theorem isDigit_unit {char : Char} (hdigit : char.isDigit = true) : isDigit (unit char) = true := by
  obtain ⟨hval, hbounds⟩ := toNat_unit hdigit
  rw [isDigit_iff, hval]
  exact hbounds

/-- Text of digits is a number in decimal digits. -/
theorem exists_digits (hdigits : ∀ code ∈ text, isDigit code = true) :
    ∃ number : List Char, (∀ char ∈ number, char.isDigit = true) ∧ number.map unit = text := by
  induction text with
  | nil => exact ⟨[], by simp, rfl⟩
  | cons first rest ih =>
    obtain ⟨number, hnum, rfl⟩ := ih fun code hmem => hdigits code (mem_cons_of_mem _ hmem)
    obtain ⟨hlow, hhigh⟩ := isDigit_iff.mp (hdigits first mem_cons_self)
    have hfst : ∀ value, 48 ≤ value → value ≤ 57 → (Char.ofNat value).isDigit = true ∧
        (Char.ofNat value).toNat = value := by
      intro value hlow hhigh
      interval_cases value <;> exact ⟨rfl, rfl⟩
    obtain ⟨hdigit, hchar⟩ := hfst first.toNat hlow hhigh
    refine ⟨Char.ofNat first.toNat :: number, ?_, ?_⟩
    · rintro char (_ | ⟨_, hmem⟩)
      · exact hdigit
      · exact hnum char hmem
    · rw [map_cons, unit, hchar, UInt16.ofNat_toNat]

theorem decimalValue_units (hdigits : ∀ char ∈ number, char.isDigit = true) :
    decimalValue (number.map unit) = Nat.ofDigitChars 10 number 0 := by
  rw [decimalValue, foldl_map, Nat.ofDigitChars_eq_foldl]
  refine foldl_ext _ _ _ fun value char hmem => ?_
  rw [(toNat_unit (hdigits char hmem)).1, Nat.mul_comm]
  rfl

theorem not_isDigit_of_isWhitespace (hmem : JsString.isWhitespace code = true) :
    ¬ isDigit code = true := by
  rw [JsString.isWhitespace, decide_eq_true_eq] at hmem
  fin_cases hmem <;> decide

theorem parseInt_digits (hne : text ≠ []) (hdigits : ∀ code ∈ text, isDigit code = true) :
    parseInt text = some (decimalValue text : ℤ) := by
  obtain ⟨first, rest, rfl⟩ := exists_cons_of_ne_nil hne
  have hfst := isDigit_iff.mp (hdigits first mem_cons_self)
  have hspace : ¬ JsString.isWhitespace first = true := fun hmem =>
    not_isDigit_of_isWhitespace hmem (hdigits first mem_cons_self)
  have hsign : ∀ sign : Char, sign.toNat < 48 → first ≠ unit sign := by
    rintro sign hsign rfl
    rw [unit, UInt16.toNat_ofNat'] at hfst
    omega
  rw [parseInt, dropWhile_cons_of_neg hspace]
  simp only [head?_cons, Option.some.injEq, hsign '-' (by decide), hsign '+' (by decide),
    or_self, if_false]
  rw [List.takeWhile_eq_self_iff.mpr hdigits, if_neg hne]

theorem numberText_ofNat (value : ℕ) : numberText value = (decimal value).map unit := rfl

theorem mem_numberText (value : ℕ) (hmem : code ∈ numberText value) : isDigit code = true := by
  rw [numberText_ofNat, mem_map] at hmem
  obtain ⟨char, hchar, rfl⟩ := hmem
  exact isDigit_unit (isDigit_of_mem_decimal hchar)

theorem decimalValue_numberText (value : ℕ) : decimalValue (numberText value) = value := by
  rw [numberText_ofNat, decimalValue_units fun char hmem => isDigit_of_mem_decimal hmem]
  exact Nat.ofDigitChars_ten_toDigits

theorem length_numberText {value : ℕ} : 2 ≤ (numberText value).length ↔ 10 ≤ value := by
  rw [numberText_ofNat, length_map, decimal]
  constructor
  · intro hlen
    by_contra hsmall
    rw [Nat.toDigits_of_lt_base (by omega)] at hlen
    simp at hlen
  · intro hlarge
    rw [Nat.toDigits_of_base_le (by decide) hlarge, length_append]
    have := length_pos_iff.mpr (Nat.toDigits_ne_nil (b := 10) (n := value / 10))
    simp
    omega

theorem unit_eq_zero {char : Char} (hdigit : char.isDigit = true) :
    unit char = unit '0' ↔ char = '0' := by
  constructor
  · intro heq
    have hval := congrArg UInt16.toNat heq
    rw [(toNat_unit hdigit).1] at hval
    exact Char.toNat_inj.mp hval
  · rintro rfl
    rfl

theorem head?_numberText (hpos : 0 < value) : (numberText value).head? ≠ some (unit '0') := by
  rw [numberText_ofNat, head?_map]
  intro hzero
  obtain ⟨char, hhead, hchar⟩ := Option.map_eq_some_iff.mp hzero
  have hdigit := isDigit_of_mem_decimal (mem_of_mem_head? hhead)
  rw [unit_eq_zero hdigit] at hchar
  exact head?_decimal_ne hpos (hchar ▸ hhead)

/-! ### Discriminators in text -/

/-- The forms of the discriminator that `parseUsername` takes. -/
def IsDiscriminatorForm (discStr : JsString) : Prop :=
  2 ≤ discStr.length ∧ ¬ (3 ≤ discStr.length ∧ discStr.head? = some (unit '0'))

theorem parseParts_eq_ok_iff {result : JsString × ℤ} :
    parseParts username nickname discStr = .ok result ↔
      parseInt discStr = some result.2 ∧ validateNickname nickname = .ok () ∧
        validateDiscriminator result.2 = .ok () ∧ IsDiscriminatorForm discStr ∧
        nickname = result.1 := by
  by_cases hnil : discStr = []
  · simp [parseParts, hnil, IsDiscriminatorForm]
  · rw [parseParts, if_neg hnil]
    cases hparse : parseInt discStr with
    | none => simp
    | some discriminator =>
      obtain ⟨name, value⟩ := result
      simp only [Option.some.injEq]
      rw [bind_eq_ok_iff]
      constructor
      · rintro ⟨⟨⟩, hnickname, hrest⟩
        obtain ⟨⟨⟩, hdisc, hrest⟩ := bind_eq_ok_iff.mp hrest
        split at hrest
        · cases hrest
        · next hlong =>
          split at hrest
          · cases hrest
          · next hzero =>
            cases hrest
            exact ⟨rfl, hnickname, hdisc, ⟨Nat.le_of_not_lt hlong, hzero⟩, rfl⟩
      · rintro ⟨rfl, hnickname, hdisc, hform, rfl⟩
        refine ⟨(), hnickname, bind_eq_ok_iff.mpr ⟨(), hdisc, ?_⟩⟩
        rw [if_neg (Nat.not_lt.mpr hform.1), if_neg hform.2]
        rfl

theorem discriminatorText_isDigit (hmem : code ∈ discriminatorText value) :
    isDigit code = true := by
  rw [discriminatorText] at hmem
  split at hmem
  · obtain _ | ⟨_, hmem⟩ := hmem
    · rfl
    · exact mem_numberText value hmem
  · exact mem_numberText value hmem

theorem discriminatorText_form (hpos : 0 < value) :
    IsDiscriminatorForm (discriminatorText value) := by
  rw [discriminatorText]
  split
  · next hsmall =>
    have hlen : ¬ 2 ≤ (numberText value).length := by
      rw [length_numberText]
      omega
    have hne : numberText value ≠ [] := by
      rw [numberText_ofNat]
      simp [decimal, Nat.toDigits_ne_nil]
    have := length_pos_iff.mpr hne
    refine ⟨by simp; omega, fun hboth => ?_⟩
    have hthree := hboth.1
    rw [length_cons] at hthree
    omega
  · next hlarge => 
    exact ⟨length_numberText.mpr (by omega), fun hboth => head?_numberText hpos hboth.2⟩

theorem decimalValue_discriminatorText (value : ℕ) :
    decimalValue (discriminatorText value) = value := by
  rw [discriminatorText]
  split
  · exact decimalValue_numberText value
  · exact decimalValue_numberText value

theorem parseInt_discriminatorText (hpos : 0 < value) :
    parseInt (discriminatorText value) = some (value : ℤ) := by
  rw [parseInt_digits (ne_nil_of_length_pos
    (Nat.lt_of_lt_of_le Nat.two_pos (discriminatorText_form hpos).1))
    fun code hmem => discriminatorText_isDigit hmem, decimalValue_discriminatorText]

/-- Digits in a form that is taken are the text of their number. -/
theorem discriminatorText_decimalValue (hform : IsDiscriminatorForm discStr)
    (hdigits : ∀ code ∈ discStr, isDigit code = true) :
    discriminatorText (decimalValue discStr) = discStr := by
  obtain ⟨number, hnum, rfl⟩ := exists_digits hdigits
  rw [IsDiscriminatorForm, length_map, head?_map] at hform
  rw [decimalValue_units hnum]
  by_cases hzero : number.head? = some '0'
  · rw [hzero] at hform
    have hlen : number.length = 2 := by
      have := hform.1
      have : ¬ 3 ≤ number.length := fun hthree => hform.2 ⟨hthree, rfl⟩
      omega
    obtain ⟨first, second, rfl⟩ := length_eq_two.mp hlen
    cases hzero
    obtain ⟨hbound, hchar⟩ := digitChar_of_isDigit (hnum second (by simp))
    have hval : Nat.ofDigitChars 10 ['0', second] 0 = second.toNat - '0'.toNat :=
      Nat.zero_add _
    rw [hval, discriminatorText, if_pos (by exact_mod_cast hbound), numberText_ofNat, decimal,
      Nat.toDigits_of_lt_base hbound, hchar]
    rfl
  · have hne : number ≠ [] := by
      rintro rfl
      exact absurd hform.1 (by decide)
    obtain ⟨htext, -⟩ := decimal_ofDigitChars hne hzero hnum
    have hlarge : 10 ≤ Nat.ofDigitChars 10 number 0 := by
      rw [← length_numberText, numberText_ofNat, htext, length_map]
      exact hform.1
    rw [discriminatorText, if_neg (by omega), numberText_ofNat, htext]

/-! ### Usernames in text -/

theorem parseUsername_append (hlast : unit '.' ∉ discStr) :
    parseUsername (nickname ++ unit '.' :: discStr) =
      parseParts (nickname ++ unit '.' :: discStr) nickname discStr := by
  have htake : (nickname ++ unit '.' :: discStr).take
      ((nickname ++ unit '.' :: discStr).length - discStr.length - 1) = nickname :=
    List.take_left' (by simp; omega)
  rw [parseUsername, if_neg (by simp), afterLast_append hlast]
  exact congrArg (parseParts _ · discStr) htake

theorem parseUsername_eq_ok_iff {result : JsString × ℤ} :
    parseUsername username = .ok result ↔ ∃ discStr, unit '.' ∉ discStr ∧
      username = result.1 ++ unit '.' :: discStr ∧ parseInt discStr = some result.2 ∧
      validateNickname result.1 = .ok () ∧ validateDiscriminator result.2 = .ok () ∧
      IsDiscriminatorForm discStr := by
  constructor
  · intro hparse
    by_cases hdot : unit '.' ∈ username
    · obtain ⟨discStr, before, hreverse, hlast⟩ :=
        eq_append_cons_of_mem (mem_reverse.mpr hdot)
      have husername : username = before.reverse ++ unit '.' :: discStr.reverse := by
        rw [← reverse_reverse username, hreverse]
        simp
      rw [husername, parseUsername_append (by simpa using hlast), parseParts_eq_ok_iff] at hparse
      obtain ⟨hnum, hnickname, hdisc, hform, hname⟩ := hparse
      exact ⟨discStr.reverse, by simpa using hlast, hname ▸ husername, hnum, hname ▸ hnickname,
        hdisc, hform⟩
    · rw [parseUsername, if_pos hdot] at hparse
      cases hparse
  · rintro ⟨discStr, hlast, rfl, hnum, hnickname, hdisc, hform⟩
    rw [parseUsername_append hlast, parseParts_eq_ok_iff]
    exact ⟨hnum, hnickname, hdisc, hform, rfl⟩

theorem validateDiscriminator_eq_ok_iff :
    validateDiscriminator discriminator = .ok () ↔
      1 ≤ discriminator ∧ discriminator ≤ maxDiscriminator := by
  rw [validateDiscriminator]
  split
  · next hsmall => simpa using fun hpos => absurd hpos (by omega)
  · next hpos =>
    split
    · next hlarge => simpa using fun _ => hlarge
    · next hbound => simpa using ⟨by omega, by omega⟩

theorem dot_not_mem (hdigits : ∀ code ∈ text, isDigit code = true) : unit '.' ∉ text :=
  fun hdot => absurd (hdigits _ hdot) (by decide)

theorem parse_formatUsername (hnickname : validateNickname nickname = .ok ())
    (hdisc : validateDiscriminator discriminator = .ok ()) :
    parseUsername (formatUsername nickname discriminator) = .ok (nickname, discriminator) := by
  obtain ⟨hpos, -⟩ := validateDiscriminator_eq_ok_iff.mp hdisc
  obtain ⟨value, rfl⟩ := Int.eq_ofNat_of_zero_le (by omega : 0 ≤ discriminator)
  have hval : 0 < value := by omega
  exact parseUsername_eq_ok_iff.mpr ⟨discriminatorText value,
    dot_not_mem fun code hmem => discriminatorText_isDigit hmem, rfl,
    parseInt_discriminatorText hval, hnickname, hdisc, discriminatorText_form hval⟩

theorem eq_formatUsername_iff (hparse : parseUsername username = .ok (nickname, discriminator)) :
    username = formatUsername nickname discriminator ↔
      ∀ code ∈ afterLast (unit '.') username, isDigit code = true := by
  obtain ⟨discStr, hlast, rfl, hnum, -, hdisc, hform⟩ :=
    parseUsername_eq_ok_iff.mp hparse
  obtain ⟨hpos, -⟩ := validateDiscriminator_eq_ok_iff.mp hdisc
  rw [afterLast_append hlast, formatUsername, append_cancel_left_eq, List.cons.injEq]
  obtain ⟨value, rfl⟩ := Int.eq_ofNat_of_zero_le (by omega : 0 ≤ discriminator)
  constructor
  · rintro ⟨-, rfl⟩ code hmem
    exact discriminatorText_isDigit hmem
  · intro hdigits
    have hne : discStr ≠ [] := ne_nil_of_length_pos (Nat.lt_of_lt_of_le Nat.two_pos hform.1)
    rw [parseInt_digits hne hdigits, Option.some.injEq] at hnum
    obtain rfl : decimalValue discStr = value := Int.ofNat.inj hnum
    exact ⟨rfl, (discriminatorText_decimalValue hform hdigits).symm⟩

/-! ### Nicknames as numbers -/

theorem validateNickname_eq_ok_iff :
    validateNickname nickname = .ok () ↔
      minNicknameLength ≤ nickname.length ∧ nickname.length ≤ maxNicknameLength ∧
        ¬ nickname.head?.any isDigit = true ∧ ∀ code ∈ nickname, isNicknameUnit code = true := by
  by_cases hshort : nickname.length < minNicknameLength
  · simp [validateNickname, hshort, Nat.not_le.mpr hshort]
  · by_cases hlarge : maxNicknameLength < nickname.length
    · simp [validateNickname, hshort, hlarge, Nat.not_le.mpr hlarge]
    · have hlen := And.intro (Nat.le_of_not_lt hshort) (Nat.le_of_not_lt hlarge)
      by_cases hdigit : nickname.head?.any isDigit = true
      · simp [validateNickname, hshort, hlarge, hdigit]
      · by_cases hunits : nickname.all isNicknameUnit = true
        · simpa [validateNickname, hshort, hlarge, hdigit, hunits, hlen] using
            all_eq_true.mp hunits
        · simpa [validateNickname, hshort, hlarge, hdigit, hunits, hlen] using
            all_eq_false.mp (Bool.eq_false_of_not_eq_true hunits)

theorem isLower_iff : isLower code = true ↔ 97 ≤ code.toNat ∧ code.toNat ≤ 122 := by
  simp only [isLower, decide_eq_true_eq, UInt16.le_iff_toNat_le]
  exact Iff.rfl

theorem isUpper_iff : isUpper code = true ↔ 65 ≤ code.toNat ∧ code.toNat ≤ 90 := by
  simp only [isUpper, decide_eq_true_eq, UInt16.le_iff_toNat_le]
  exact Iff.rfl

theorem eq_underscore_iff : code = unit '_' ↔ code.toNat = 95 := UInt16.toNat_inj.symm

theorem charToByte_eq_ok_iff {byte : ℕ} : charToByte code = .ok byte ↔
    code.toNat = 95 ∧ byte = 1 ∨ (97 ≤ code.toNat ∧ code.toNat ≤ 122) ∧ byte + 95 = code.toNat ∨
      (48 ≤ code.toNat ∧ code.toNat ≤ 57) ∧ byte + 20 = code.toNat := by
  simp only [charToByte, eq_underscore_iff, isLower_iff, isDigit_iff]
  split_ifs <;> simp only [Except.ok.injEq, false_iff] <;> omega

/-- The byte of a nickname's code unit without its case, and the smaller range of a first unit. -/
theorem charToByte_lowercase (hunit : isNicknameUnit code = true) :
    ∃ byte, charToByte (if isUpper code then code + 0x20 else code) = .ok byte ∧ 1 ≤ byte ∧
      byte ≤ 37 ∧ (¬ isDigit code = true → byte ≤ 27) := by
  simp only [isNicknameUnit, isAlphanumeric, Bool.or_eq_true, decide_eq_true_eq, isLower_iff,
    isUpper_iff, isDigit_iff, eq_underscore_iff] at hunit ⊢
  obtain ((hlower | hupper) | hdigit) | hunderscore := hunit
  · rw [if_neg (by omega)]
    exact ⟨code.toNat - 95, charToByte_eq_ok_iff.mpr (by omega), by omega⟩
  · have hsum : (code + 0x20).toNat = code.toNat + 32 := by
      rw [UInt16.toNat_add, Nat.mod_eq_of_lt]
      · rfl
      · change code.toNat + 32 < 65536
        omega
    rw [if_pos hupper]
    exact ⟨code.toNat - 63, charToByte_eq_ok_iff.mpr (by omega), by omega⟩
  · rw [if_neg (by omega)]
    exact ⟨code.toNat - 20, charToByte_eq_ok_iff.mpr (by omega), by omega⟩
  · rw [if_neg (by omega)]
    exact ⟨1, charToByte_eq_ok_iff.mpr (by omega), by omega⟩

theorem bytes_inj {bytes : List ℕ} (hbytes : text.mapM charToByte = .ok bytes)
    (hother : other.mapM charToByte = .ok bytes) : text = other := by
  induction text generalizing other bytes with
  | nil =>
    cases hbytes
    cases other with
    | nil => rfl
    | cons code rest =>
      obtain ⟨_, _, _, _, hcons⟩ := mapM_cons_eq_ok hother
      cases hcons
  | cons code rest ih =>
    obtain ⟨byte, bytes, hbyte, hrest, rfl⟩ := mapM_cons_eq_ok hbytes
    cases other with
    | nil => cases hother
    | cons code' rest' =>
      obtain ⟨byte', bytes', hbyte', hrest', hcons⟩ := mapM_cons_eq_ok hother
      cases hcons
      rw [ih hrest hrest']
      rw [charToByte_eq_ok_iff] at hbyte hbyte'
      rw [UInt16.toNat_inj.mp (by omega : code.toNat = code'.toNat)]

theorem exists_bytes (hunits : ∀ code ∈ nickname, isNicknameUnit code = true) :
    ∃ bytes, (lowercase nickname).mapM charToByte = .ok bytes ∧ bytes.length = nickname.length ∧
      ∀ byte ∈ bytes, 1 ≤ byte ∧ byte ≤ 37 := by
  induction nickname with
  | nil => exact ⟨[], rfl, rfl, by simp⟩
  | cons code rest ih =>
    obtain ⟨byte, hbyte, hlow, hhigh, -⟩ := charToByte_lowercase (hunits code mem_cons_self)
    obtain ⟨bytes, hbytes, hlen, hrange⟩ := ih fun code hmem =>
      hunits code (mem_cons_of_mem _ hmem)
    refine ⟨byte :: bytes, ?_, congrArg (· + 1) hlen, ?_⟩
    · rw [lowercase, map_cons, mapM_cons, hbyte]
      exact congrArg (do let rest ← ·; pure (byte :: rest)) hbytes
    · rintro value (_ | ⟨_, hmem⟩)
      · exact ⟨hlow, hhigh⟩
      · exact hrange value hmem

/-- The bijective numeration in base 37 is injective. -/
theorem hornerSum_inj {bytes others : List ℕ} (hbytes : ∀ byte ∈ bytes, 1 ≤ byte ∧ byte ≤ 37)
    (hothers : ∀ byte ∈ others, 1 ≤ byte ∧ byte ≤ 37) (hsum : hornerSum bytes = hornerSum others) :
    bytes = others := by
  induction bytes generalizing others with
  | nil =>
    cases others with
    | nil => rfl
    | cons first rest =>
      have := hothers first mem_cons_self
      simp only [hornerSum, foldr_cons, foldr_nil] at hsum
      omega
  | cons byte bytes ih =>
    have hbyte := hbytes byte mem_cons_self
    cases others with
    | nil =>
      simp only [hornerSum, foldr_cons, foldr_nil] at hsum
      omega
    | cons first rest =>
      have hfst := hothers first mem_cons_self
      simp only [hornerSum, foldr_cons] at hsum
      obtain rfl : byte = first := by omega
      rw [ih (fun value hmem => hbytes value (mem_cons_of_mem _ hmem))
        (fun value hmem => hothers value (mem_cons_of_mem _ hmem))
        (by simp only [hornerSum]; omega)]

theorem hornerSum_lt {bytes : List ℕ} (hbytes : ∀ byte ∈ bytes, 1 ≤ byte ∧ byte ≤ 37) :
    36 * hornerSum bytes + 37 ≤ 37 ^ (bytes.length + 1) := by
  induction bytes with
  | nil => simp [hornerSum]
  | cons byte bytes ih =>
    have hbyte := hbytes byte mem_cons_self
    have hrest := ih fun value hmem => hbytes value (mem_cons_of_mem _ hmem)
    rw [length_cons, Nat.pow_succ]
    simp only [hornerSum, foldr_cons] at hrest ⊢
    omega

/-- The sum of a valid nickname, which the reduction keeps. -/
theorem toBase37Sum_ok (hnickname : validateNickname nickname = .ok ()) : ∃ first rest,
    (lowercase nickname).mapM charToByte = .ok (first :: rest) ∧ (1 ≤ first ∧ first ≤ 27) ∧
      (∀ byte ∈ rest, 1 ≤ byte ∧ byte ≤ 37) ∧
      toBase37Sum nickname = .ok (hornerSum rest * 27 + first) ∧
      hornerSum rest * 27 + first < groupOrder := by
  obtain ⟨hshort, hlarge, hdigit, hunits⟩ := validateNickname_eq_ok_iff.mp hnickname
  cases nickname with
  | nil => exact absurd hshort (by decide)
  | cons code tail =>
    obtain ⟨first, hfst, hlow, -, hhigh⟩ :=
      charToByte_lowercase (hunits code mem_cons_self)
    obtain ⟨rest, hrest, hlen, hrange⟩ := exists_bytes fun code hmem =>
      hunits code (mem_cons_of_mem _ hmem)
    have hbytes : (lowercase (code :: tail)).mapM charToByte = .ok (first :: rest) := by
      rw [lowercase, map_cons, mapM_cons, hfst]
      exact congrArg (do let rest ← ·; pure (first :: rest)) hrest
    have hbound := hornerSum_lt hrange
    have hpower : 37 ^ (rest.length + 1) ≤ 37 ^ 48 := by
      refine Nat.pow_le_pow_right (by decide) ?_
      rw [hlen]
      exact hlarge
    refine ⟨first, rest, hbytes, ⟨hlow, hhigh hdigit⟩, hrange, ?_, ?_⟩
    · rw [toBase37Sum, hbytes]
      rfl
    · have hfst := hhigh hdigit
      rw [groupOrder]
      omega

theorem toBase37Scalar_eq (hnickname : validateNickname nickname = .ok ()) :
    ∃ sum < groupOrder, toBase37Sum nickname = .ok sum ∧ toBase37Scalar nickname = .ok sum := by
  obtain ⟨first, rest, -, -, -, hsum, hbound⟩ := toBase37Sum_ok hnickname
  refine ⟨_, hbound, hsum, ?_⟩
  rw [toBase37Scalar, hsum]
  exact congrArg Except.ok (Nat.mod_eq_of_lt hbound)

theorem toBase37Scalar_inj (hnickname : validateNickname nickname = .ok ())
    (hother : validateNickname other = .ok ()) :
    toBase37Scalar nickname = toBase37Scalar other ↔ lowercase nickname = lowercase other := by
  constructor
  · intro heq
    obtain ⟨sum, -, hsum, hscalar⟩ := toBase37Scalar_eq hnickname
    obtain ⟨sum', -, hsum', hscalar'⟩ := toBase37Scalar_eq hother
    obtain rfl : sum = sum' := Except.ok.inj (hscalar ▸ hscalar' ▸ heq)
    obtain ⟨first, rest, hbytes, hfst, hrest, hval, -⟩ := toBase37Sum_ok hnickname
    obtain ⟨first', rest', hbytes', hfirst', hrest', hvalue', -⟩ := toBase37Sum_ok hother
    have hsums := Except.ok.inj (hval.symm.trans (hsum.trans (hsum'.symm.trans hvalue')))
    obtain rfl : first = first' := by omega
    rw [hornerSum_inj hrest hrest' (by omega)] at hbytes
    exact bytes_inj hbytes hbytes'
  · intro heq
    rw [toBase37Scalar, toBase37Sum, heq]
    rfl

theorem lowercase_formatUsername (value : ℕ) :
    lowercase (formatUsername nickname value) = formatUsername (lowercase nickname) value := by
  have hkept : lowercase (discriminatorText value) = discriminatorText value := by
    refine (map_congr_left fun code hmem => if_neg ?_).trans (map_id _)
    have hdigit := isDigit_iff.mp (discriminatorText_isDigit hmem)
    rw [isUpper_iff]
    omega
  rw [formatUsername, lowercase, map_append, map_cons]
  exact congrArg (lowercase nickname ++ unit '.' :: ·) hkept

theorem formatUsername_inj {value count : ℕ} :
    formatUsername nickname value = formatUsername other count ↔
      nickname = other ∧ value = count := by
  constructor
  · intro heq
    have hdots := congrArg (afterLast (unit '.')) heq
    have hclear : ∀ value : ℕ, unit '.' ∉ discriminatorText value := fun _ =>
      dot_not_mem fun _ => discriminatorText_isDigit
    rw [formatUsername, formatUsername, afterLast_append (hclear value),
      afterLast_append (hclear count)] at hdots
    rw [formatUsername, formatUsername, hdots, append_cancel_right_eq] at heq
    refine ⟨heq, ?_⟩
    rw [← decimalValue_discriminatorText value, hdots, decimalValue_discriminatorText]
  · rintro ⟨rfl, rfl⟩
    rfl

theorem usernameScalars_ok (shaScalar : Bytes → ℕ) {sum : ℕ}
    (hnickname : validateNickname nickname = .ok ())
    (hdisc : validateDiscriminator discriminator = .ok ())
    (hsum : toBase37Scalar nickname = .ok sum) :
    usernameScalars shaScalar nickname discriminator =
      .ok ⟨shaScalar (usernameBytes nickname discriminator), sum,
        discriminator.toNat % groupOrder⟩ := by
  rw [usernameScalars, hnickname, hdisc, hsum]
  rfl

/-- A username whose discriminator has other characters than digits is read as another one. -/
theorem username_exact_iff (shaScalar : Bytes → ℕ) (username nickname other : JsString)
    (discriminator otherDiscriminator : ℤ) :
    (parseUsername username = .ok (nickname, discriminator) →
      (username = formatUsername nickname discriminator ↔
        ∀ code ∈ afterLast (unit '.') username, isDigit code = true)) ∧
    (validateNickname nickname = .ok () → (validateDiscriminator discriminator = .ok () →
        parseUsername (formatUsername nickname discriminator) = .ok (nickname, discriminator)) ∧
      (∃ sum < groupOrder, toBase37Sum nickname = .ok sum ∧ toBase37Scalar nickname = .ok sum) ∧
      (validateNickname other = .ok () →
        (toBase37Scalar nickname = toBase37Scalar other ↔ lowercase nickname = lowercase other) ∧
        (validateDiscriminator discriminator = .ok () →
          validateDiscriminator otherDiscriminator = .ok () →
          ∃ scalars others, usernameScalars shaScalar nickname discriminator = .ok scalars ∧
            usernameScalars shaScalar other otherDiscriminator = .ok others ∧
            (scalars.s1 = others.s1 ∧ scalars.s2 = others.s2 ↔
              lowercase (formatUsername nickname discriminator) =
                lowercase (formatUsername other otherDiscriminator))))) := by
  refine ⟨eq_formatUsername_iff, fun hnickname => ⟨parse_formatUsername hnickname,
    toBase37Scalar_eq hnickname, fun hother => ⟨toBase37Scalar_inj hnickname hother,
      fun hdiscriminator hotherDiscriminator => ?_⟩⟩⟩
  obtain ⟨sum, -, -, hsum⟩ := toBase37Scalar_eq hnickname
  obtain ⟨sum', -, -, hsum'⟩ := toBase37Scalar_eq hother
  have hinj := toBase37Scalar_inj hnickname hother
  have hbounds := validateDiscriminator_eq_ok_iff.mp hdiscriminator
  have hbounds' := validateDiscriminator_eq_ok_iff.mp hotherDiscriminator
  rw [hsum, hsum', Except.ok.injEq] at hinj
  refine ⟨_, _, usernameScalars_ok shaScalar hnickname hdiscriminator hsum,
    usernameScalars_ok shaScalar hother hotherDiscriminator hsum', ?_⟩
  obtain ⟨value, rfl⟩ := Int.eq_ofNat_of_zero_le (by omega : 0 ≤ discriminator)
  obtain ⟨count, rfl⟩ := Int.eq_ofNat_of_zero_le (by omega : 0 ≤ otherDiscriminator)
  rw [lowercase_formatUsername, lowercase_formatUsername, formatUsername_inj, hinj]
  refine and_congr_right fun _ => ?_
  simp only [Int.toNat_natCast, groupOrder, maxDiscriminator] at hbounds hbounds' ⊢
  omega

theorem username_exact_of_tiger :
    (validateNickname (units "Tiger") = .ok () ∧ validateNickname (units "tiger") = .ok () ∧
      validateDiscriminator 7 = .ok ()) ∧
    parseUsername (units "Tiger.07") = .ok (units "Tiger", 7) ∧
    units "Tiger.07" = formatUsername (units "Tiger") 7 ∧
    toBase37Scalar (units "Tiger") = toBase37Scalar (units "tiger") := by
  obtain ⟨hread, hvalid⟩ := username_exact_iff (fun _ => 0) (units "Tiger.07") (units "Tiger")
    (units "tiger") 7 7
  exact ⟨⟨rfl, rfl, rfl⟩, (hvalid rfl).1 rfl, (hread rfl).mpr (all_eq_true.mp rfl),
    ((hvalid rfl).2.2 rfl).1.mpr rfl⟩

theorem accepts_trailing_text :
    ¬ ∀ (username nickname : JsString) (discriminator : ℤ),
      parseUsername username = .ok (nickname, discriminator) →
        username = formatUsername nickname discriminator := by
  intro hexact
  have hformat := hexact (units "abc.42x") (units "abc") 42 rfl
  revert hformat
  decide

end SignalProtocol.Username

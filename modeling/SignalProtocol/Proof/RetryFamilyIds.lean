import Mathlib.Data.List.Induction
import SignalProtocol.Proof.KeyTexts
import SignalProtocol.Retry.Ledger

/-! # The IDs of a retry family name their members

An ID is the fields of its member, joined by colons, and the split of an ID gives the fields back.
-/

namespace SignalProtocol.Retry

open KeyValue List

variable {id : EnvelopeId} {number : List Char} {member : RetryFamilyMember}

theorem memberAttempt_digits {attempt : ℕ} (hattempt : memberAttempt number = some attempt) :
    number.head? ≠ some '0' ∧ (∀ char ∈ number, char.isDigit = true) ∧ 2 ≤ attempt ∧
      Nat.ofDigitChars 10 number 0 = attempt := by
  unfold memberAttempt at hattempt
  split at hattempt
  · cases hattempt
  · next hdigits =>
    rw [Bool.or_eq_true, not_or] at hdigits
    obtain ⟨hval, hbound⟩ := Option.filter_eq_some_iff.mp hattempt
    refine ⟨by simpa using hdigits.1, ?_, by simpa using hbound, Option.some.inj hval⟩
    simpa using hdigits.2

theorem ofDigitChars_snoc (number : List Char) (digit : Char) :
    Nat.ofDigitChars 10 (number ++ [digit]) 0 =
      10 * Nat.ofDigitChars 10 number 0 + (digit.toNat - '0'.toNat) := by
  rw [Nat.ofDigitChars_append]
  rfl

theorem digitChar_of_isDigit {digit : Char} (hdigit : digit.isDigit = true) :
    digit.toNat - '0'.toNat < 10 ∧ Nat.digitChar (digit.toNat - '0'.toNat) = digit := by
  have hrange : '0'.toNat ≤ digit.toNat ∧ digit.toNat ≤ '9'.toNat := by
    simpa [Char.isDigit, UInt32.le_iff_toNat_le] using hdigit
  obtain ⟨value, hval⟩ := Nat.exists_eq_add_of_le hrange.1
  have hbound : value < 10 := by
    have hnine : '9'.toNat = '0'.toNat + 9 := rfl
    omega
  rw [hval, Nat.add_sub_cancel_left]
  refine ⟨hbound, ?_⟩
  have hdigitChar : ∀ number < 10, Nat.digitChar number = Char.ofNat ('0'.toNat + number) := by
    decide
  rw [hdigitChar value hbound, ← hval, Char.ofNat_toNat]

theorem decimal_ofDigitChars (hne : number ≠ [])
    (hzero : number.head? ≠ some '0') (hdigits : ∀ char ∈ number, char.isDigit = true) :
    decimal (Nat.ofDigitChars 10 number 0) = number ∧ 0 < Nat.ofDigitChars 10 number 0 := by
  induction number using List.reverseRecOn with
  | nil => exact absurd rfl hne
  | append_singleton number digit ih =>
    obtain ⟨hbound, hchar⟩ := digitChar_of_isDigit
      (hdigits digit (mem_append_right _ mem_cons_self))
    rw [ofDigitChars_snoc]
    generalize digit.toNat - '0'.toNat = value at hbound hchar
    cases number with
    | nil =>
      have hpos : value ≠ 0 := by
        rintro rfl
        exact hzero (congrArg some hchar.symm)
      rw [decimal, Nat.ofDigitChars_nil, Nat.toDigits_of_lt_base (by omega)]
      simp [hchar]
      omega
    | cons first rest =>
      obtain ⟨htext, hpos⟩ := ih (cons_ne_nil _ _) hzero fun char hmem =>
        hdigits char (mem_append_left _ hmem)
      refine ⟨?_, by omega⟩
      rw [decimal, ← Nat.toDigits_append_toDigits (by decide) hpos hbound,
        Nat.toDigits_of_lt_base hbound, hchar]
      exact congrArg (· ++ [digit]) htext

theorem head?_decimal_ne {number : ℕ} (hpos : 0 < number) : (decimal number).head? ≠ some '0' := by
  induction number using Nat.strongRecOn with
  | ind number ih =>
    rw [decimal]
    by_cases hdigit : number < 10
    · rw [Nat.toDigits_of_lt_base hdigit]
      intro hzero
      have hval := Nat.digitChar_eq_zero.mp (Option.some.inj hzero)
      omega
    · have hrest := ih (number / 10) (by omega) (by omega)
      rw [Nat.toDigits_of_base_le (by decide) (by omega),
        head?_append_of_ne_nil _ Nat.toDigits_ne_nil]
      exact hrest

theorem memberAttempt_eq_some_iff {attempt : ℕ} :
    memberAttempt number = some attempt ↔ 2 ≤ attempt ∧ number = decimal attempt := by
  constructor
  · intro hattempt
    obtain ⟨hzero, hdigits, hbound, rfl⟩ := memberAttempt_digits hattempt
    refine ⟨hbound, (decimal_ofDigitChars ?_ hzero hdigits).1.symm⟩
    rintro rfl
    simp at hbound
  · rintro ⟨hbound, rfl⟩
    have hfst := head?_decimal_ne (Nat.lt_of_lt_of_le Nat.two_pos hbound)
    rw [memberAttempt, if_neg]
    · have hval : Nat.ofDigitChars 10 (decimal attempt) 0 = attempt :=
        Nat.ofDigitChars_ten_toDigits
      rw [← Nat.ofDigitChars_eq_foldl, hval]
      simp [hbound]
    · rw [Bool.or_eq_true, not_or]
      refine ⟨by simpa using hfst, ?_⟩
      simpa using fun char hmem => isDigit_of_mem_decimal hmem

def MemberKind.text : MemberKind → List Char
  | .retryRequest => "retry-request".toList
  | .resend => "resend".toList
  | .null => "null".toList

theorem memberKind_eq_some_iff {name : List Char} {kind : MemberKind} :
    memberKind name = some kind ↔ name = kind.text := by
  unfold memberKind
  constructor
  · intro hkind
    split_ifs at hkind with hreq hresend hnull <;> cases hkind
    · exact hreq
    · exact hresend
    · exact hnull
  · rintro rfl
    cases kind <;> rfl

theorem colon_not_mem_kind (kind : MemberKind) : ':' ∉ kind.text := by
  cases kind <;> decide

def attemptText (attempt : ℕ) : List (List Char) :=
  if attempt = 1 then [] else [decimal attempt]

def memberFields (member : RetryFamilyMember) : List (List Char) :=
  member.kind.text :: attemptText member.attempt

theorem splitOn_kind (kind : MemberKind) : kind.text.splitOn ':' = [kind.text] :=
  List.splitOn_eq_singleton (colon_not_mem_kind kind)

theorem toList_kindId (kind : MemberKind) (retryId : RetryId) :
    (kind.clientMessageId retryId).toList = retryId.toList ++ ':' :: kind.text := by
  cases kind with
  | retryRequest =>
    have htext : ":retry-request".toList = ':' :: "retry-request".toList := by decide
    exact String.toList_append.trans (congrArg (retryId.toList ++ ·) htext)
  | resend =>
    have htext : ":resend".toList = ':' :: "resend".toList := by decide
    exact String.toList_append.trans (congrArg (retryId.toList ++ ·) htext)
  | null =>
    have htext : ":null".toList = ':' :: "null".toList := by decide
    exact String.toList_append.trans (congrArg (retryId.toList ++ ·) htext)

theorem splitOn_clientMessageId (hid : member.clientMessageId = .ok id) :
    id.toList.splitOn ':' = member.retryId.toList.splitOn ':' ++ memberFields member := by
  have hkind := toList_kindId member.kind member.retryId
  unfold RetryFamilyMember.clientMessageId retryAttemptClientMessageId at hid
  split at hid
  · cases hid
  cases hid
  unfold memberFields attemptText
  split
  · rw [hkind, List.splitOn_append_cons_self, splitOn_kind]
  · have hdecimal : (decimal member.attempt).splitOn ':' = [decimal member.attempt] :=
      List.splitOn_eq_singleton (colon_not_mem_decimal member.attempt)
    calc (member.kind.clientMessageId member.retryId ++ ":" ++
          toString member.attempt).toList.splitOn ':'
        = (member.retryId.toList ++
            ':' :: (member.kind.text ++ ':' :: decimal member.attempt)).splitOn ':' := by
          simp [hkind, decimal]
      _ = member.retryId.toList.splitOn ':' ++
            (member.kind.text.splitOn ':' ++ (decimal member.attempt).splitOn ':') := by
          rw [List.splitOn_append_cons_self, List.splitOn_append_cons_self]
      _ = _ := by
          rw [splitOn_kind, hdecimal]
          rfl

theorem clientMessageId_eq_ok_iff :
    member.clientMessageId = .ok id ↔ 1 ≤ member.attempt ∧ member.attempt ≤ MAX_SAFE_INTEGER ∧
      id.toList.splitOn ':' = member.retryId.toList.splitOn ':' ++ memberFields member := by
  constructor
  · intro hid
    refine ⟨?_, ?_, splitOn_clientMessageId hid⟩
    all_goals
      unfold RetryFamilyMember.clientMessageId retryAttemptClientMessageId at hid
      split at hid
      · cases hid
      · omega
  · rintro ⟨hone, hsafe, hfields⟩
    have hok : ∃ built, member.clientMessageId = .ok built := by
      unfold RetryFamilyMember.clientMessageId retryAttemptClientMessageId
      rw [if_neg (by omega)]
      exact ⟨_, rfl⟩
    obtain ⟨built, hbuilt⟩ := hok
    have hsame : built.toList = id.toList :=
      JoinedText.splitOn_inj.mp ((splitOn_clientMessageId hbuilt).trans hfields.symm)
    rw [hbuilt, String.toList_inj.mp hsame]

theorem colon_not_mem_retryId {retryId : List Char} (hretryId : isRetryId retryId = true) :
    ':' ∉ retryId := by
  rw [isRetryId, Bool.and_eq_true, all_eq_true] at hretryId
  intro hcolon
  have htext : ['-'].intercalate (retryId.splitOn '-') = retryId := intercalate_splitOn '-'
  rw [← htext] at hcolon
  obtain hdash | ⟨part, hpart, hcolon⟩ := JoinedText.mem_intercalate hcolon
  · revert hdash
    decide
  · have hhex := all_eq_true.mp (hretryId.2 part hpart) ':' hcolon
    revert hhex
    decide

theorem retryFamilyMember_eq_some_iff :
    retryFamilyMember id = some member ↔ isRetryId member.retryId.toList = true ∧
      1 ≤ member.attempt ∧ id.toList.splitOn ':' = member.retryId.toList :: memberFields member := by
  unfold retryFamilyMember memberFields attemptText
  constructor
  · intro hmember
    split at hmember
    · next retryId kind hfields =>
      split at hmember
      · next hretryId =>
        obtain ⟨first, hkind, rfl⟩ := Option.map_eq_some_iff.mp hmember
        rw [memberKind_eq_some_iff] at hkind
        simp [hretryId, hfields, hkind]
      · cases hmember
    · next retryId kind number hfields =>
      split at hmember
      · next hretryId =>
        obtain ⟨first, hkind, hmember⟩ := Option.bind_eq_some_iff.mp hmember
        obtain ⟨attempt, hattempt, hmember⟩ := Option.bind_eq_some_iff.mp hmember
        cases hmember
        rw [memberKind_eq_some_iff] at hkind
        rw [memberAttempt_eq_some_iff] at hattempt
        have hne : attempt ≠ 1 := by omega
        have hone : 1 ≤ attempt := by omega
        simp [hretryId, hfields, hkind, hattempt.2, hne, hone]
      · cases hmember
    · cases hmember
  · rintro ⟨hretryId, hone, hfields⟩
    have hkind : memberKind member.kind.text = some member.kind := memberKind_eq_some_iff.mpr rfl
    split at hfields
    · next hattempt =>
      rw [hfields]
      simp [hretryId, hkind, ← hattempt]
    · next hattempt =>
      rw [hfields]
      have hnum := memberAttempt_eq_some_iff.mpr ⟨(by omega : 2 ≤ member.attempt), rfl⟩
      simp [hretryId, hkind, hnum]

theorem kind_ne_decimal (kind : MemberKind) (number : ℕ) : kind.text ≠ decimal number := by
  intro htext
  have hletter : ∃ char ∈ kind.text, char.isDigit = false := by
    cases kind with
    | retryRequest => exact ⟨'r', by decide, rfl⟩
    | resend => exact ⟨'r', by decide, rfl⟩
    | null => exact ⟨'n', by decide, rfl⟩
  obtain ⟨char, hmem, hletter⟩ := hletter
  rw [isDigit_of_mem_decimal (htext ▸ hmem)] at hletter
  cases hletter

/-- The last fields of an ID tell the kind and the attempt, whatever the ID starts from. -/
theorem memberFields_inj {front rest : List (List Char)} {other : RetryFamilyMember}
    (heq : front ++ memberFields member = rest ++ memberFields other) :
    front = rest ∧ member.kind = other.kind ∧ member.attempt = other.attempt := by
  have hkind : ∀ first second : MemberKind, first.text = second.text → first = second := by
    intro first second htext
    exact Option.some.inj ((memberKind_eq_some_iff.mpr rfl).symm.trans
      (memberKind_eq_some_iff.mpr htext))
  unfold memberFields attemptText at heq
  split at heq <;> split at heq
  · next hfst hsnd =>
    obtain ⟨hfront, htext⟩ := append_inj' heq rfl
    exact ⟨hfront, hkind _ _ (List.cons.inj htext).1, hfst.trans hsnd.symm⟩
  · have hlast : front ++ [member.kind.text] =
        (rest ++ [other.kind.text]) ++ [decimal other.attempt] := by
      simpa using heq
    replace hlast := (append_inj' hlast rfl).2
    exact absurd (List.cons.inj hlast).1 (kind_ne_decimal member.kind other.attempt)
  · have hlast : (front ++ [member.kind.text]) ++ [decimal member.attempt] =
        rest ++ [other.kind.text] := by
      simpa using heq
    replace hlast := (append_inj' hlast rfl).2
    exact absurd (List.cons.inj hlast).1.symm (kind_ne_decimal other.kind member.attempt)
  · obtain ⟨hfront, hfields⟩ := append_inj' heq rfl
    obtain ⟨htext, hnum⟩ := List.cons.inj hfields
    exact ⟨hfront, hkind _ _ htext, decimal_inj.mp (List.cons.inj hnum).1⟩

/-- Two members with one ID are one member, also where a retry ID is any text. -/
theorem clientMessageId_inj {other : RetryFamilyMember}
    (hmember : member.clientMessageId = .ok id) (hother : other.clientMessageId = .ok id) :
    member = other := by
  have hfields := splitOn_clientMessageId hmember
  rw [splitOn_clientMessageId hother] at hfields
  obtain ⟨hsplit, hkind, hattempt⟩ := memberFields_inj hfields
  have hretryId : other.retryId.toList = member.retryId.toList :=
    JoinedText.splitOn_inj.mp hsplit
  cases member
  cases other
  simp_all [String.toList_inj]

theorem retryFamilyMember_of_clientMessageId (hid : member.clientMessageId = .ok id) :
    retryFamilyMember id = if isRetryId member.retryId.toList then some member else none := by
  obtain ⟨hone, hsafe, hfields⟩ := clientMessageId_eq_ok_iff.mp hid
  split
  · next hretryId =>
    rw [List.splitOn_eq_singleton (colon_not_mem_retryId hretryId)] at hfields
    exact retryFamilyMember_eq_some_iff.mpr ⟨hretryId, hone, hfields⟩
  · next hretryId =>
    cases hread : retryFamilyMember id with
    | none => rfl
    | some read =>
      obtain ⟨hreadId, hreadOne, hreadFields⟩ := retryFamilyMember_eq_some_iff.mp hread
      rw [hfields, ← singleton_append] at hreadFields
      have hsplit := (memberFields_inj hreadFields).1
      have htext : [':'].intercalate (member.retryId.toList.splitOn ':') =
          member.retryId.toList := intercalate_splitOn ':'
      rw [hsplit, intercalate_singleton] at htext
      exact absurd (htext ▸ hreadId) hretryId

theorem clientMessageId_of_retryFamilyMember (hread : retryFamilyMember id = some member)
    (hsafe : member.attempt ≤ MAX_SAFE_INTEGER) : member.clientMessageId = .ok id := by
  obtain ⟨hretryId, hone, hfields⟩ := retryFamilyMember_eq_some_iff.mp hread
  refine clientMessageId_eq_ok_iff.mpr ⟨hone, hsafe, ?_⟩
  rw [List.splitOn_eq_singleton (colon_not_mem_retryId hretryId)]
  exact hfields

/-- On retry IDs and safe attempts the builders and `retryFamilyMember` are inverse, and no two
members share an ID. -/
theorem retryFamily_invertible :
    (∀ member : RetryFamilyMember, 1 ≤ member.attempt → member.attempt ≤ MAX_SAFE_INTEGER →
      ∃ id, member.clientMessageId = .ok id ∧
        retryFamilyMember id = if isRetryId member.retryId.toList then some member else none) ∧
      (∀ (member other : RetryFamilyMember) (id : EnvelopeId), member.clientMessageId = .ok id →
        other.clientMessageId = .ok id → member = other) ∧
      ∀ (id : EnvelopeId) (member : RetryFamilyMember), retryFamilyMember id = some member →
        isRetryId member.retryId.toList = true ∧
          (member.clientMessageId = .ok id ↔ member.attempt ≤ MAX_SAFE_INTEGER) := by
  refine ⟨?_, fun member other id => clientMessageId_inj, ?_⟩
  · intro member hone hsafe
    have hbuilt : ∃ id, member.clientMessageId = .ok id := by
      unfold RetryFamilyMember.clientMessageId retryAttemptClientMessageId
      rw [if_neg (by omega)]
      exact ⟨_, rfl⟩
    obtain ⟨id, hid⟩ := hbuilt
    exact ⟨id, hid, retryFamilyMember_of_clientMessageId hid⟩
  · intro id member hread
    refine ⟨(retryFamilyMember_eq_some_iff.mp hread).1, ?_⟩
    constructor
    · intro hid
      exact (clientMessageId_eq_ok_iff.mp hid).2.1
    · intro hsafe
      exact clientMessageId_of_retryFamilyMember hread hsafe

theorem retryFamily_invertible_resend :
    ∃ id, retryFamilyMember id = some ⟨"01234567-89ab-4def-8123-456789abcdef", .resend, 2⟩ := by
  obtain ⟨id, -, hread⟩ := retryFamily_invertible.1
    ⟨"01234567-89ab-4def-8123-456789abcdef", .resend, 2⟩ (by decide) (by decide)
  rw [if_pos (by decide)] at hread
  exact ⟨id, hread⟩

/-- The ID of another text reads as no member, and `2 ^ 53` is a number that no builder writes. -/
theorem retryFamily_not_invertible :
    (∃ id, retryNullMessageClientMessageId "message" = id ∧
      retryAttemptClientMessageId id 1 = .ok id ∧ retryFamilyMember id = none) ∧
    ∃ id, (retryFamilyMember id).isSome ∧
      ∀ member : RetryFamilyMember, member.clientMessageId ≠ .ok id := by
  refine ⟨⟨_, rfl, rfl, by decide⟩,
    "01234567-89ab-4def-8123-456789abcdef:resend:9007199254740992", ?_⟩
  have hread : retryFamilyMember "01234567-89ab-4def-8123-456789abcdef:resend:9007199254740992" =
      some ⟨"01234567-89ab-4def-8123-456789abcdef", .resend, 9007199254740992⟩ := by
    decide
  refine ⟨by rw [hread]; rfl, ?_⟩
  intro member hid
  have hread' := retryFamilyMember_of_clientMessageId hid
  rw [hread] at hread'
  split at hread'
  · obtain rfl := Option.some.inj hread'
    exact absurd (clientMessageId_eq_ok_iff.mp hid).2.1 (by decide)
  · cases hread'

end SignalProtocol.Retry

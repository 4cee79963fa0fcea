import SignalProtocol.KeyValue.Keys

/-! # Texts of the storage keys

The texts of the keys that the store writes are different for different kinds and identifiers, and
its scans and splits find in a text what the key stands for. -/

namespace SignalProtocol.KeyValue

open JoinedText List

variable {char : Char} {first : String} {number : ℕ} (value : String) (chars : KeyText)

def escapeChar (char : Char) : KeyText :=
  if char = '%' then "%25".toList else if char = ':' then "%3A".toList else [char]

theorem escapeKeyComponent_eq :
    escapeKeyComponent value = value.toList.flatMap escapeChar := by
  rw [escapeKeyComponent, flatMap_assoc]
  congr 1
  funext char
  by_cases hpercent : char = '%'
  · subst hpercent
    decide
  · rw [if_neg hpercent, escapeChar, if_neg hpercent, flatMap_singleton]

theorem colon_not_mem_escape : ':' ∉ escapeKeyComponent value := by
  rw [escapeKeyComponent_eq, mem_flatMap]
  rintro ⟨char, -, hchar⟩
  rw [escapeChar] at hchar
  split at hchar
  · revert hchar
    decide
  · split at hchar
    · revert hchar
      decide
    · rename_i hcolon
      exact hcolon (mem_singleton.mp hchar).symm

theorem replaceEscape_cons_of_ne {first second replacement : Char} (hchar : char ≠ '%')
    (rest : KeyText) :
    replaceEscape first second replacement (char :: rest) =
      char :: replaceEscape first second replacement rest := by
  rw [replaceEscape]
  rintro next after tail rfl
  exact absurd rfl hchar

def escapePercent (char : Char) : KeyText := if char = '%' then "%25".toList else [char]

theorem replaceEscape_colon :
    replaceEscape '3' 'A' ':' (chars.flatMap escapeChar) = chars.flatMap escapePercent := by
  induction chars with
  | nil => rfl
  | cons char chars ih =>
    rw [flatMap_cons, flatMap_cons, escapeChar, escapePercent]
    by_cases hpercent : char = '%'
    · rw [if_pos hpercent, if_pos hpercent]
      change replaceEscape '3' 'A' ':' ('%' :: '2' :: '5' :: chars.flatMap escapeChar) =
        '%' :: '2' :: '5' :: chars.flatMap escapePercent
      rw [replaceEscape, if_neg (by decide), replaceEscape_cons_of_ne (by decide),
        replaceEscape_cons_of_ne (by decide), ih]
    · rw [if_neg hpercent, if_neg hpercent]
      by_cases hcolon : char = ':'
      · subst hcolon
        change replaceEscape '3' 'A' ':' ('%' :: '3' :: 'A' :: chars.flatMap escapeChar) =
          ':' :: chars.flatMap escapePercent
        rw [replaceEscape, if_pos ⟨rfl, rfl⟩, ih]
      · rw [if_neg hcolon, singleton_append, replaceEscape_cons_of_ne hpercent, ih,
          singleton_append]

theorem replaceEscape_percent :
    replaceEscape '2' '5' '%' (chars.flatMap escapePercent) = chars := by
  induction chars with
  | nil => rfl
  | cons char chars ih =>
    rw [flatMap_cons, escapePercent]
    by_cases hpercent : char = '%'
    · subst hpercent
      change replaceEscape '2' '5' '%' ('%' :: '2' :: '5' :: chars.flatMap escapePercent) =
        '%' :: chars
      rw [replaceEscape, if_pos ⟨rfl, rfl⟩, ih]
    · rw [if_neg hpercent, singleton_append, replaceEscape_cons_of_ne hpercent, ih]

@[simp] theorem unescape_escape :
    unescapeKeyComponent (escapeKeyComponent value) = value := by
  rw [unescapeKeyComponent, escapeKeyComponent_eq, replaceEscape_colon, replaceEscape_percent,
    String.ofList_toList]

theorem escape_inj {value other : String} :
    escapeKeyComponent value = escapeKeyComponent other ↔ value = other := by
  constructor
  · intro heq
    simpa using congrArg unescapeKeyComponent heq
  · exact congrArg escapeKeyComponent

theorem escape_eq_nil_iff : escapeKeyComponent value = [] ↔ value = "" := by
  constructor
  · intro hnil
    have hval := unescape_escape value
    rw [hnil] at hval
    exact hval.symm
  · rintro rfl
    rfl

theorem isDigit_of_mem_decimal (hchar : char ∈ decimal number) : char.isDigit = true :=
  Nat.isDigit_of_mem_toDigits (by decide) (by decide) hchar

theorem not_mem_decimal (hchar : char.isDigit = false) (number : ℕ) : char ∉ decimal number := by
  intro hmem
  rw [isDigit_of_mem_decimal hmem] at hchar
  cases hchar

theorem colon_not_mem_decimal (number : ℕ) : ':' ∉ decimal number := not_mem_decimal rfl number

theorem numberOf_decimal (number : ℕ) : numberOf (decimal number) = some number := by
  rw [numberOf, if_pos]
  · rw [decimal, Nat.ofDigitChars_ten_toDigits]
  · refine ⟨Nat.toDigits_ne_nil, ?_⟩
    rw [all_eq_true]
    exact fun char hchar => isDigit_of_mem_decimal hchar

theorem decimal_inj {other : ℕ} : decimal number = decimal other ↔ number = other := by
  constructor
  · intro heq
    have hnum := numberOf_decimal number
    rw [heq, numberOf_decimal other] at hnum
    exact (Option.some.inj hnum).symm
  · exact congrArg decimal

theorem colon_not_mem_identityType (identityType : IdentityType) : ':' ∉ identityType.text := by
  cases identityType <;> decide

theorem identityType_text_inj {first second : IdentityType} :
    first.text = second.text ↔ first = second := by
  cases first <;> cases second <;> decide

theorem colon_not_mem_preKeyKind (kind : PreKeyKind) : ':' ∉ kind.text := by
  cases kind <;> decide

theorem preKeyKind_text_inj {first second : PreKeyKind} :
    first.text = second.text ↔ first = second := by
  cases first <;> cases second <;> decide

theorem toList_inj {second : String} : first.toList = second.toList ↔ first = second :=
  String.toList_inj

inductive KeyKind where
  | contact
  | preKeys
  | session
  | sesameUser
  | senderKeyRecord
  | senderKeyIdPointer
  | skippedSenderKey
  | messageRecord
  | metadata
  deriving DecidableEq

def KeyKind.start : KeyKind → KeyText
  | contact => contactV1Prefix
  | preKeys => prekeyPrefix
  | session => sessionPrefix
  | sesameUser => sesameUserPrefix
  | senderKeyRecord => senderKeyRecordPrefix
  | senderKeyIdPointer => senderKeyIdIndexPrefix
  | skippedSenderKey => skippedSenderKeyPrefix
  | messageRecord => messageRecordPrefix
  | metadata => metadataPrefix

def KeyKind.all : List KeyKind :=
  [contact, preKeys, session, sesameUser, senderKeyRecord, senderKeyIdPointer, skippedSenderKey,
    messageRecord, metadata]

theorem KeyKind.mem_all (kind : KeyKind) : kind ∈ KeyKind.all := by
  cases kind <;> decide

theorem KeyKind.start_free (first second : KeyKind) :
    first.start <+: second.start → first = second := by
  have hall : ∀ first ∈ KeyKind.all, ∀ second ∈ KeyKind.all,
      first.start.isPrefixOf second.start = true → first = second := by
    decide
  rw [← isPrefixOf_iff_prefix]
  exact hall first first.mem_all second second.mem_all

def StorageKey.kind? : StorageKey → Option KeyKind
  | contact _ _ => some .contact
  | obsoleteContact _ => none
  | preKeys _ _ => some .preKeys
  | session _ _ => some .session
  | sesameUser _ => some .sesameUser
  | senderKeyRecord _ => some .senderKeyRecord
  | senderKeyIdPointer _ _ _ => some .senderKeyIdPointer
  | skippedSenderKey _ _ _ _ _ => some .skippedSenderKey
  | messageRecord _ _ => some .messageRecord
  | metadata _ => some .metadata

def StorageKey.body : StorageKey → KeyText
  | contact userId identityType => userId.toList ++ ':' :: identityType.text
  | obsoleteContact userId => userId.toList
  | preKeys kind identityType => kind.text ++ ':' :: identityType.text
  | session userId deviceId => userId.toList ++ '.' :: decimal deviceId
  | sesameUser userId => userId.toList
  | senderKeyRecord place =>
    escapeKeyComponent place.groupId ++ ':' ::
      (escapeKeyComponent place.userId ++ ':' :: decimal place.deviceId)
  | senderKeyIdPointer senderKeyId userId deviceId =>
    escapeKeyComponent senderKeyId ++ ':' ::
      (decimal deviceId ++ ':' :: escapeKeyComponent userId)
  | skippedSenderKey groupId senderId senderDeviceId senderKeyId chainIndex =>
    escapeKeyComponent groupId ++ ':' :: (escapeKeyComponent senderId ++ ':' ::
      (decimal senderDeviceId ++ ':' ::
        (escapeKeyComponent senderKeyId ++ ':' :: decimal chainIndex)))
  | messageRecord sessionId timestamp =>
    escapeKeyComponent sessionId ++ ':' :: decimal timestamp
  | metadata key => key.toList

/-- A key of a record that the store writes. -/
def StorageKey.Stored (key : StorageKey) : Prop := key.kind?.isSome

theorem StorageKey.text_eq {key : StorageKey} {kind : KeyKind} (hkind : key.kind? = some kind) :
    key.text = kind.start ++ key.body := by
  cases key <;> cases hkind <;>
    simp [StorageKey.text, StorageKey.body, KeyKind.start, getContactStorageKey,
      getPreKeyStorageKey, getSessionStorageKey, serializeAddress, getSesameUserStorageKey,
      getSenderKeyRecordStorageKey, getSenderKeyRecordGroupPrefix, getSenderKeyIdPointerKey,
      getSkippedSenderKeyStorageKey, getSkippedSenderKeyPrefix, getSkippedSenderKeyGroupPrefix,
      getMessageRecordStorageKey, getMessageRecordSessionPrefix, getMetadataStorageKey]

theorem StorageKey.body_inj {key other : StorageKey} {kind : KeyKind}
    (hkey : key.kind? = some kind) (hother : other.kind? = some kind)
    (hbody : key.body = other.body) : key = other := by
  cases key <;> cases hkey <;> cases other <;> cases hother <;>
    simp only [StorageKey.body] at hbody
  case contact =>
    obtain ⟨huser, htype⟩ := (concat_inj (colon_not_mem_identityType _)
      (colon_not_mem_identityType _)).mp hbody
    rw [toList_inj.mp huser, identityType_text_inj.mp htype]
  case preKeys =>
    obtain ⟨hkind, htype⟩ := (cons_inj (colon_not_mem_preKeyKind _)
      (colon_not_mem_preKeyKind _)).mp hbody
    rw [preKeyKind_text_inj.mp hkind, identityType_text_inj.mp htype]
  case session =>
    obtain ⟨huser, hdev⟩ := (concat_inj (not_mem_decimal rfl _) (not_mem_decimal rfl _)).mp hbody
    rw [toList_inj.mp huser, decimal_inj.mp hdev]
  case sesameUser => rw [toList_inj.mp hbody]
  case senderKeyRecord place otherPlace =>
    obtain ⟨hgroup, hrest⟩ := (cons_inj (colon_not_mem_escape _) (colon_not_mem_escape _)).mp hbody
    obtain ⟨huser, hdev⟩ := (cons_inj (colon_not_mem_escape _) (colon_not_mem_escape _)).mp hrest
    obtain ⟨groupId, userId, deviceId⟩ := place
    obtain ⟨otherGroup, otherUser, otherDevice⟩ := otherPlace
    rw [escape_inj] at hgroup huser
    rw [decimal_inj] at hdev
    dsimp only at hgroup huser hdev
    rw [hgroup, huser, hdev]
  case senderKeyIdPointer =>
    obtain ⟨hid, hrest⟩ := (cons_inj (colon_not_mem_escape _) (colon_not_mem_escape _)).mp hbody
    obtain ⟨hdev, huser⟩ := (cons_inj (colon_not_mem_decimal _) (colon_not_mem_decimal _)).mp
      hrest
    rw [escape_inj.mp hid, decimal_inj.mp hdev, escape_inj.mp huser]
  case skippedSenderKey =>
    obtain ⟨hgroup, hrest⟩ := (cons_inj (colon_not_mem_escape _) (colon_not_mem_escape _)).mp hbody
    obtain ⟨hsender, hrest⟩ := (cons_inj (colon_not_mem_escape _) (colon_not_mem_escape _)).mp hrest
    obtain ⟨hdev, hrest⟩ := (cons_inj (colon_not_mem_decimal _) (colon_not_mem_decimal _)).mp
      hrest
    obtain ⟨hid, hidx⟩ := (cons_inj (colon_not_mem_escape _) (colon_not_mem_escape _)).mp hrest
    rw [escape_inj.mp hgroup, escape_inj.mp hsender, decimal_inj.mp hdev, escape_inj.mp hid,
      decimal_inj.mp hidx]
  case messageRecord =>
    obtain ⟨hsess, hstamp⟩ := (cons_inj (colon_not_mem_escape _) (colon_not_mem_escape _)).mp hbody
    rw [escape_inj.mp hsess, decimal_inj.mp hstamp]
  case metadata => rw [toList_inj.mp hbody]

theorem StorageKey.text_inj {key other : StorageKey} (hkey : key.Stored) (hother : other.Stored)
    (htext : key.text = other.text) : key = other := by
  obtain ⟨kind, hkind⟩ := Option.isSome_iff_exists.mp hkey
  obtain ⟨otherKind, hotherKind⟩ := Option.isSome_iff_exists.mp hother
  rw [text_eq hkind, text_eq hotherKind] at htext
  obtain ⟨rfl, hbody⟩ := (prefix_inj KeyKind.start_free).mp htext
  exact body_inj hkind hotherKind hbody

theorem startsWith_start_append {key : StorageKey} {kind : KeyKind} (hkind : key.kind? = some kind)
    (scanned : KeyKind) (rest : KeyText) :
    startsWith (scanned.start ++ rest) key.text = true ↔ scanned = kind ∧ rest <+: key.body := by
  rw [startsWith, isPrefixOf_iff_prefix, StorageKey.text_eq hkind]
  constructor
  · rintro ⟨tail, htail⟩
    rw [append_assoc, prefix_inj KeyKind.start_free] at htail
    exact ⟨htail.1, tail, htail.2⟩
  · rintro ⟨rfl, tail, htail⟩
    exact ⟨tail, by rw [append_assoc, htail]⟩

theorem startsWith_start {key : StorageKey} {kind : KeyKind} (hkind : key.kind? = some kind)
    (scanned : KeyKind) : startsWith scanned.start key.text = true ↔ scanned = kind := by
  have happend := startsWith_start_append hkind scanned []
  rw [append_nil] at happend
  rw [happend]
  simp

section Reads

variable {key : StorageKey} (scanned : KeyKind) (groupId : String)

theorem isSession_text (hstored : key.Stored) :
    textLayout.isSession key.text = structuredLayout.isSession key := by
  obtain ⟨kind, hkind⟩ := Option.isSome_iff_exists.mp hstored
  rw [Bool.eq_iff_iff]
  change startsWith KeyKind.session.start key.text = true ↔ _
  rw [startsWith_start hkind]
  cases key <;> cases hkind <;> simp [structuredLayout]

theorem isMessageRecord_text (hstored : key.Stored) :
    textLayout.isMessageRecord key.text = structuredLayout.isMessageRecord key := by
  obtain ⟨kind, hkind⟩ := Option.isSome_iff_exists.mp hstored
  rw [Bool.eq_iff_iff]
  change startsWith KeyKind.messageRecord.start key.text = true ↔ _
  rw [startsWith_start hkind]
  cases key <;> cases hkind <;> simp [structuredLayout]

theorem behind?_start {kind : KeyKind} (hkind : key.kind? = some kind) :
    behind? scanned.start key.text =
      if scanned = kind then some (String.ofList key.body) else none := by
  have hstart := startsWith_start hkind scanned
  by_cases hsame : scanned = kind
  · rw [behind?, if_pos (hstart.mpr hsame), if_pos hsame, StorageKey.text_eq hkind, hsame,
      drop_left]
  · rw [behind?, if_neg (mt hstart.mp hsame), if_neg hsame]

theorem sesameUserId?_text (hstored : key.Stored) :
    textLayout.sesameUserId? key.text = structuredLayout.sesameUserId? key := by
  obtain ⟨kind, hkind⟩ := Option.isSome_iff_exists.mp hstored
  change behind? KeyKind.sesameUser.start key.text = _
  rw [behind?_start .sesameUser hkind]
  cases key <;> cases hkind <;> simp [structuredLayout, StorageKey.body]

theorem metadataKey?_text (hstored : key.Stored) :
    textLayout.metadataKey? key.text = structuredLayout.metadataKey? key := by
  obtain ⟨kind, hkind⟩ := Option.isSome_iff_exists.mp hstored
  change behind? KeyKind.metadata.start key.text = _
  rw [behind?_start .metadata hkind]
  cases key <;> cases hkind <;> simp [structuredLayout, StorageKey.body]

theorem startsWith_field (field : String) {kind : KeyKind} (hkind : key.kind? = some kind)
    {rest : KeyText} (hbody : key.body = escapeKeyComponent first ++ ':' :: rest) :
    startsWith (scanned.start ++ (escapeKeyComponent field ++ [':'])) key.text = true ↔
      scanned = kind ∧ field = first := by
  rw [startsWith_start_append hkind, hbody, isPrefix_iff (colon_not_mem_escape _)
    (colon_not_mem_escape _), escape_inj]
  simp

theorem startsWith_other (rest : KeyText) {kind : KeyKind} (hkind : key.kind? = some kind)
    (hother : scanned ≠ kind) : startsWith (scanned.start ++ rest) key.text = false := by
  rw [← Bool.not_eq_true, startsWith_start_append hkind]
  exact fun hboth => hother hboth.1

theorem inSenderKeyGroup_text (hstored : key.Stored) :
    textLayout.inSenderKeyGroup groupId key.text =
      structuredLayout.inSenderKeyGroup groupId key := by
  obtain ⟨kind, hkind⟩ := Option.isSome_iff_exists.mp hstored
  change startsWith (KeyKind.senderKeyRecord.start ++ (escapeKeyComponent groupId ++ [':']))
    key.text = _
  cases key
  case senderKeyRecord place =>
    rw [Bool.eq_iff_iff, startsWith_field .senderKeyRecord groupId rfl rfl]
    simp [structuredLayout, eq_comm]
  case obsoleteContact => cases hkind
  all_goals exact startsWith_other .senderKeyRecord _ rfl (by decide)

theorem inSkippedGroup_text (hstored : key.Stored) :
    textLayout.inSkippedGroup groupId key.text = structuredLayout.inSkippedGroup groupId key := by
  obtain ⟨kind, hkind⟩ := Option.isSome_iff_exists.mp hstored
  change startsWith (KeyKind.skippedSenderKey.start ++ (escapeKeyComponent groupId ++ [':']))
    key.text = _
  cases key
  case skippedSenderKey group sender device id index =>
    rw [Bool.eq_iff_iff, startsWith_field .skippedSenderKey groupId rfl rfl]
    simp [structuredLayout, eq_comm]
  case obsoleteContact => cases hkind
  all_goals exact startsWith_other .skippedSenderKey _ rfl (by decide)

theorem inMessageSession_text (sessionId : String) (hstored : key.Stored) :
    textLayout.inMessageSession sessionId key.text =
      structuredLayout.inMessageSession sessionId key := by
  obtain ⟨kind, hkind⟩ := Option.isSome_iff_exists.mp hstored
  change startsWith (KeyKind.messageRecord.start ++ (escapeKeyComponent sessionId ++ [':']))
    key.text = _
  cases key
  case messageRecord session timestamp =>
    rw [Bool.eq_iff_iff, startsWith_field .messageRecord sessionId rfl rfl]
    simp [structuredLayout, eq_comm]
  case obsoleteContact => cases hkind
  all_goals exact startsWith_other .messageRecord _ rfl (by decide)

theorem inSkippedSender_text (groupId senderId : String) (senderDeviceId : ℕ)
    (hstored : key.Stored) :
    textLayout.inSkippedSender groupId senderId senderDeviceId key.text =
      structuredLayout.inSkippedSender groupId senderId senderDeviceId key := by
  obtain ⟨kind, hkind⟩ := Option.isSome_iff_exists.mp hstored
  have hscan : textLayout.inSkippedSender groupId senderId senderDeviceId key.text =
      startsWith (KeyKind.skippedSenderKey.start ++ (escapeKeyComponent groupId ++ ':' ::
        (escapeKeyComponent senderId ++ ':' :: (decimal senderDeviceId ++ ':' :: []))))
        key.text := by
    simp [textLayout, getSkippedSenderKeyPrefix, getSkippedSenderKeyGroupPrefix, KeyKind.start]
  rw [hscan]
  cases key
  case skippedSenderKey group sender device id index =>
    rw [Bool.eq_iff_iff, startsWith_start_append rfl, StorageKey.body,
      isPrefix_iff (colon_not_mem_escape _) (colon_not_mem_escape _),
      isPrefix_iff (colon_not_mem_escape _) (colon_not_mem_escape _),
      isPrefix_iff (colon_not_mem_decimal _) (colon_not_mem_decimal _), escape_inj, escape_inj,
      decimal_inj]
    simp only [structuredLayout, decide_eq_true_eq, nil_prefix, and_true, true_and]
    constructor
    · rintro ⟨rfl, rfl, rfl⟩
      exact ⟨rfl, rfl, rfl⟩
    · rintro ⟨rfl, rfl, rfl⟩
      exact ⟨rfl, rfl, rfl⟩
  case obsoleteContact => cases hkind
  all_goals exact startsWith_other .skippedSenderKey _ rfl (by decide)

theorem isKyberUsage_text (identityType : IdentityType) (hstored : key.Stored) :
    textLayout.isKyberUsage identityType key.text = false := by
  obtain ⟨kind, hkind⟩ := Option.isSome_iff_exists.mp hstored
  change startsWith (KeyKind.preKeys.start ++ ("kyber-usage".toList ++ ':' ::
    (identityType.text ++ [':']))) key.text = false
  cases key
  case preKeys kind type =>
    rw [← Bool.not_eq_true, startsWith_start_append rfl, StorageKey.body,
      isPrefix_iff (by decide) (colon_not_mem_preKeyKind _)]
    rintro ⟨-, hkind, -⟩
    revert hkind
    cases kind <;> decide
  case obsoleteContact => cases hkind
  all_goals exact startsWith_other .preKeys _ rfl (by decide)

theorem chainIndex_text (groupId senderId : String) (senderDeviceId : ℕ) (senderKeyId : String)
    (chainIndex : ℕ) :
    textLayout.chainIndex
      (StorageKey.skippedSenderKey groupId senderId senderDeviceId senderKeyId chainIndex).text =
        chainIndex := by
  have htext : (StorageKey.skippedSenderKey groupId senderId senderDeviceId senderKeyId
      chainIndex).text = (getSkippedSenderKeyPrefix groupId senderId senderDeviceId ++
        escapeKeyComponent senderKeyId) ++ ':' :: decimal chainIndex := by
    simp [StorageKey.text, getSkippedSenderKeyStorageKey]
  have hread : ∀ key, textLayout.chainIndex key = (numberOf (afterLast ':' key)).getD 0 :=
    fun _ => rfl
  rw [hread, htext, afterLast_append (colon_not_mem_decimal _), numberOf_decimal]
  rfl

theorem senderKeyPlace?_text (place : SenderKeyPlace) :
    textLayout.senderKeyPlace? (StorageKey.senderKeyRecord place).text =
      if place.groupId = "" ∨ place.userId = "" then none else some place := by
  have hkind : (StorageKey.senderKeyRecord place).kind? = some .senderKeyRecord := rfl
  have hprefix : senderKeyRecordPrefix <+: (StorageKey.senderKeyRecord place).text := by
    rw [StorageKey.text_eq hkind]
    exact prefix_append _ _
  have hdrop : (StorageKey.senderKeyRecord place).text.drop senderKeyRecordPrefix.length =
      (StorageKey.senderKeyRecord place).body := by
    rw [StorageKey.text_eq hkind]
    exact drop_left
  have hdev : decimal place.deviceId ≠ [] := Nat.toDigits_ne_nil
  have hread : ∀ key, textLayout.senderKeyPlace? key = parseSenderKeyRecordStorageKey key :=
    fun _ => rfl
  rw [hread, parseSenderKeyRecordStorageKey, if_pos hprefix, hdrop, StorageKey.body,
    split_append (colon_not_mem_escape _), split_append (colon_not_mem_escape _),
    split_of_not_mem (colon_not_mem_decimal _)]
  simp only [escape_eq_nil_iff, hdev, or_false, numberOf_decimal, Option.map_some, unescape_escape]

end Reads

end SignalProtocol.KeyValue

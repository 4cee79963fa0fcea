import SignalProtocol.Proof.KeyTexts
import SignalProtocol.Proof.SendLogTableCalls

/-! # The keys of the send log

The components of a key hold no separator and read back as they were, so a key tells its kind and
each of its parts. -/

namespace SignalProtocol.SendLog

open KeyValue List Option

variable {char : Char} {id : String} (value : String)

theorem hexValue_hexDigit : ∀ value < 16, hexValue? (hexDigit value) = some value := by
  decide

theorem hexDigit_ne_colon : ∀ value < 16, hexDigit value ≠ ':' := by
  decide

theorem percentDecode_percentByte (byte : UInt8) (rest : KeyText) :
    percentDecode (percentByte byte ++ rest) = (percentDecode rest).map (byte :: ·) := by
  have hbyte : byte.toNat < 256 := byte.toNat_lt
  have hhigh : hexValue? (hexDigit (byte.toNat / 16)) = some (byte.toNat / 16) :=
    hexValue_hexDigit _ (by omega)
  have hlow : hexValue? (hexDigit (byte.toNat % 16)) = some (byte.toNat % 16) :=
    hexValue_hexDigit _ (by omega)
  have hsame : UInt8.ofNat (16 * (byte.toNat / 16) + byte.toNat % 16) = byte := by
    rw [Nat.div_add_mod, UInt8.ofNat_toNat]
  simp only [percentByte, cons_append, nil_append, percentDecode, hhigh, hlow,
    bind_eq_bind, bind_some, hsame]
  cases percentDecode rest <;> rfl

theorem percentDecode_cons (hchar : char ≠ '%') (rest : KeyText) :
    percentDecode (char :: rest) = (percentDecode rest).map (String.utf8EncodeChar char ++ ·) := by
  rw [percentDecode]
  · rw [if_neg hchar]
    cases percentDecode rest <;> rfl
  · rintro _ _ _ rfl
    exact absurd rfl hchar

theorem percentDecode_bytes (bytes : List UInt8) (rest : KeyText) :
    percentDecode (bytes.flatMap percentByte ++ rest) = (percentDecode rest).map (bytes ++ ·) := by
  induction bytes with
  | nil => simp
  | cons byte bytes ih =>
    rw [flatMap_cons, append_assoc, percentDecode_percentByte, ih, Option.map_map]
    rfl

theorem not_percent_of_unreserved (hchar : isUnreserved char = true) : char ≠ '%' ∧ char ≠ ':' := by
  constructor <;> rintro rfl <;> revert hchar <;> decide

theorem percentDecode_chars (chars : List Char) :
    percentDecode (chars.flatMap fun char =>
        if isUnreserved char then [char] else (String.utf8EncodeChar char).flatMap percentByte) =
      some (chars.flatMap String.utf8EncodeChar) := by
  induction chars with
  | nil => rfl
  | cons char chars ih =>
    rw [flatMap_cons, flatMap_cons]
    split
    case isTrue hchar =>
      rw [singleton_append, percentDecode_cons (not_percent_of_unreserved hchar).1, ih]
      rfl
    case isFalse => rw [percentDecode_bytes, ih, map_some]

theorem decodeComponent_component :
    decodeComponent (component value) = some value := by
  have hbytes : (value.toList.flatMap String.utf8EncodeChar).toByteArray =
      value.toList.utf8Encode := rfl
  rw [decodeComponent, component, percentDecode_chars, bind_eq_bind, bind_some,
    hbytes, List.utf8Decode?_utf8Encode]
  simp

theorem component_inj {value other : String} : component value = component other ↔ value = other := by
  constructor
  · intro heq
    have hval := decodeComponent_component value
    rw [heq, decodeComponent_component] at hval
    exact (some_injective _ hval).symm
  · exact congrArg component

theorem colon_not_mem_component : ':' ∉ component value := by
  rw [component, mem_flatMap]
  rintro ⟨char, _, hmem⟩
  split at hmem
  case isTrue hchar =>
    exact (not_percent_of_unreserved hchar).2 (mem_singleton.mp hmem).symm
  case isFalse =>
    obtain ⟨byte, _, hbyte⟩ := mem_flatMap.mp hmem
    have hlt : byte.toNat < 256 := byte.toNat_lt
    simp only [percentByte, mem_cons, not_mem_nil, or_false] at hbyte
    obtain hbyte | hbyte | hbyte := hbyte
    · cases hbyte
    · exact hexDigit_ne_colon _ (by omega) hbyte.symm
    · exact hexDigit_ne_colon _ (by omega) hbyte.symm

/-! ## Keys -/

inductive SendLogKind where
  | payload
  | created
  | recipient
  | job
  deriving DecidableEq

def SendLogKind.start : SendLogKind → KeyText
  | payload => payloadPrefix
  | created => createdPrefix
  | recipient => recipientPrefix
  | job => jobPrefix

theorem SendLogKind.start_free (first second : SendLogKind) :
    first.start <+: second.start → first = second := by
  cases first <;> cases second <;> decide

inductive SendLogKey where
  | payload (clientMessageId : String)
  | created (createdAt : ℕ) (clientMessageId : String)
  | recipient (device : SendLogDevice) (clientTimestamp : ℕ) (clientMessageId : String)
  | job (jobId : String)
  deriving DecidableEq

namespace SendLogKey

def kind : SendLogKey → SendLogKind
  | payload _ => .payload
  | created _ _ => .created
  | recipient _ _ _ => .recipient
  | job _ => .job

def body : SendLogKey → KeyText
  | payload id => component id
  | created createdAt id => decimal createdAt ++ ':' :: component id
  | recipient device clientTimestamp id =>
    component device.userId ++ ':' :: (decimal device.deviceId ++ ':' ::
      (decimal clientTimestamp ++ ':' :: component id))
  | job jobId => component jobId

def text (key : SendLogKey) : KeyText := key.kind.start ++ key.body

def sendId? : SendLogKey → Option String
  | payload id => some id
  | created _ id => some id
  | recipient _ _ id => some id
  | job _ => none

theorem eq_payload {key : SendLogKey} (hkind : key.kind = .payload) : ∃ id, key = payload id := by
  cases key <;> cases hkind
  exact ⟨_, rfl⟩

theorem eq_job {key : SendLogKey} (hkind : key.kind = .job) : ∃ jobId, key = job jobId := by
  cases key <;> cases hkind
  exact ⟨_, rfl⟩

theorem text_recipient (device : SendLogDevice) (clientTimestamp : ℕ) (id : String) :
    (recipient device clientTimestamp id).text = recipientKey device clientTimestamp id := by
  simp [text, kind, body, SendLogKind.start, recipientKey, deviceTimestampPrefix]

/-- What stands before the message id of a recipient's row says the device and the time. -/
theorem deviceTimestamp_inj {device held : SendLogDevice} {clientTimestamp time : ℕ}
    {rest tail : List Char}
    (heq : component device.userId ++ ':' :: (decimal device.deviceId ++ ':' ::
        (decimal clientTimestamp ++ ':' :: rest)) =
      component held.userId ++ ':' :: (decimal held.deviceId ++ ':' ::
        (decimal time ++ ':' :: tail))) :
    device = held ∧ clientTimestamp = time ∧ rest = tail := by
  obtain ⟨userId, deviceId⟩ := device
  obtain ⟨heldUserId, heldDeviceId⟩ := held
  obtain ⟨huser, heq⟩ := (JoinedText.cons_inj (colon_not_mem_component _)
    (colon_not_mem_component _)).mp heq
  obtain ⟨hdev, heq⟩ := (JoinedText.cons_inj (colon_not_mem_decimal _)
    (colon_not_mem_decimal _)).mp heq
  obtain ⟨htime, htail⟩ := (JoinedText.cons_inj (colon_not_mem_decimal _)
    (colon_not_mem_decimal _)).mp heq
  obtain rfl : userId = heldUserId := component_inj.mp huser
  obtain rfl : deviceId = heldDeviceId := decimal_inj.mp hdev
  exact ⟨rfl, decimal_inj.mp htime, htail⟩

theorem body_inj {key other : SendLogKey} (hkind : key.kind = other.kind)
    (hbody : key.body = other.body) : key = other := by
  cases key <;> cases other <;> cases hkind
  case payload.payload => exact congrArg payload (component_inj.mp hbody)
  case job.job => exact congrArg job (component_inj.mp hbody)
  case created.created =>
    obtain ⟨htime, hid⟩ := (JoinedText.cons_inj (colon_not_mem_decimal _)
      (colon_not_mem_decimal _)).mp hbody
    exact congrArg₂ created (decimal_inj.mp htime) (component_inj.mp hid)
  case recipient.recipient device clientTimestamp id held time other =>
    obtain ⟨rfl, rfl, hid⟩ := deviceTimestamp_inj hbody
    exact congrArg (recipient device clientTimestamp) (component_inj.mp hid)

theorem text_injective : Function.Injective text := by
  intro key other heq
  obtain ⟨hkind, hbody⟩ := (JoinedText.prefix_inj SendLogKind.start_free).mp heq
  exact body_inj hkind hbody

theorem startsWith_start (kind : SendLogKind) (key : SendLogKey) :
    startsWith kind.start key.text = true ↔ key.kind = kind := by
  rw [startsWith, isPrefixOf_iff_prefix]
  constructor
  · intro hprefix
    obtain hfree | hfree := prefix_or_prefix_of_prefix hprefix (prefix_append _ key.body)
    · exact (SendLogKind.start_free _ _ hfree).symm
    · exact SendLogKind.start_free _ _ hfree
  · rintro rfl
    exact prefix_append _ _

theorem startsWith_sendLogPrefix (key : SendLogKey) : startsWith sendLogPrefix key.text = true := by
  rw [startsWith, isPrefixOf_iff_prefix]
  have hstart : sendLogPrefix <+: key.kind.start := by
    cases key.kind <;> decide
  exact hstart.trans (prefix_append _ _)

theorem startsWith_deviceTimestampPrefix {device : SendLogDevice} {clientTimestamp : ℕ}
    {key : SendLogKey} :
    startsWith (deviceTimestampPrefix device clientTimestamp) key.text = true ↔
      ∃ id, key = recipient device clientTimestamp id := by
  rw [startsWith, isPrefixOf_iff_prefix]
  constructor
  · rintro ⟨rest, hrest⟩
    have hkind : key.kind = .recipient := by
      apply (startsWith_start .recipient key).mp
      rw [startsWith, isPrefixOf_iff_prefix, ← hrest, deviceTimestampPrefix, append_assoc]
      exact prefix_append _ _
    cases key <;> cases hkind
    case refl held time id =>
      have htext : recipientPrefix ++ (component device.userId ++ ':' ::
          (decimal device.deviceId ++ ':' :: (decimal clientTimestamp ++ ':' :: rest))) =
            recipientPrefix ++ (component held.userId ++ ':' :: (decimal held.deviceId ++ ':' ::
              (decimal time ++ ':' :: component id))) := by
        simpa [deviceTimestampPrefix, text, SendLogKey.kind, SendLogKind.start, body] using hrest
      have hbody := append_cancel_left htext
      obtain ⟨rfl, rfl, -⟩ := deviceTimestamp_inj hbody
      exact ⟨id, rfl⟩
  · rintro ⟨id, rfl⟩
    rw [text_recipient]
    exact prefix_append _ _

theorem drop_start (key : SendLogKey) : key.text.drop key.kind.start.length = key.body :=
  drop_left

def rowKey (device : SendLogDevice) (clientTimestamp : ℕ) (id : String) : RowKey where
  key := recipientKey device clientTimestamp id
  device := device
  clientTimestamp := clientTimestamp
  clientMessageId := id

theorem parseRowKey_recipient (device : SendLogDevice) (clientTimestamp : ℕ) (id : String) :
    parseRowKey (recipient device clientTimestamp id).text =
      some (rowKey device clientTimestamp id) := by
  have hstart : startsWith recipientPrefix (recipient device clientTimestamp id).text = true :=
    (startsWith_start .recipient _).mpr rfl
  have hdrop : (recipient device clientTimestamp id).text.drop recipientPrefix.length =
      (recipient device clientTimestamp id).body :=
    drop_start (recipient device clientTimestamp id)
  have hsplit : JoinedText.split ':' (recipient device clientTimestamp id).body =
      [component device.userId, decimal device.deviceId, decimal clientTimestamp,
        component id] := by
    simp only [body]
    rw [JoinedText.split_append (colon_not_mem_component _),
      JoinedText.split_append (colon_not_mem_decimal _),
      JoinedText.split_append (colon_not_mem_decimal _),
      JoinedText.split_of_not_mem (colon_not_mem_component _)]
  unfold parseRowKey
  rw [if_pos hstart, hdrop, hsplit]
  simp only [decodeComponent_component, numberOf_decimal, bind_eq_bind, bind_some, text_recipient]
  rfl

theorem parseRowKey_eq_some_iff {key : SendLogKey} {row : RowKey} :
    parseRowKey key.text = some row ↔ ∃ device clientTimestamp id,
      key = recipient device clientTimestamp id ∧ row = rowKey device clientTimestamp id := by
  constructor
  · intro hparse
    by_cases hkind : key.kind = .recipient
    · cases key <;> cases hkind
      case refl device clientTimestamp id =>
        rw [parseRowKey_recipient] at hparse
        exact ⟨device, clientTimestamp, id, rfl, (some_injective _ hparse).symm⟩
    · have hstart : ¬ startsWith recipientPrefix key.text = true := fun hstart =>
        hkind ((startsWith_start .recipient key).mp hstart)
      rw [parseRowKey, if_neg hstart] at hparse
      cases hparse
  · rintro ⟨device, clientTimestamp, id, rfl, rfl⟩
    exact parseRowKey_recipient device clientTimestamp id

theorem parseCreatedKey_created (createdAt : ℕ) (id : String) :
    parseCreatedKey (created createdAt id).text = some (createdAt, id) := by
  have hstart : startsWith createdPrefix (created createdAt id).text = true :=
    (startsWith_start .created _).mpr rfl
  have hdrop : (created createdAt id).text.drop createdPrefix.length =
      (created createdAt id).body := drop_start (created createdAt id)
  have hsplit : JoinedText.split ':' (created createdAt id).body =
      [decimal createdAt, component id] := by
    simp only [body]
    rw [JoinedText.split_append (colon_not_mem_decimal _),
      JoinedText.split_of_not_mem (colon_not_mem_component _)]
  unfold parseCreatedKey
  rw [if_pos hstart, hdrop, hsplit]
  simp only [decodeComponent_component, numberOf_decimal, bind_eq_bind, bind_some]
  rfl

theorem parseCreatedKey_eq_some_iff {key : SendLogKey} {createdAt : ℕ} :
    parseCreatedKey key.text = some (createdAt, id) ↔ key = created createdAt id := by
  constructor
  · intro hparse
    by_cases hkind : key.kind = .created
    · cases key <;> cases hkind
      case refl time other =>
        rw [parseCreatedKey_created] at hparse
        cases hparse
        rfl
    · have hstart : ¬ startsWith createdPrefix key.text = true := fun hstart =>
        hkind ((startsWith_start .created key).mp hstart)
      rw [parseCreatedKey, if_neg hstart] at hparse
      cases hparse
  · rintro rfl
    exact parseCreatedKey_created createdAt id

theorem isCreatedKeyOf_iff {key : SendLogKey} :
    (startsWith createdPrefix key.text && (':' :: component id).isSuffixOf key.text) = true ↔
      ∃ createdAt, key = created createdAt id := by
  rw [Bool.and_eq_true, isSuffixOf_iff_suffix]
  constructor
  · rintro ⟨hstart, rest, hrest⟩
    have hkind : key.kind = .created :=
      (startsWith_start .created key).mp hstart
    cases key <;> cases hkind
    case refl createdAt other =>
      have htext : (created createdAt other).text =
          (createdPrefix ++ decimal createdAt) ++ ':' :: component other := by
        simp [text, SendLogKey.kind, SendLogKind.start, body]
      rw [htext, JoinedText.concat_inj (colon_not_mem_component _) (colon_not_mem_component _)]
        at hrest
      exact ⟨createdAt, by rw [component_inj.mp hrest.2]⟩
  · rintro ⟨createdAt, rfl⟩
    refine ⟨(startsWith_start .created _).mpr rfl, createdPrefix ++ decimal createdAt, ?_⟩
    simp [text, kind, body, SendLogKind.start]

end SendLogKey

/-! ## What the backend holds

Every key of the backend is the text of a structured key, and its value is the one that the log
stores there. -/

open Listing List OrderedMap
open KeyValue

variable {row : RowKey} {id : String}
  {value : StoredValue} {batch : WriteBatch} {clientTimestamp : ℕ}

namespace WriteBatch

def applied (batch : WriteBatch) (held : KeyText → Option StoredValue) :
    KeyText → Option StoredValue :=
  batch.foldl (fun held entry => Function.update held entry.1 entry.2) held

theorem applied_cons (entry : KeyText × Option StoredValue) (batch : WriteBatch)
    (held : KeyText → Option StoredValue) :
    applied (entry :: batch) held = applied batch (Function.update held entry.1 entry.2) := rfl

theorem get?_write (backend : Backend) (entry : KeyText × Option StoredValue) :
    (write backend entry).get? = Function.update backend.get? entry.1 entry.2 := by
  funext text
  obtain ⟨key, value⟩ := entry
  rw [Function.update_apply]
  cases value with
  | none => exact get?_erase ..
  | some value => exact get?_set ..

theorem get?_foldl (entries : List (KeyText × Option StoredValue)) (backend : Backend) :
    (entries.foldl write backend).get? = applied entries backend.get? := by
  induction entries generalizing backend with
  | nil => rfl
  | cons entry entries ih => rw [foldl_cons, ih, get?_write, applied_cons]

/-- A map has one operation for a key, so their order does not matter. -/
theorem applied_entries (writes : OrderedMap KeyText (Option StoredValue))
    (held : KeyText → Option StoredValue) (text : KeyText) :
    applied writes.entries held text = (writes.get? text).getD (held text) := by
  obtain ⟨entries, hnodup⟩ := writes
  unfold OrderedMap.get?
  dsimp only
  induction entries generalizing held with
  | nil => rfl
  | cons entry entries ih =>
    obtain ⟨hentry, hrest⟩ := nodup_cons.mp hnodup
    rw [applied_cons, ih _ hrest, find?_cons]
    by_cases htext : entry.1 = text
    · subst htext
      have hnone : entries.find? (fun other => decide (other.1 = entry.1)) = none := by
        rw [find?_eq_none]
        intro other hother heq
        rw [decide_eq_true_eq] at heq
        exact hentry (heq ▸ mem_map_of_mem hother)
      simp [hnone]
    · rw [Function.update_of_ne (Ne.symm htext)]
      simp [htext]

theorem get?_writes (batch : WriteBatch) (writes : OrderedMap KeyText (Option StoredValue))
    (held : KeyText → Option StoredValue) (text : KeyText) :
    ((batch.foldl (fun writes entry => writes.set entry.1 entry.2) writes).get? text).getD
        (held text) =
      batch.applied (fun key => (writes.get? key).getD (held key)) text := by
  induction batch generalizing writes with
  | nil => rfl
  | cons entry batch ih =>
    have hset : (fun key => ((writes.set entry.1 entry.2).get? key).getD (held key)) =
        Function.update (fun key => (writes.get? key).getD (held key)) entry.1 entry.2 := by
      funext key
      rw [get?_set, Function.update_apply]
      split <;> rfl
    rw [foldl_cons, ih, hset, applied_cons]

theorem get?_commit (batch : WriteBatch) (backend : Backend) (text : KeyText) :
    (batch.commit backend).get? text = batch.applied backend.get? text := by
  unfold commit
  rw [get?_foldl, applied_entries]
  exact batch.get?_writes ∅ backend.get? text

theorem get?_commit_append (first second : WriteBatch) (backend : Backend) (text : KeyText) :
    (WriteBatch.commit (first ++ second) backend).get? text =
      (second.commit (first.commit backend)).get? text := by
  have hfst : (first.commit backend).get? = first.applied backend.get? :=
    funext (get?_commit first backend)
  rw [get?_commit, get?_commit, hfst]
  unfold applied
  rw [foldl_append]

theorem get?_commit_cons (key text : KeyText) (value : StoredValue) (batch : WriteBatch)
    (backend : Backend) :
    (WriteBatch.commit ((key, some value) :: batch) backend).get? text =
      (batch.commit (backend.set key value)).get? text := by
  rw [get?_commit, get?_commit, applied_cons]
  exact congrFun (congrArg batch.applied (get?_write backend (key, some value)).symm) text

theorem applied_const (value : Option StoredValue) (hval : ∀ entry ∈ batch, entry.2 = value)
    (held : KeyText → Option StoredValue) (text : KeyText) :
    batch.applied held text = if text ∈ batch.map Prod.fst then value else held text := by
  induction batch generalizing held with
  | nil => rfl
  | cons entry batch ih =>
    rw [applied_cons, ih (fun other hother => hval other (mem_cons_of_mem _ hother)),
      hval entry mem_cons_self, Function.update_apply, map_cons]
    by_cases hentry : text = entry.1
    · rw [if_pos hentry, ite_self, if_pos (mem_cons.mpr (.inl hentry))]
    · rw [if_neg hentry]
      refine if_congr (Iff.symm ?_) rfl rfl
      exact mem_cons.trans (or_iff_right hentry)

end WriteBatch

/-- The value under a key. -/
def Log.stored (log : Log) : SendLogKey → Option StoredValue
  | .payload id => (log.sends id).map fun send => .payload send.payload
  | .created createdAt id => (log.sends id).bind fun send =>
    if send.payload.createdAt = createdAt then some .created else none
  | .recipient device clientTimestamp id => (log.sends id).bind fun send =>
    if send.payload.clientTimestamp = clientTimestamp then (send.rows device).map .count
    else none
  | .job jobId => (log.jobs jobId).map .job

/-- A backend with some value under each key. -/
structure Holds (backend : Backend) (held : SendLogKey → Option StoredValue) : Prop where
  get : ∀ key : SendLogKey, backend.get? key.text = held key
  named : ∀ text value, backend.get? text = some value → ∃ key : SendLogKey, key.text = text

namespace Holds

variable {backend : Backend} {held : SendLogKey → Option StoredValue}

theorem empty : Holds ∅ Log.empty.stored where
  get key := by cases key <;> rfl
  named := by rintro text value ⟨⟩

section

variable (hholds : Holds backend held)

include hholds

theorem of_get? {other : Backend}
    (hsame : ∀ text, other.get? text = backend.get? text) : Holds other held where
  get key := (hsame _).trans (hholds.get key)
  named text value hget := hholds.named text value ((hsame text).symm.trans hget)

theorem of_eq {other : SendLogKey → Option StoredValue}
    (heq : ∀ key, held key = other key) : Holds backend other where
  get key := (hholds.get key).trans (heq key)
  named := hholds.named

theorem mem_keys {text : KeyText} :
    text ∈ backend.keys ↔ ∃ key value, key.text = text ∧ held key = some value := by
  rw [mem_keys_iff]
  constructor
  · rintro ⟨value, hval⟩
    obtain ⟨key, rfl⟩ := hholds.named text value hval
    exact ⟨key, value, rfl, (hholds.get key).symm.trans hval⟩
  · rintro ⟨key, value, rfl, hval⟩
    exact ⟨value, (hholds.get key).trans hval⟩

theorem set (key : SendLogKey) (value : StoredValue) :
    Holds (backend.set key.text value) (Function.update held key (some value)) where
  get other := by
    rw [get?_set, Function.update_apply, hholds.get]
    exact if_congr SendLogKey.text_injective.eq_iff rfl rfl
  named text other hget := by
    rw [get?_set] at hget
    split at hget
    case isTrue htext => exact ⟨key, htext.symm⟩
    case isFalse => exact hholds.named text other hget

theorem remove (gone : SendLogKey → Prop)
    [DecidablePred gone] (hnone : ∀ entry ∈ batch, entry.2 = none)
    (hgone : ∀ key : SendLogKey, key.text ∈ batch.map Prod.fst → gone key)
    (hall : ∀ key value, held key = some value → gone key → key.text ∈ batch.map Prod.fst) :
    Holds (batch.commit backend) fun key => if gone key then none else held key where
  get key := by
    rw [WriteBatch.get?_commit, WriteBatch.applied_const none hnone, hholds.get]
    by_cases hkey : gone key
    · rw [if_pos hkey]
      cases hval : held key with
      | none => exact ite_self _
      | some value => rw [if_pos (hall key value hval hkey)]
    · rw [if_neg hkey, if_neg (mt (hgone key) hkey)]
  named text value hget := by
    rw [WriteBatch.get?_commit, WriteBatch.applied_const none hnone] at hget
    split at hget
    case isTrue => cases hget
    case isFalse => exact hholds.named text value hget

theorem put (keys : List SendLogKey) (value : StoredValue) :
    Holds (WriteBatch.commit (keys.map fun key => (key.text, some value)) backend)
      fun key => if key ∈ keys then some value else held key := by
  have hval : ∀ entry ∈ keys.map fun key : SendLogKey => (key.text, some value),
      entry.2 = some value := by
    intro entry hentry
    obtain ⟨key, _, rfl⟩ := mem_map.mp hentry
    rfl
  have hmap : (keys.map fun key : SendLogKey => (key.text, some value)).map Prod.fst =
      keys.map SendLogKey.text := map_map
  constructor
  · intro key
    rw [WriteBatch.get?_commit, WriteBatch.applied_const _ hval, hholds.get, hmap]
    exact if_congr (mem_map_of_injective SendLogKey.text_injective) rfl rfl
  · intro text other hget
    rw [WriteBatch.get?_commit, WriteBatch.applied_const _ hval, hmap] at hget
    split at hget
    case isTrue htext =>
      obtain ⟨key, _, htext⟩ := mem_map.mp htext
      exact ⟨key, htext⟩
    case isFalse => exact hholds.named text other hget

end

end Holds

abbrev BackendShows (backend : Backend) (log : Log) : Prop := Holds backend log.stored

namespace BackendShows

variable {backend : Backend} {log : Log} (hshow : BackendShows backend log)
include hshow

theorem readPayload (id : String) : backend.readPayload id = (log.sends id).map (·.payload) := by
  have hget : backend.get? (payloadKey id) =
      (log.sends id).map fun send => .payload send.payload := hshow.get (.payload id)
  unfold Backend.readPayload
  rw [hget]
  cases log.sends id <;> rfl

theorem get?_recipientKey (device : SendLogDevice) (clientTimestamp : ℕ) (id : String) :
    backend.get? (recipientKey device clientTimestamp id) = (log.sends id).bind fun send =>
      if send.payload.clientTimestamp = clientTimestamp then (send.rows device).map .count
      else none := by
  rw [← SendLogKey.text_recipient]
  exact hshow.get (.recipient device clientTimestamp id)

theorem readCount (device : SendLogDevice) (clientTimestamp : ℕ) (id : String) :
    backend.readCount (recipientKey device clientTimestamp id) = (log.sends id).bind fun send =>
      if send.payload.clientTimestamp = clientTimestamp then send.rows device else none := by
  unfold Backend.readCount
  rw [hshow.get?_recipientKey]
  cases log.sends id with
  | none => rfl
  | some send =>
    rw [Option.bind_some, Option.bind_some]
    by_cases htime : send.payload.clientTimestamp = clientTimestamp
    · rw [if_pos htime, if_pos htime]
      cases send.rows device <;> rfl
    · rw [if_neg htime, if_neg htime]

theorem readJob (jobId : String) : backend.readJob (resendJobKey jobId) = log.jobs jobId := by
  have hget : backend.get? (resendJobKey jobId) = (log.jobs jobId).map .job :=
    hshow.get (.job jobId)
  unfold Backend.readJob
  rw [hget]
  cases log.jobs jobId <;> rfl

omit hshow in
theorem stored_recipient_iff {device : SendLogDevice} :
    log.stored (.recipient device clientTimestamp id) = some value ↔ ∃ send responses,
      log.Waits id send device responses ∧ send.payload.clientTimestamp = clientTimestamp ∧
        .count responses = value := by
  rw [Log.stored, Option.bind_eq_some_iff]
  constructor
  · rintro ⟨send, hsend, hrow⟩
    split at hrow
    case isTrue htime =>
      obtain ⟨responses, hresponses, rfl⟩ := Option.map_eq_some_iff.mp hrow
      exact ⟨send, responses, ⟨hsend, hresponses⟩, htime, rfl⟩
    case isFalse => cases hrow
  · rintro ⟨send, responses, ⟨hsend, hrow⟩, rfl, rfl⟩
    exact ⟨send, hsend, by rw [if_pos rfl, hrow]; rfl⟩

omit hshow in
theorem stored_created_iff {createdAt : ℕ} :
    log.stored (.created createdAt id) = some value ↔ ∃ send, log.sends id = some send ∧
      send.payload.createdAt = createdAt ∧ .created = value := by
  rw [Log.stored, Option.bind_eq_some_iff]
  constructor
  · rintro ⟨send, hsend, hcreated⟩
    split at hcreated
    case isTrue htime => exact ⟨send, hsend, htime, Option.some_injective _ hcreated⟩
    case isFalse => cases hcreated
  · rintro ⟨send, hsend, rfl, rfl⟩
    exact ⟨send, hsend, if_pos rfl⟩

theorem mem_parsed :
    row ∈ backend.keys.filterMap parseRowKey ↔ ∃ id send device responses,
      log.Waits id send device responses ∧
        SendLogKey.rowKey device send.payload.clientTimestamp id = row := by
  rw [mem_filterMap]
  constructor
  · rintro ⟨text, htext, hparse⟩
    obtain ⟨key, value, rfl, hval⟩ := hshow.mem_keys.mp htext
    obtain ⟨device, clientTimestamp, id, rfl, rfl⟩ := SendLogKey.parseRowKey_eq_some_iff.mp hparse
    obtain ⟨send, responses, hwaits, rfl, _⟩ := stored_recipient_iff.mp hval
    exact ⟨id, send, device, responses, hwaits, rfl⟩
  · rintro ⟨id, send, device, responses, hwaits, rfl⟩
    refine ⟨_, hshow.mem_keys.mpr ⟨.recipient device send.payload.clientTimestamp id, _, rfl,
      stored_recipient_iff.mpr ⟨send, responses, hwaits, rfl, rfl⟩⟩, ?_⟩
    exact SendLogKey.parseRowKey_recipient ..

theorem mem_rowKeysOf :
    row ∈ rowKeysOf backend.keys id ↔ ∃ send device responses,
      log.Waits id send device responses ∧
        SendLogKey.rowKey device send.payload.clientTimestamp id = row := by
  rw [rowKeysOf, mem_filter, hshow.mem_parsed, decide_eq_true_eq]
  constructor
  · rintro ⟨⟨other, send, device, responses, hwaits, rfl⟩, rfl⟩
    exact ⟨send, device, responses, hwaits, rfl⟩
  · rintro ⟨send, device, responses, hwaits, rfl⟩
    exact ⟨⟨id, send, device, responses, hwaits, rfl⟩, rfl⟩

theorem mem_deviceRows {device : SendLogDevice} :
    row ∈ deviceRows backend.keys device clientTimestamp ↔ ∃ id send responses,
      log.Waits id send device responses ∧ send.payload.clientTimestamp = clientTimestamp ∧
        SendLogKey.rowKey device clientTimestamp id = row := by
  rw [deviceRows, mem_filterMap]
  constructor
  · rintro ⟨text, htext, hparse⟩
    obtain ⟨hkeys, hstart⟩ := mem_filter.mp htext
    obtain ⟨key, value, rfl, hval⟩ := hshow.mem_keys.mp hkeys
    obtain ⟨id, rfl⟩ := SendLogKey.startsWith_deviceTimestampPrefix.mp hstart
    obtain ⟨send, responses, hwaits, htime, _⟩ := stored_recipient_iff.mp hval
    rw [SendLogKey.parseRowKey_recipient] at hparse
    exact ⟨id, send, responses, hwaits, htime, Option.some_injective _ hparse⟩
  · rintro ⟨id, send, responses, hwaits, htime, rfl⟩
    refine ⟨(SendLogKey.recipient device clientTimestamp id).text, mem_filter.mpr ⟨?_, ?_⟩,
      SendLogKey.parseRowKey_recipient ..⟩
    · exact hshow.mem_keys.mpr ⟨_, _, rfl,
        stored_recipient_iff.mpr ⟨send, responses, hwaits, htime, rfl⟩⟩
    · exact SendLogKey.startsWith_deviceTimestampPrefix.mpr ⟨id, rfl⟩

theorem mem_createdKeysOf {text : KeyText} :
    text ∈ createdKeysOf backend.keys id ↔ ∃ send, log.sends id = some send ∧
      (SendLogKey.created send.payload.createdAt id).text = text := by
  rw [createdKeysOf, mem_filter]
  constructor
  · rintro ⟨htext, hcreated⟩
    obtain ⟨key, value, rfl, hval⟩ := hshow.mem_keys.mp htext
    obtain ⟨createdAt, rfl⟩ := SendLogKey.isCreatedKeyOf_iff.mp hcreated
    obtain ⟨send, hsend, rfl, _⟩ := stored_created_iff.mp hval
    exact ⟨send, hsend, rfl⟩
  · rintro ⟨send, hsend, rfl⟩
    refine ⟨hshow.mem_keys.mpr ⟨_, _, rfl, stored_created_iff.mpr ⟨send, hsend, rfl, rfl⟩⟩, ?_⟩
    exact SendLogKey.isCreatedKeyOf_iff.mpr ⟨_, rfl⟩

theorem parsed_pairwise :
    (backend.keys.filterMap parseRowKey).Pairwise fun first second => first.key ≠ second.key := by
  refine (List.Pairwise.imp_of_mem ?_ backend.keys_nodup).filterMap _ fun _ _ hne => hne
  intro text other htext hother hne row hrow second hsnd heq
  obtain ⟨key, _, rfl, _⟩ := hshow.mem_keys.mp htext
  obtain ⟨held, _, rfl, _⟩ := hshow.mem_keys.mp hother
  obtain ⟨device, time, id, rfl, rfl⟩ := SendLogKey.parseRowKey_eq_some_iff.mp hrow
  obtain ⟨holder, clock, name, rfl, rfl⟩ := SendLogKey.parseRowKey_eq_some_iff.mp hsnd
  rw [SendLogKey.text_recipient, SendLogKey.text_recipient] at hne
  exact hne heq

end BackendShows

end SignalProtocol.SendLog

/-! ## Changes of the backend

A removed send takes each key that belongs to it. -/

namespace SignalProtocol.SendLog

open Listing List
open KeyValue

variable {id : String} {removed : List KeyText} {value : StoredValue} {responses : ℕ}

/-! ## What a changed log stores -/

namespace Log

variable {log : Log}

theorem stored_of_sends {changed : Log} {key : SendLogKey} (hkey : key.sendId? = some id)
    (hsends : changed.sends id = log.sends id) : changed.stored key = log.stored key := by
  cases key <;> cases hkey <;> simp only [stored, hsends]

theorem stored_of_none {key : SendLogKey} (hkey : key.sendId? = some id)
    (hsend : log.sends id = none) : log.stored key = none := by
  cases key <;> cases hkey <;> simp [stored, hsend]

theorem stored_setSend_none (id : String) (key : SendLogKey) :
    (log.setSend id none).stored key = if key.sendId? = some id then none else log.stored key := by
  split
  case isTrue hkey => exact stored_of_none hkey (setSend_self ..)
  case isFalse hkey =>
    cases hid : key.sendId? with
    | none => cases key <;> cases hid; rfl
    | some other =>
      refine stored_of_sends hid (setSend_of_ne _ _ fun heq => hkey ?_)
      rw [hid, heq]

theorem send_of_stored {key : SendLogKey} (hkey : key.sendId? = some id)
    (hval : log.stored key = some value) : ∃ send, log.sends id = some send := by
  cases hsend : log.sends id with
  | none =>
    rw [stored_of_none hkey hsend] at hval
    cases hval
  | some send => exact ⟨send, rfl⟩

def Gone (log : Log) (device : SendLogDevice) (ids : List String) (key : SendLogKey) : Prop :=
  ∃ id ∈ ids, ∃ send, log.sends id = some send ∧
    (key = .recipient device send.payload.clientTimestamp id ∨
      (send.without device).Finished ∧ key.sendId? = some id)

open Classical in
theorem stored_confirmAll {device : SendLogDevice} {ids : List String}
    (hwaits : ∀ id ∈ ids, ∃ send responses, log.Waits id send device responses) (key : SendLogKey) :
    (log.confirmAll device ids).stored key =
      if log.Gone device ids key then none else log.stored key := by
  cases hid : key.sendId? with
  | none =>
    rw [if_neg]
    · cases key <;> cases hid
      rfl
    · rintro ⟨_, _, _, _, rfl | ⟨_, hkey⟩⟩
      · cases hid
      · rw [hid] at hkey
        cases hkey
  | some id =>
    have hgone : log.Gone device ids key → ∃ send, id ∈ ids ∧ log.sends id = some send ∧
        (key = .recipient device send.payload.clientTimestamp id ∨
          (send.without device).Finished) := by
      rintro ⟨other, hmem, send, hsend, rfl | ⟨hfin, hkey⟩⟩
      · cases hid
        exact ⟨send, hmem, hsend, .inl rfl⟩
      · rw [hid] at hkey
        cases hkey
        exact ⟨send, hmem, hsend, .inr hfin⟩
    by_cases hmem : id ∈ ids
    · obtain ⟨send, responses, hsend, hrow⟩ := hwaits id hmem
      have hconf : (log.confirmAll device ids).sends id = (send.without device).settled := by
        simp [confirmAll, hmem, hsend, Send.confirmed, hrow]
      by_cases hfin : (send.without device).Finished
      · rw [if_pos ⟨id, hmem, send, hsend, .inr ⟨hfin, hid⟩⟩]
        refine stored_of_none hid (hconf.trans ?_)
        exact if_pos hfin
      · have hkept : (log.confirmAll device ids).sends id = some (send.without device) :=
          hconf.trans (if_neg hfin)
        have hiff : log.Gone device ids key ↔
            key = .recipient device send.payload.clientTimestamp id := by
          constructor
          · intro hkey
            obtain ⟨held, _, hheld, hkey | hdone⟩ := hgone hkey
            · obtain rfl : send = held := Option.some_injective _ (hsend.symm.trans hheld)
              exact hkey
            · obtain rfl : send = held := Option.some_injective _ (hsend.symm.trans hheld)
              exact absurd hdone hfin
          · exact fun hkey => ⟨id, hmem, send, hsend, .inl hkey⟩
        rw [if_congr hiff rfl rfl]
        cases key <;> cases hid
        case recipient.refl held time =>
          simp only [stored, hkept, hsend, Option.bind_some, Send.without]
          by_cases htime : send.payload.clientTimestamp = time
          · subst htime
            by_cases hheld : held = device
            · simp [hheld]
            · simp [hheld]
          · simp [htime, Ne.symm htime]
        · simp [stored, hkept, hsend, Send.without]
        · simp [stored, hkept, hsend, Send.without]
    · rw [if_neg fun hkey => hmem (hgone hkey).choose_spec.1]
      exact stored_of_sends hid (if_neg hmem)

def Old (log : Log) (now : ℕ) (maxAgeMs : ℤ) (key : SendLogKey) : Prop :=
  (∃ id, key.sendId? = some id ∧ ∃ send, log.sends id = some send ∧
    expired now maxAgeMs send.payload.createdAt = true) ∨
  ∃ jobId job, key = .job jobId ∧ log.jobs jobId = some job ∧
    expired now maxAgeMs job.createdAt = true

open Classical in
theorem stored_expired (now : ℕ) (maxAgeMs : ℤ) (key : SendLogKey) :
    (log.after now (.deleteExpiredSendLog maxAgeMs)).stored key =
      if log.Old now maxAgeMs key then none else log.stored key := by
  cases hkey : key.sendId? with
  | none =>
    cases key <;> cases hkey
    case job.refl jobId =>
      have hold : log.Old now maxAgeMs (.job jobId) ↔ ∃ job, log.jobs jobId = some job ∧
          expired now maxAgeMs job.createdAt = true := by
        constructor
        · rintro (⟨_, hid, _⟩ | ⟨_, job, hsame, hjob, hold⟩)
          · cases hid
          · cases hsame
            exact ⟨job, hjob, hold⟩
        · exact fun ⟨job, hjob, hold⟩ => .inr ⟨jobId, job, rfl, hjob, hold⟩
      rw [if_congr hold rfl rfl]
      change ((log.jobs jobId).filter _).map _ = _
      simp only [stored]
      cases log.jobs jobId with
      | none => simp
      | some job =>
        cases hold : expired now maxAgeMs job.createdAt <;> simp [Option.filter, hold]
  | some id =>
    have hold : log.Old now maxAgeMs key ↔ ∃ send, log.sends id = some send ∧
        expired now maxAgeMs send.payload.createdAt = true := by
      constructor
      · rintro (⟨other, hid, hsend⟩ | ⟨_, _, rfl, _⟩)
        · rw [hkey] at hid
          cases hid
          exact hsend
        · cases hkey
      · exact fun hsend => .inl ⟨id, hkey, hsend⟩
    rw [if_congr hold rfl rfl]
    have hafter : (log.after now (.deleteExpiredSendLog maxAgeMs)).sends id =
        (log.sends id).filter fun send => !expired now maxAgeMs send.payload.createdAt := rfl
    cases hsend : log.sends id with
    | none =>
      rw [hsend] at hafter
      rw [stored_of_none hkey hafter, stored_of_none hkey hsend, ite_self]
    | some send =>
      rw [hsend] at hafter
      cases hexp : expired now maxAgeMs send.payload.createdAt with
      | true =>
        rw [if_pos ⟨send, rfl, hexp⟩, stored_of_none hkey]
        rw [hafter]
        simp [Option.filter, hexp]
      | false =>
        rw [if_neg]
        · refine stored_of_sends hkey ?_
          rw [hafter, hsend]
          simp [Option.filter, hexp]
        · rintro ⟨held, hheld, htrue⟩
          cases hheld
          rw [hexp] at htrue
          cases htrue

end Log

namespace BackendShows

variable {backend : Backend} {log : Log} (hshow : BackendShows backend log)
  (payload : SendLogPayload)

theorem removeEntry_none (id : String) : ∀ entry ∈ backend.removeEntry id, entry.2 = none := by
  intro entry hentry
  simp only [Backend.removeEntry, mem_cons, cons_append, mem_append, mem_map] at hentry
  obtain rfl | ⟨_, _, rfl⟩ | ⟨_, _, rfl⟩ := hentry <;> rfl

include hshow

theorem mem_removeEntry {text : KeyText} :
    text ∈ (backend.removeEntry id).map Prod.fst ↔ text = (SendLogKey.payload id).text ∨
      (∃ send, log.sends id = some send ∧
        (SendLogKey.created send.payload.createdAt id).text = text) ∨
      ∃ send device responses, log.Waits id send device responses ∧
        (SendLogKey.recipient device send.payload.clientTimestamp id).text = text := by
  have hmap : (backend.removeEntry id).map Prod.fst = (SendLogKey.payload id).text ::
      (createdKeysOf backend.keys id ++ (rowKeysOf backend.keys id).map (·.key)) := by
    simp [Backend.removeEntry, Function.comp_def]
    rfl
  rw [hmap, mem_cons, mem_append, hshow.mem_createdKeysOf, mem_map]
  refine or_congr_right (or_congr_right ?_)
  constructor
  · rintro ⟨row, hrow, rfl⟩
    obtain ⟨send, device, responses, hwaits, rfl⟩ := hshow.mem_rowKeysOf.mp hrow
    exact ⟨send, device, responses, hwaits, SendLogKey.text_recipient ..⟩
  · rintro ⟨send, device, responses, hwaits, rfl⟩
    refine ⟨_, hshow.mem_rowKeysOf.mpr ⟨send, device, responses, hwaits, rfl⟩, ?_⟩
    exact (SendLogKey.text_recipient ..).symm

theorem removeEntry_gone {key : SendLogKey}
    (hkey : key.text ∈ (backend.removeEntry id).map Prod.fst) : key.sendId? = some id := by
  obtain heq | ⟨send, _, heq⟩ | ⟨send, device, _, _, heq⟩ := hshow.mem_removeEntry.mp hkey
  · rw [SendLogKey.text_injective heq]
    rfl
  · rw [← SendLogKey.text_injective heq]
    rfl
  · rw [← SendLogKey.text_injective heq]
    rfl

theorem removeEntry_all {key : SendLogKey} (hval : log.stored key = some value)
    (hkey : key.sendId? = some id) : key.text ∈ (backend.removeEntry id).map Prod.fst := by
  rw [hshow.mem_removeEntry]
  cases key <;> cases hkey
  · exact .inl rfl
  · obtain ⟨send, hsend, rfl, _⟩ := stored_created_iff.mp hval
    exact .inr (.inl ⟨send, hsend, rfl⟩)
  · obtain ⟨send, responses, hwaits, rfl, _⟩ := stored_recipient_iff.mp hval
    exact .inr (.inr ⟨send, _, responses, hwaits, rfl⟩)

theorem removeEntry (id : String) :
    BackendShows ((backend.removeEntry id).commit backend) (log.setSend id none) := by
  refine (hshow.remove (fun key => key.sendId? = some id) (removeEntry_none id)
    (fun _ hkey => hshow.removeEntry_gone hkey)
    fun _ _ hval hkey => hshow.removeEntry_all hval hkey).of_eq ?_
  intro key
  exact (Log.stored_setSend_none id key).symm

omit hshow in
theorem removeIfFinished_none (removed : List KeyText) :
    ∀ entry ∈ backend.removeIfFinished payload removed, entry.2 = none := by
  unfold Backend.removeIfFinished
  split
  · exact removeEntry_none _
  · rintro entry ⟨⟩

theorem rows_removed_iff {send : Send} {device : SendLogDevice} (hsend : log.sends id = some send)
    (hrem : ∀ other, (SendLogKey.recipient other send.payload.clientTimestamp id).text ∈
      removed ↔ other = device) :
    ((rowKeysOf backend.keys id).all fun row => decide (row.key ∈ removed)) = true ↔
      ∀ other, (send.without device).rows other = none := by
  rw [all_eq_true]
  constructor
  · intro hall other
    by_cases hother : other = device
    · simp [Send.without, hother]
    · cases hrow : send.rows other with
      | none => simp [Send.without, hother, hrow]
      | some responses =>
        have hkey := hall _ (hshow.mem_rowKeysOf.mpr ⟨send, other, responses, ⟨hsend, hrow⟩, rfl⟩)
        rw [decide_eq_true_eq] at hkey
        refine absurd ((hrem other).mp ?_) hother
        rw [SendLogKey.text_recipient]
        exact hkey
  · intro hnone row hrow
    obtain ⟨held, other, responses, ⟨hheld, hwaits⟩, rfl⟩ := hshow.mem_rowKeysOf.mp hrow
    obtain rfl : send = held := Option.some_injective _ (hsend.symm.trans hheld)
    rw [decide_eq_true_eq]
    have hother : other = device := by
      by_contra hne
      have hrow : (send.without device).rows other = some responses := by
        simp [Send.without, hne, hwaits]
      rw [hnone] at hrow
      cases hrow
    have hmem := (hrem other).mpr hother
    rw [SendLogKey.text_recipient] at hmem
    exact hmem

theorem confirm (hlog : log.Sound) {device : SendLogDevice} {ids : List String}
    (hwaits : ∀ id ∈ ids, ∃ send responses, log.Waits id send device responses)
    (hrem : ∀ text, text ∈ removed ↔ ∃ id ∈ ids, ∃ send, log.sends id = some send ∧
      (SendLogKey.recipient device send.payload.clientTimestamp id).text = text)
    {payloads : List SendLogPayload}
    (hpayloads : ∀ payload, payload ∈ payloads ↔ ∃ id ∈ ids, ∃ send,
      log.sends id = some send ∧ send.payload = payload) :
    BackendShows (WriteBatch.commit (removed.map (·, none) ++
        payloads.flatMap fun payload => backend.removeIfFinished payload removed) backend)
      (log.confirmAll device ids) := by
  classical
  have hfin : ∀ id ∈ ids, ∀ send, log.sends id = some send →
      backend.removeIfFinished send.payload removed =
        if (send.without device).Finished then backend.removeEntry id else [] := by
    intro id hmem send hsend
    have hid : send.payload.clientMessageId = id := hlog.id id send hsend
    have hdev : ∀ other, (SendLogKey.recipient other send.payload.clientTimestamp id).text ∈
        removed ↔ other = device := by
      intro other
      rw [hrem]
      constructor
      · rintro ⟨held, _, holder, _, htext⟩
        exact (SendLogKey.recipient.inj (SendLogKey.text_injective htext)).1.symm
      · rintro rfl
        exact ⟨id, hmem, send, hsend, rfl⟩
    have hrows := hshow.rows_removed_iff hsend hdev
    rw [Backend.removeIfFinished, hid]
    refine if_congr ?_ rfl rfl
    rw [Bool.and_eq_true, hrows]
    rfl
  refine (hshow.remove (log.Gone device ids) ?_ ?_ ?_).of_eq fun key =>
    (Log.stored_confirmAll hwaits key).symm
  · intro entry hentry
    obtain hentry | hentry := mem_append.mp hentry
    · obtain ⟨_, _, rfl⟩ := mem_map.mp hentry
      rfl
    · obtain ⟨payload, _, hentry⟩ := mem_flatMap.mp hentry
      exact removeIfFinished_none payload removed entry hentry
  · intro key hkey
    rw [map_append, mem_append, map_map, map_flatMap] at hkey
    obtain hkey | hkey := hkey
    · obtain ⟨text, htext, heq⟩ := mem_map.mp hkey
      obtain ⟨id, hmem, send, hsend, rfl⟩ := (hrem text).mp htext
      exact ⟨id, hmem, send, hsend, .inl (SendLogKey.text_injective heq).symm⟩
    · obtain ⟨payload, hpayload, hkey⟩ := mem_flatMap.mp hkey
      obtain ⟨id, hmem, send, hsend, rfl⟩ := (hpayloads payload).mp hpayload
      rw [hfin id hmem send hsend] at hkey
      split at hkey
      case isTrue hdone =>
        exact ⟨id, hmem, send, hsend, .inr ⟨hdone, hshow.removeEntry_gone hkey⟩⟩
      case isFalse => cases hkey
  · rintro key value hval ⟨id, hmem, send, hsend, rfl | ⟨hdone, hkey⟩⟩
    · rw [map_append, mem_append, map_map]
      refine .inl (mem_map.mpr ⟨_, (hrem _).mpr ⟨id, hmem, send, hsend, rfl⟩, rfl⟩)
    · rw [map_append, mem_append, map_flatMap]
      refine .inr (mem_flatMap.mpr
        ⟨send.payload, (hpayloads _).mpr ⟨id, hmem, send, hsend, rfl⟩, ?_⟩)
      rw [hfin id hmem send hsend, if_pos hdone]
      exact hshow.removeEntry_all hval hkey

theorem confirmOne (hlog : log.Sound) {send : Send} {device : SendLogDevice}
    (hwaits : log.Waits id send device responses) :
    BackendShows (WriteBatch.commit ((recipientKey device send.payload.clientTimestamp id, none) ::
          backend.removeIfFinished send.payload
            [recipientKey device send.payload.clientTimestamp id]) backend)
      (log.setSend id (send.confirmed device)) := by
  rw [Log.setSend_eq_confirmAll hwaits.1]
  have hids : ∀ other ∈ [id], ∃ send responses, log.Waits other send device responses := by
    intro other hother
    rw [mem_singleton.mp hother]
    exact ⟨send, responses, hwaits⟩
  have hrem : ∀ text, text ∈ [recipientKey device send.payload.clientTimestamp id] ↔
      ∃ other ∈ [id], ∃ held, log.sends other = some held ∧
        (SendLogKey.recipient device held.payload.clientTimestamp other).text = text := by
    intro text
    simp only [mem_singleton, exists_eq_left, hwaits.1, Option.some.injEq,
      exists_eq_left', SendLogKey.text_recipient]
    exact eq_comm
  have hpayloads : ∀ payload, payload ∈ [send.payload] ↔ ∃ other ∈ [id], ∃ held,
      log.sends other = some held ∧ held.payload = payload := by
    intro payload
    simp only [mem_singleton, exists_eq_left, hwaits.1, Option.some.injEq, exists_eq_left']
    exact eq_comm
  have hconf := hshow.confirm hlog hids hrem hpayloads
  rw [flatMap_singleton] at hconf
  exact hconf

theorem setPayload {send : Send} (hsend : log.sends id = some send) :
    BackendShows (backend.set (payloadKey id) (.payload send.completed.payload))
      (log.setSend id (some send.completed)) := by
  refine (hshow.set (.payload id) (.payload send.completed.payload)).of_eq fun key => ?_
  rw [Function.update_apply]
  cases hkey : key.sendId? with
  | none =>
    cases key <;> cases hkey
    exact if_neg (by rintro ⟨⟩)
  | some other =>
    by_cases hother : other = id
    · subst hother
      cases key <;> cases hkey
      · simp [Log.stored]
      · simp [Log.stored, hsend, Send.completed]
      · simp [Log.stored, hsend, Send.completed]
    · rw [if_neg]
      · exact (Log.stored_of_sends hkey (Log.setSend_of_ne _ _ hother)).symm
      · rintro rfl
        cases hkey
        exact hother rfl

theorem setCount {send : Send} {device : SendLogDevice}
    (hwaits : log.Waits id send device responses) :
    BackendShows (backend.set (recipientKey device send.payload.clientTimestamp id)
        (.count (responses + 1)))
      (log.setSend id (some (send.counted device))) := by
  rw [← SendLogKey.text_recipient]
  refine (hshow.set _ (.count (responses + 1))).of_eq fun key => ?_
  rw [Function.update_apply]
  cases hkey : key.sendId? with
  | none =>
    cases key <;> cases hkey
    exact if_neg (by rintro ⟨⟩)
  | some other =>
    by_cases hother : other = id
    · subst hother
      cases key <;> cases hkey
      case recipient.refl held time =>
        simp only [Log.stored, Log.setSend_self, hwaits.1, Option.bind_some, Send.counted]
        by_cases htime : send.payload.clientTimestamp = time
        · subst htime
          by_cases hheld : held = device
          · simp [hheld, hwaits.2]
          · simp [hheld]
        · simp [htime, Ne.symm htime]
      · simp [Log.stored, hwaits.1, Send.counted]
      · simp [Log.stored, hwaits.1, Send.counted]
    · rw [if_neg]
      · exact (Log.stored_of_sends hkey (Log.setSend_of_ne _ _ hother)).symm
      · rintro rfl
        cases hkey
        exact hother rfl

theorem setJob (job : SendLogResendJob) :
    BackendShows (backend.set (resendJobKey job.jobId) (.job job))
      (log.setJob job.jobId (some job)) := by
  refine (hshow.set (.job job.jobId) (.job job)).of_eq fun key => ?_
  rw [Function.update_apply]
  cases key with
  | job jobId =>
    by_cases hid : jobId = job.jobId
    · subst hid
      simp [Log.stored]
    · simp [Log.stored, hid, Log.setJob_of_ne _ _ hid]
  | payload => exact if_neg (by rintro ⟨⟩)
  | created => exact if_neg (by rintro ⟨⟩)
  | recipient => exact if_neg (by rintro ⟨⟩)

theorem putMissing {send : Send} (hsend : log.sends id = some send) (devices : List SendLogDevice) :
    BackendShows (WriteBatch.commit ((devices.filter fun device =>
          !backend.has (recipientKey device send.payload.clientTimestamp id)).map fun device =>
          (recipientKey device send.payload.clientTimestamp id, some (.count 0))) backend)
      (log.setSend id (some (send.append devices))) := by
  have hmiss : ∀ device, (!backend.has (recipientKey device send.payload.clientTimestamp id)) =
      decide (send.rows device = none) := by
    intro device
    rw [OrderedMap.has, hshow.get?_recipientKey, hsend, Option.bind_some, if_pos rfl,
      Option.isSome_map]
    cases send.rows device <;> rfl
  simp only [hmiss]
  have hput := hshow.put ((devices.filter fun device => decide (send.rows device = none)).map
    fun device => SendLogKey.recipient device send.payload.clientTimestamp id) (.count 0)
  rw [map_map] at hput
  simp only [Function.comp_def, SendLogKey.text_recipient] at hput
  refine hput.of_eq fun key => ?_
  cases hkey : key.sendId? with
  | none =>
    cases key <;> cases hkey
    exact if_neg (by simp)
  | some other =>
    by_cases hother : other = id
    · subst hother
      cases key <;> cases hkey
      case recipient.refl held time =>
        simp only [Log.stored, Log.setSend_self, hsend, Option.bind_some, Send.append]
        by_cases htime : send.payload.clientTimestamp = time
        · subst htime
          by_cases hheld : held ∈ devices <;> cases hrow : send.rows held <;>
            simp [hheld, hrow]
        · simp [htime]
      · simp [Log.stored, hsend, Send.append]
      · simp [Log.stored, hsend, Send.append]
    · rw [if_neg]
      · exact (Log.stored_of_sends hkey (Log.setSend_of_ne _ _ hother)).symm
      · rw [mem_map]
        rintro ⟨device, _, rfl⟩
        cases hkey
        exact hother rfl

theorem store (devices : List SendLogDevice) :
    BackendShows (WriteBatch.commit (backend.removeEntry payload.clientMessageId ++
        (payloadKey payload.clientMessageId, some (.payload payload)) ::
        (createdKey payload.createdAt payload.clientMessageId, some .created) ::
        devices.map fun device =>
          (recipientKey device payload.clientTimestamp payload.clientMessageId, some (.count 0)))
        backend)
      (log.setSend payload.clientMessageId (some (Send.started payload devices))) := by
  have hput := (((hshow.removeEntry payload.clientMessageId).set
    (.payload payload.clientMessageId) (.payload payload)).set
    (.created payload.createdAt payload.clientMessageId) .created).put
    (devices.map fun device =>
      SendLogKey.recipient device payload.clientTimestamp payload.clientMessageId) (.count 0)
  rw [map_map] at hput
  simp only [Function.comp_def, SendLogKey.text_recipient] at hput
  refine (hput.of_get? fun text => ?_).of_eq fun key => ?_
  · rw [WriteBatch.get?_commit_append, WriteBatch.get?_commit_cons, WriteBatch.get?_commit_cons]
    rfl
  · rw [Function.update_apply, Function.update_apply, Log.stored_setSend_none]
    cases hkey : key.sendId? with
    | none =>
      cases key <;> cases hkey
      simp [Log.stored]
      rfl
    | some other =>
      by_cases hother : other = payload.clientMessageId
      · subst hother
        cases key <;> cases hkey
        case recipient.refl held time =>
          simp only [Log.stored, Log.setSend_self, Option.bind_some, Send.started]
          by_cases htime : payload.clientTimestamp = time
          · subst htime
            by_cases hheld : held ∈ devices <;> simp [hheld]
          · simp [htime]
        · simp [Log.stored, Send.started]
        · simp [Log.stored, Send.started, eq_comm]
      · have hsends : (log.setSend payload.clientMessageId
            (some (Send.started payload devices))).sends other = log.sends other :=
          Log.setSend_of_ne _ _ hother
        rw [Log.stored_of_sends hkey hsends]
        cases key <;> cases hkey <;> simp [hother, Ne.symm hother]

end BackendShows

end SignalProtocol.SendLog

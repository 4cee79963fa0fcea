import SignalProtocol.Library.Results
import SignalProtocol.Symmetric.StreamingAead
import Mathlib.Tactic.Ring

/-! # The streaming cipher as an online code

The segments of a stream are described once; the round trip, the nonces and the rejection of
changed streams are read off the description. -/

namespace SignalProtocol.Symmetric

open Results List

variable {isLast : Bool} {plaintext associatedData : Bytes} {calls : List GcmCall}
  {random : StreamRandom} {segmentIndex segmentSize : ℕ}
  {decrypted : Bool × Bytes} {chunk ciphertext : Bytes} {result : StreamingEncryptResult}

theorem buildNonce_inj {noncePrefix noncePrefix' : Bytes} {index index' : ℕ} {isLast' : Bool}
    (hlen : noncePrefix.length = noncePrefix'.length) (hidx : index ≤ maxSegmentIndex)
    (hindex' : index' ≤ maxSegmentIndex)
    (heq : buildNonce noncePrefix index isLast = buildNonce noncePrefix' index' isLast') :
    noncePrefix = noncePrefix' ∧ index = index' ∧ isLast = isLast' := by
  have hbyte (value : ℕ) : value &&& 0xff = value % 2 ^ 8 := Nat.and_two_pow_sub_one_eq_mod value 8
  rw [maxSegmentIndex] at hidx hindex'
  obtain ⟨hbegins, htail⟩ := append_inj heq hlen
  simp only [List.cons.injEq, ← UInt8.toNat_inj, UInt8.toNat_ofNat', hbyte,
    Nat.shiftRight_eq_div_pow, and_true] at htail
  refine ⟨hbegins, by omega, ?_⟩
  have hflag := htail.2.2.2.2
  cases isLast with
  | false =>
    cases isLast' with
    | false => rfl
    | true => simp at hflag
  | true =>
    cases isLast' with
    | false => simp at hflag
    | true => rfl

section Segments

variable (crypto : StreamCrypto) (derivedKey noncePrefix : Bytes) (size : SegmentSize)

inductive Segments : ℕ → Bytes → List GcmCall → Prop where
  | last {segmentIndex : ℕ} {plaintext : Bytes} (hindex : segmentIndex ≤ maxSegmentIndex)
      (hroom : plaintext.length ≤ size.plaintextSize segmentIndex) :
      Segments segmentIndex plaintext
        [gcmCall crypto derivedKey plaintext (buildNonce noncePrefix segmentIndex true)]
  | full {segmentIndex : ℕ} {chunk rest : Bytes} {calls : List GcmCall}
      (hindex : segmentIndex ≤ maxSegmentIndex)
      (hchunk : chunk.length = size.plaintextSize segmentIndex) (hrest : rest ≠ [])
      (htail : Segments (segmentIndex + 1) rest calls) :
      Segments segmentIndex (chunk ++ rest)
        (gcmCall crypto derivedKey chunk (buildNonce noncePrefix segmentIndex false) :: calls)

variable {crypto derivedKey noncePrefix size}

theorem Segments.ne_nil
    (hsegments : Segments crypto derivedKey noncePrefix size segmentIndex plaintext calls) :
    calls ≠ [] := by
  cases hsegments with
  | last _ _ => exact cons_ne_nil _ _
  | full _ _ _ _ => exact cons_ne_nil _ _

/-- The loop of the encryptor; the induction is on the plaintext that is left. -/
theorem Segments.of_encryptSegments (hne : plaintext ≠ [])
    (hok : encryptSegments crypto derivedKey noncePrefix size segmentIndex plaintext = .ok calls) :
    Segments crypto derivedKey noncePrefix size segmentIndex plaintext calls := by
  induction hlen : plaintext.length using Nat.strong_induction_on
    generalizing segmentIndex plaintext calls with
  | _ length ih =>
    have hroom := size.plaintextSize_pos segmentIndex
    have hpos : 0 < plaintext.length := length_pos_iff.mpr hne
    rw [encryptSegments, if_neg hne] at hok
    split at hok
    · cases hok
    rename_i hidx
    obtain ⟨rest, hrest, hok⟩ := bind_eq_ok_iff.mp hok
    obtain rfl := Except.ok.inj hok
    by_cases hlast : plaintext.length ≤ size.plaintextSize segmentIndex
    · have htake := List.take_of_length_le hlast
      have hdrop := drop_of_length_le hlast
      rw [hdrop, encryptSegments, if_pos rfl] at hrest
      obtain rfl := Except.ok.inj hrest
      rw [htake, decide_eq_true (le_refl plaintext.length)]
      exact .last (not_lt.mp hidx) hlast
    · have hchunk : (plaintext.take (size.plaintextSize segmentIndex)).length =
          size.plaintextSize segmentIndex := by
        rw [length_take]
        omega
      have hdropNe : plaintext.drop (size.plaintextSize segmentIndex) ≠ [] := by
        rw [Ne, drop_eq_nil_iff]
        exact hlast
      have htail := ih (plaintext.drop (size.plaintextSize segmentIndex)).length
        (by rw [length_drop]; omega) hdropNe hrest rfl
      have hfull := Segments.full (not_lt.mp hidx) hchunk hdropNe htail
      rw [List.take_append_drop] at hfull
      rw [hchunk, decide_eq_false hlast]
      exact hfull

section

variable (hsegments : Segments crypto derivedKey noncePrefix size segmentIndex plaintext calls)

include hsegments

theorem Segments.plaintext_eq :
    calls.flatMap GcmCall.plaintext = plaintext := by
  induction hsegments with
  | last hidx hroom => rw [flatMap_singleton, gcmCall]
  | full hidx hchunk hrest htail ih => rw [flatMap_cons, ih, gcmCall]

theorem Segments.getElem? {position : ℕ} {call : GcmCall} (hcall : calls[position]? = some call) :
    call.key = derivedKey ∧ segmentIndex + position ≤ maxSegmentIndex ∧
      call.iv = buildNonce noncePrefix (segmentIndex + position)
        (decide (position + 1 = calls.length)) := by
  induction hsegments generalizing position with
  | last hidx hroom =>
    cases position with
    | zero =>
      obtain rfl := Option.some.inj hcall
      exact ⟨rfl, hidx, rfl⟩
    | succ position => simp at hcall
  | full hidx hchunk hrest htail ih =>
    cases position with
    | zero =>
      obtain rfl := Option.some.inj hcall
      refine ⟨rfl, hidx, ?_⟩
      have hlen := length_pos_iff.mpr htail.ne_nil
      rw [length_cons, decide_eq_false (by omega)]
      rfl
    | succ position =>
      rw [getElem?_cons_succ] at hcall
      obtain ⟨hkey, hpos, hiv⟩ := ih hcall
      refine ⟨hkey, by omega, ?_⟩
      rw [hiv, length_cons, Nat.add_assoc, Nat.add_comm 1 position]
      congr 1
      simp

theorem Segments.nodup :
    (calls.map GcmCall.iv).Nodup := by
  rw [nodup_iff_pairwise_ne, pairwise_map, pairwise_iff_getElem]
  intro first second hfst hsnd hlt heq
  obtain ⟨-, hfirstIndex, hfirstIv⟩ := hsegments.getElem? (getElem?_eq_getElem hfst)
  obtain ⟨-, hsecondIndex, hsecondIv⟩ := hsegments.getElem? (getElem?_eq_getElem hsnd)
  rw [hfirstIv, hsecondIv] at heq
  have hidx := (buildNonce_inj rfl hfirstIndex hsecondIndex heq).2.1
  omega

end

end Segments

/-! ## The encryptor -/

variable {crypto : StreamCrypto}

theorem assertStreamKey_eq_ok_iff {key : Bytes} :
    assertStreamKey key = .ok () ↔ key.length = 32 := by
  rw [assertStreamKey]
  split
  · rename_i hlen
    exact ⟨nofun, fun hkey => absurd hkey hlen⟩
  · rename_i hlen
    exact ⟨fun _ => not_not.mp hlen, fun _ => rfl⟩

theorem assertSegmentSize_eq_ok_iff {size : SegmentSize} :
    assertSegmentSize segmentSize = .ok size ↔ size.size = segmentSize := by
  rw [assertSegmentSize]
  split
  · rename_i hsize
    refine ⟨nofun, ?_⟩
    rintro rfl
    exact absurd size.le_size (not_le.mpr hsize)
  · rw [pure_eq_ok, Except.ok.injEq]
    constructor
    · rintro rfl
      rfl
    · rintro rfl
      rfl

def streamKey (crypto : StreamCrypto) (key associatedData : Bytes) (random : StreamRandom) :
    Bytes :=
  crypto.hkdf key random.salt (streamInfo associatedData) 32

theorem streamingEncrypt_cases {key : Bytes}
    (hok : streamingEncrypt crypto key plaintext associatedData segmentSize random = .ok result) :
    key.length = 32 ∧ ∃ size : SegmentSize, size.size = segmentSize ∧
      Segments crypto (streamKey crypto key associatedData random) random.noncePrefix size 0
        plaintext result.calls ∧
      result.ciphertext = streamHeader random ++ result.calls.flatMap GcmCall.ciphertext := by
  rw [streamingEncrypt] at hok
  obtain ⟨_, hkey, hok⟩ := bind_eq_ok_iff.mp hok
  obtain ⟨size, hsize, hok⟩ := bind_eq_ok_iff.mp hok
  obtain ⟨segments, hsegments, hok⟩ := bind_eq_ok_iff.mp hok
  obtain rfl := Except.ok.inj hok
  refine ⟨assertStreamKey_eq_ok_iff.mp hkey, size, assertSegmentSize_eq_ok_iff.mp hsize, ?_, rfl⟩
  by_cases hempty : plaintext = []
  · rw [hempty, encryptSegments, if_pos rfl] at hsegments
    obtain rfl := Except.ok.inj hsegments
    rw [hempty, length_nil, if_pos rfl, nil_append]
    exact .last (Nat.zero_le _) (Nat.zero_le _)
  · have hlen : ¬ plaintext.length = 0 := by rwa [length_eq_zero_iff]
    rw [if_neg hlen]
    exact .of_encryptSegments hempty hsegments

def plaintextCapacity (size : SegmentSize) (segmentIndex : ℕ) : ℕ :=
  size.plaintextSize segmentIndex +
    (maxSegmentIndex - segmentIndex) * (size.size - streamingAuthTagLength)

theorem plaintextCapacity_succ (size : SegmentSize) (hidx : segmentIndex < maxSegmentIndex) :
    plaintextCapacity size segmentIndex =
      size.plaintextSize segmentIndex + plaintextCapacity size (segmentIndex + 1) := by
  have hsplit : maxSegmentIndex - segmentIndex =
      maxSegmentIndex - (segmentIndex + 1) + 1 := by omega
  have hlater : size.plaintextSize (segmentIndex + 1) = size.size - streamingAuthTagLength :=
    if_neg (by omega)
  rw [plaintextCapacity, plaintextCapacity, hlater, hsplit]
  ring

variable {derivedKey : Bytes}

/-- The loop returns as long as the indices are enough; the induction is on the plaintext. -/
theorem encryptSegments_ok_iff {noncePrefix : Bytes} {size : SegmentSize}
    (hidx : segmentIndex ≤ maxSegmentIndex) :
    (∃ calls, encryptSegments crypto derivedKey noncePrefix size segmentIndex plaintext =
        .ok calls) ↔ plaintext.length ≤ plaintextCapacity size segmentIndex := by
  induction hlen : plaintext.length using Nat.strong_induction_on
    generalizing segmentIndex plaintext with
  | _ length ih =>
    have hroom := size.plaintextSize_pos segmentIndex
    by_cases hempty : plaintext = []
    · rw [hempty, length_nil] at hlen
      rw [encryptSegments, if_pos hempty, ← hlen]
      exact ⟨fun _ => Nat.zero_le _, fun _ => ⟨_, rfl⟩⟩
    have hpos : 0 < plaintext.length := length_pos_iff.mpr hempty
    rw [encryptSegments, if_neg hempty, if_neg (not_lt.mpr hidx)]
    have hbind : (∃ calls, (do
        let rest ← encryptSegments crypto derivedKey noncePrefix size (segmentIndex + 1)
          (plaintext.drop (size.plaintextSize segmentIndex))
        pure (gcmCall crypto derivedKey (plaintext.take (size.plaintextSize segmentIndex))
          (buildNonce noncePrefix segmentIndex (decide (plaintext.length ≤
            (plaintext.take (size.plaintextSize segmentIndex)).length))) :: rest)) =
          (.ok calls : Except ProtocolError (List GcmCall))) ↔
        ∃ rest, encryptSegments crypto derivedKey noncePrefix size (segmentIndex + 1)
          (plaintext.drop (size.plaintextSize segmentIndex)) = .ok rest := by
      constructor
      · rintro ⟨calls, hok⟩
        obtain ⟨rest, hrest, -⟩ := bind_eq_ok_iff.mp hok
        exact ⟨rest, hrest⟩
      · rintro ⟨rest, hrest⟩
        exact ⟨_, by rw [hrest]; rfl⟩
    rw [hbind]
    by_cases hlast : segmentIndex = maxSegmentIndex
    · -- No index is left for a rest.
      have hcapacity : plaintextCapacity size segmentIndex = size.plaintextSize segmentIndex := by
        rw [plaintextCapacity, hlast, Nat.sub_self, Nat.zero_mul, Nat.add_zero]
      rw [hcapacity, encryptSegments]
      by_cases hfits : plaintext.length ≤ size.plaintextSize segmentIndex
      · rw [if_pos (drop_of_length_le hfits)]
        exact ⟨fun _ => by omega, fun _ => ⟨_, rfl⟩⟩
      · rw [if_neg (by rwa [drop_eq_nil_iff]), if_pos (by omega)]
        constructor
        · rintro ⟨rest, hrest⟩
          cases hrest
        · intro hle
          omega
    · have hcapacity := plaintextCapacity_succ size (show segmentIndex < maxSegmentIndex by omega)
      rw [ih (plaintext.drop (size.plaintextSize segmentIndex)).length
        (by rw [length_drop]; omega) (by omega) rfl, length_drop]
      omega

theorem streamingEncrypt_ok_iff {key : Bytes} (hkey : key.length = 32)
    (hsize : minSegmentSize ≤ segmentSize) :
    (∃ result, streamingEncrypt crypto key plaintext associatedData segmentSize random =
        .ok result) ↔
      plaintext.length ≤ plaintextCapacity ⟨segmentSize, hsize⟩ 0 := by
  have hloop : (∃ segments, encryptSegments crypto (streamKey crypto key associatedData random)
      random.noncePrefix ⟨segmentSize, hsize⟩ 0 plaintext = .ok segments) ↔
        plaintext.length ≤ plaintextCapacity ⟨segmentSize, hsize⟩ 0 :=
    encryptSegments_ok_iff (Nat.zero_le _)
  rw [← hloop, streamingEncrypt, assertStreamKey_eq_ok_iff.mpr hkey, ok_bind,
    assertSegmentSize_eq_ok_iff.mpr (show SegmentSize.size ⟨segmentSize, hsize⟩ = segmentSize from
      rfl), ok_bind]
  constructor
  · rintro ⟨result, hok⟩
    obtain ⟨segments, hsegments, -⟩ := bind_eq_ok_iff.mp hok
    exact ⟨segments, hsegments⟩
  · rintro ⟨segments, hsegments⟩
    exact ⟨_, bind_eq_ok_iff.mpr ⟨segments, hsegments, rfl⟩⟩

/-- What AES-GCM is, without any assumption on its strength: it decrypts what it encrypted, and a
ciphertext is as long as its plaintext with a tag. -/
structure GcmCorrect (crypto : StreamCrypto) : Prop where
  decrypt_encrypt : ∀ key plaintext iv, crypto.aesGcmDecryptWithIVBytes key
    (crypto.aesGcmEncryptWithIVBytes key plaintext iv) iv = some plaintext
  length_encrypt : ∀ key plaintext iv, (crypto.aesGcmEncryptWithIVBytes key plaintext iv).length =
    plaintext.length + streamingAuthTagLength

theorem SegmentSize.ciphertextSize_eq (size : SegmentSize) (segmentIndex : ℕ) :
    size.ciphertextSize segmentIndex =
      size.plaintextSize segmentIndex + streamingAuthTagLength := by
  have hsize := size.le_size
  simp only [minSegmentSize, streamingHeaderLength, streamingAuthTagLength] at hsize
  rw [ciphertextSize, plaintextSize, streamingHeaderLength, streamingAuthTagLength]
  split
  · omega
  · omega

theorem decryptSegments_cons {noncePrefix : Bytes} {size : SegmentSize} {found : Bool}
    {rest : Bytes} (hidx : segmentIndex ≤ maxSegmentIndex)
    (htag : streamingAuthTagLength ≤ chunk.length)
    (hchunk : min (size.ciphertextSize segmentIndex) (chunk ++ rest).length = chunk.length)
    (hlast : isLast = decide (rest = []))
    (hdecrypt : crypto.aesGcmDecryptWithIVBytes derivedKey chunk
      (buildNonce noncePrefix segmentIndex isLast) = some plaintext) :
    decryptSegments crypto derivedKey noncePrefix size segmentIndex found (chunk ++ rest) =
      (decryptSegments crypto derivedKey noncePrefix size (segmentIndex + 1) (isLast || found) rest
        >>= fun later => pure (later.1, plaintext ++ later.2)) := by
  have hne : chunk ++ rest ≠ [] := by
    rw [streamingAuthTagLength] at htag
    intro hnil
    rw [(append_eq_nil_iff.mp hnil).1, length_nil] at htag
    omega
  have hflag : decide ((chunk ++ rest).length ≤ chunk.length) = isLast := by
    rw [hlast, length_append, decide_eq_decide, ← length_eq_zero_iff]
    omega
  rw [decryptSegments, if_neg hne, if_neg (not_lt.mpr hidx), hchunk, if_neg (not_lt.mpr htag),
    List.take_left, drop_left, hflag]
  simp only [hdecrypt]

/-- The decryptor finds the encryptor's segments; the induction is on the segments. -/
theorem Segments.decrypt (hcorrect : GcmCorrect crypto) {noncePrefix : Bytes} {size : SegmentSize}
    (hsegments : Segments crypto derivedKey noncePrefix size segmentIndex plaintext calls)
    (found : Bool) :
    decryptSegments crypto derivedKey noncePrefix size segmentIndex found
      (calls.flatMap GcmCall.ciphertext) = .ok (true, plaintext) := by
  induction hsegments generalizing found with
  | @last segmentIndex plaintext hidx hroom =>
    have hlen := hcorrect.length_encrypt derivedKey plaintext
      (buildNonce noncePrefix segmentIndex true)
    have hsize := size.ciphertextSize_eq segmentIndex
    rw [flatMap_singleton, gcmCall, ← append_nil (GcmCall.ciphertext _),
      decryptSegments_cons hidx (by rw [hlen]; omega)
        (by rw [append_nil, hlen]; omega) (by simp)
        (hcorrect.decrypt_encrypt derivedKey plaintext _),
      decryptSegments, if_pos rfl, pure_eq_ok, ok_bind]
    simp
  | @full segmentIndex chunk rest calls hidx hchunk hrest htail ih =>
    have hlen := hcorrect.length_encrypt derivedKey chunk
      (buildNonce noncePrefix segmentIndex false)
    have hsize := size.ciphertextSize_eq segmentIndex
    have hlater : calls.flatMap GcmCall.ciphertext ≠ [] := by
      intro hnil
      have hplain := ih found
      rw [hnil, decryptSegments, if_pos rfl] at hplain
      exact hrest (Prod.mk.inj (Except.ok.inj hplain)).2.symm
    rw [flatMap_cons, gcmCall, decryptSegments_cons hidx (by rw [hlen]; omega)
        (by rw [length_append, hlen]; omega) (by simp [hlater])
        (hcorrect.decrypt_encrypt derivedKey chunk _), ih, ok_bind]
    rfl

theorem length_streamHeader (random : StreamRandom) :
    (streamHeader random).length = streamingHeaderLength := by
  rw [streamHeader, length_cons, length_append, random.salt_length, random.noncePrefix_length]
  rfl

theorem salt_streamHeader (random : StreamRandom) (body : Bytes) :
    ((streamHeader random ++ body).drop 1).take streamingSaltLength = random.salt := by
  rw [streamHeader, cons_append, drop_succ_cons, drop_zero, append_assoc,
    List.take_left' random.salt_length]

theorem noncePrefix_streamHeader (random : StreamRandom) (body : Bytes) :
    ((streamHeader random ++ body).take streamingHeaderLength).drop (1 + streamingSaltLength) =
      random.noncePrefix := by
  rw [List.take_left' (length_streamHeader random), streamHeader, Nat.add_comm,
    drop_succ_cons, drop_left' random.salt_length]

theorem streamingDecrypt_header {key : Bytes} {size : SegmentSize} (hkey : key.length = 32)
    (hsize : size.size = segmentSize) (random : StreamRandom) (body : Bytes) :
    streamingDecrypt crypto key (streamHeader random ++ body) associatedData segmentSize =
      (decryptSegments crypto (streamKey crypto key associatedData random) random.noncePrefix size
        0 false body >>= fun segments =>
          if segments.1 then pure segments.2
          else throw (.error "Stream truncated: last segment flag not found")) := by
  have hlen : ¬ (streamHeader random ++ body).length < streamingHeaderLength := by
    rw [length_append, length_streamHeader]
    omega
  have htag : ¬ ((streamHeader random ++ body).getD 0 0).toNat ≠ streamingHeaderLength :=
    not_not.mpr rfl
  rw [streamingDecrypt, assertStreamKey_eq_ok_iff.mpr hkey, ok_bind,
    assertSegmentSize_eq_ok_iff.mpr hsize, ok_bind, if_neg hlen, if_neg htag,
    salt_streamHeader, noncePrefix_streamHeader, drop_left' (length_streamHeader random)]
  rfl

theorem streamingDecrypt_streamingEncrypt (hcorrect : GcmCorrect crypto) {key : Bytes}
    (hok : streamingEncrypt crypto key plaintext associatedData segmentSize random = .ok result) :
    streamingDecrypt crypto key result.ciphertext associatedData segmentSize = .ok plaintext := by
  obtain ⟨hkey, size, hsize, hsegments, hcipher⟩ := streamingEncrypt_cases hok
  rw [hcipher, streamingDecrypt_header hkey hsize, hsegments.decrypt hcorrect, ok_bind, if_pos rfl]
  rfl

/-! ## Accepted streams -/

/-- A stream that the encryptor produced. -/
structure ProducedStream (crypto : StreamCrypto) where
  key : Bytes
  plaintext : Bytes
  associatedData : Bytes
  segmentSize : ℕ
  random : StreamRandom
  result : StreamingEncryptResult
  produced : streamingEncrypt crypto key plaintext associatedData segmentSize random = .ok result

/-- Ideal AES-GCM: it accepts what a call of a produced stream gave, under the key and the nonce of
the call. -/
def GcmIdeal (crypto : StreamCrypto) (streams : Set (ProducedStream crypto)) : Prop :=
  ∀ key ciphertext iv plaintext,
    crypto.aesGcmDecryptWithIVBytes key ciphertext iv = some plaintext →
      ∃ stream ∈ streams, ⟨key, plaintext, iv, ciphertext⟩ ∈ stream.result.calls

def HkdfInjective (crypto : StreamCrypto) : Prop :=
  ∀ ikm salt info ikm' salt' info', ikm.length = 32 → salt.length = streamingSaltLength →
    ikm'.length = 32 → salt'.length = streamingSaltLength →
      crypto.hkdf ikm salt info 32 = crypto.hkdf ikm' salt' info' 32 →
        ikm = ikm' ∧ salt = salt' ∧ info = info'

/-- The random bytes of a stream do not come again under its key and associated data. -/
def RandomFresh (streams : Set (ProducedStream crypto)) : Prop :=
  ∀ stream ∈ streams, ∀ other ∈ streams, stream.key = other.key →
    stream.associatedData = other.associatedData → stream.random = other.random → stream = other

theorem streamInfo_eq (associatedData : Bytes) :
    streamInfo associatedData = streamingHkdfInfo ++ associatedData := by
  rw [streamInfo]
  split
  · rfl
  · rename_i hlen
    have hnil : associatedData = [] := eq_nil_of_length_eq_zero (by omega)
    rw [hnil, append_nil]

/-- The stream of an accepted segment is the one with the key and the random bytes of the
decryptor, and the segment stands at its index. -/
theorem accepted_call {streams : Set (ProducedStream crypto)} (hgcm : GcmIdeal crypto streams)
    (hhkdf : HkdfInjective crypto) {key : Bytes} (hkey : key.length = 32)
    (hidx : segmentIndex ≤ maxSegmentIndex)
    (haccept : crypto.aesGcmDecryptWithIVBytes (streamKey crypto key associatedData random) chunk
      (buildNonce random.noncePrefix segmentIndex isLast) = some plaintext) :
    ∃ stream ∈ streams, stream.key = key ∧ stream.associatedData = associatedData ∧
      stream.random = random ∧ isLast = decide (segmentIndex + 1 = stream.result.calls.length) ∧
      ∃ call, stream.result.calls[segmentIndex]? = some call ∧ call.ciphertext = chunk ∧
        call.plaintext = plaintext := by
  obtain ⟨stream, hstream, hmem⟩ := hgcm _ _ _ _ haccept
  obtain ⟨hstreamKey, size, -, hsegments, -⟩ := streamingEncrypt_cases stream.produced
  obtain ⟨position, hpos⟩ := getElem?_of_mem hmem
  obtain ⟨hderive, hpositionIndex, hnonce⟩ := hsegments.getElem? hpos
  rw [Nat.zero_add] at hpositionIndex hnonce
  obtain ⟨hsameKey, hsalt, hinfo⟩ := hhkdf _ _ _ _ _ _ hkey random.salt_length hstreamKey
    stream.random.salt_length hderive
  obtain ⟨hbegins, hsameIndex, hflag⟩ := buildNonce_inj
    (random.noncePrefix_length.trans stream.random.noncePrefix_length.symm) hidx hpositionIndex
    hnonce
  rw [streamInfo_eq, streamInfo_eq] at hinfo
  refine ⟨stream, hstream, hsameKey.symm, (append_cancel_left hinfo).symm, ?_, ?_,
    ⟨_, hsameIndex.symm ▸ hpos, rfl, rfl⟩⟩
  · rcases hrandom : random with ⟨salt, noncePrefix, _, _⟩
    rcases hother : stream.random with ⟨salt', noncePrefix', _, _⟩
    rw [hrandom, hother] at hsalt hbegins
    rw [StreamRandom.mk.injEq]
    exact ⟨hsalt.symm, hbegins.symm⟩
  · rw [hflag, hsameIndex]

theorem decryptSegments_cases {noncePrefix : Bytes} {size : SegmentSize} {found : Bool}
    {body : Bytes} (hne : body ≠ [])
    (hok : decryptSegments crypto derivedKey noncePrefix size segmentIndex found body =
      .ok decrypted) :
    ∃ isLast plaintext later, segmentIndex ≤ maxSegmentIndex ∧
      isLast = decide (body.length ≤ size.ciphertextSize segmentIndex) ∧
      crypto.aesGcmDecryptWithIVBytes derivedKey (body.take (size.ciphertextSize segmentIndex))
        (buildNonce noncePrefix segmentIndex isLast) = some plaintext ∧
      decryptSegments crypto derivedKey noncePrefix size (segmentIndex + 1) (isLast || found)
        (body.drop (size.ciphertextSize segmentIndex)) = .ok later ∧
      decrypted = (later.1, plaintext ++ later.2) := by
  have htake : body.take (min (size.ciphertextSize segmentIndex) body.length) =
      body.take (size.ciphertextSize segmentIndex) := by
    rw [List.take_eq_take_iff]
    omega
  have hdrop : body.drop (min (size.ciphertextSize segmentIndex) body.length) =
      body.drop (size.ciphertextSize segmentIndex) := by
    by_cases hlast : body.length ≤ size.ciphertextSize segmentIndex
    · rw [min_eq_right hlast, drop_length, drop_of_length_le hlast]
    · rw [min_eq_left (by omega)]
  have hflag : decide (body.length ≤ min (size.ciphertextSize segmentIndex) body.length) =
      decide (body.length ≤ size.ciphertextSize segmentIndex) := by
    rw [decide_eq_decide]
    omega
  rw [decryptSegments, if_neg hne] at hok
  split at hok
  · cases hok
  rename_i hidx
  dsimp only at hok
  split at hok
  · cases hok
  rw [htake, hdrop, hflag] at hok
  cases haccept : crypto.aesGcmDecryptWithIVBytes derivedKey
    (body.take (size.ciphertextSize segmentIndex)) (buildNonce noncePrefix segmentIndex
      (decide (body.length ≤ size.ciphertextSize segmentIndex))) with
  | none =>
    simp only [haccept] at hok
    cases hok
  | some plaintext =>
    simp only [haccept] at hok
    obtain ⟨later, hlater, hok⟩ := bind_eq_ok_iff.mp hok
    exact ⟨_, plaintext, later, not_lt.mp hidx, rfl, haccept, hlater, (Except.ok.inj hok).symm⟩

/-- What the decryptor's loop accepts is the rest of one stream; the induction is on the bytes. -/
theorem decryptSegments_accepted {noncePrefix : Bytes} {size : SegmentSize}
    (hcalls : ∀ segmentIndex isLast chunk plaintext, segmentIndex ≤ maxSegmentIndex →
      crypto.aesGcmDecryptWithIVBytes derivedKey chunk
        (buildNonce noncePrefix segmentIndex isLast) = some plaintext →
      isLast = decide (segmentIndex + 1 = calls.length) ∧
        ∃ call, calls[segmentIndex]? = some call ∧ call.ciphertext = chunk ∧
          call.plaintext = plaintext) {found : Bool} {body : Bytes} (hne : body ≠ [])
    (hok : decryptSegments crypto derivedKey noncePrefix size segmentIndex found body =
      .ok decrypted) :
    body = (calls.drop segmentIndex).flatMap GcmCall.ciphertext ∧
      decrypted.2 = (calls.drop segmentIndex).flatMap GcmCall.plaintext := by
  induction hlen : body.length using Nat.strong_induction_on
    generalizing segmentIndex found body decrypted with
  | _ length ih =>
    have hpos : 0 < body.length := length_pos_iff.mpr hne
    have hroom := size.ciphertextSize_pos segmentIndex
    obtain ⟨isLast, plaintext, later, hidx, hflag, haccept, hlater, rfl⟩ :=
      decryptSegments_cases hne hok
    obtain ⟨hend, call, hcall, hchunk, hplaintext⟩ := hcalls _ _ _ _ hidx haccept
    obtain ⟨hposition, hget⟩ := List.getElem?_eq_some_iff.mp hcall
    rw [drop_eq_getElem_cons hposition, hget, flatMap_cons, flatMap_cons, hchunk, hplaintext]
    by_cases hlast : body.length ≤ size.ciphertextSize segmentIndex
    · -- The flag of the last segment stands at the end of the stream.
      rw [hflag, decide_eq_true hlast] at hend
      have hlen := of_decide_eq_true hend.symm
      rw [drop_of_length_le hlast, decryptSegments, if_pos rfl] at hlater
      obtain rfl := Except.ok.inj hlater
      rw [drop_of_length_le hlen.ge, List.take_of_length_le hlast]
      simp
    · have hrest : body.drop (size.ciphertextSize segmentIndex) ≠ [] := by
        rw [Ne, drop_eq_nil_iff]
        exact hlast
      obtain ⟨hbody, hplain⟩ := ih (body.drop (size.ciphertextSize segmentIndex)).length
        (by rw [length_drop]; omega) hrest hlater rfl
      rw [← hbody, ← hplain, List.take_append_drop]
      exact ⟨rfl, rfl⟩

theorem streamingDecrypt_cases {key : Bytes}
    (hok : streamingDecrypt crypto key ciphertext associatedData segmentSize = .ok plaintext) :
    key.length = 32 ∧ ∃ size : SegmentSize, ∃ random body,
      ciphertext = streamHeader random ++ body ∧ body ≠ [] ∧
        decryptSegments crypto (streamKey crypto key associatedData random)
          random.noncePrefix size 0 false body = .ok (true, plaintext) := by
  have hwhole := hok
  rw [streamingDecrypt] at hok
  obtain ⟨_, hkey, hok⟩ := bind_eq_ok_iff.mp hok
  obtain ⟨size, hsize, hok⟩ := bind_eq_ok_iff.mp hok
  split at hok
  · cases hok
  rename_i hlen
  split at hok
  · cases hok
  rename_i htag
  have hkeyLength := assertStreamKey_eq_ok_iff.mp hkey
  rw [streamingHeaderLength, not_lt] at hlen
  obtain ⟨tag, rest, rfl⟩ := exists_cons_of_length_pos (show 0 < ciphertext.length by omega)
  have hrest : 39 ≤ rest.length := by
    rw [length_cons] at hlen
    omega
  let random : StreamRandom := {
    salt := rest.take 32
    noncePrefix := (rest.drop 32).take 7
    salt_length := by
      rw [length_take, streamingSaltLength]
      omega
    noncePrefix_length := by
      rw [length_take, length_drop, streamingNoncePrefixLength]
      omega }
  have hsplit : tag :: rest = streamHeader random ++ (rest.drop 32).drop 7 := by
    have htagByte : tag = UInt8.ofNat streamingHeaderLength := by
      rw [← UInt8.toNat_inj]
      exact not_not.mp htag
    rw [streamHeader, htagByte, cons_append, append_assoc, List.take_append_drop,
      List.take_append_drop]
  rw [hsplit, streamingDecrypt_header hkeyLength (assertSegmentSize_eq_ok_iff.mp hsize)] at hwhole
  obtain ⟨⟨found, decrypted⟩, hsegments, hfound⟩ := bind_eq_ok_iff.mp hwhole
  cases found with
  | false => cases hfound
  | true =>
    obtain rfl := Except.ok.inj hfound
    refine ⟨hkeyLength, size, random, (rest.drop 32).drop 7, hsplit, ?_, hsegments⟩
    -- A header alone has no last segment.
    intro hnil
    rw [hnil, decryptSegments, if_pos rfl] at hsegments
    cases hsegments

theorem streamingDecrypt_accepted {streams : Set (ProducedStream crypto)}
    (hgcm : GcmIdeal crypto streams) (hhkdf : HkdfInjective crypto) (hfresh : RandomFresh streams)
    {key : Bytes}
    (hok : streamingDecrypt crypto key ciphertext associatedData segmentSize = .ok plaintext) :
    ∃ stream ∈ streams, stream.key = key ∧ stream.associatedData = associatedData ∧
      stream.result.ciphertext = ciphertext ∧ stream.plaintext = plaintext := by
  obtain ⟨hkey, size, random, body, rfl, hne, hsegments⟩ := streamingDecrypt_cases hok
  obtain ⟨stream, hstream, hstreamKey, hdata, hrandom⟩ : ∃ stream ∈ streams, stream.key = key ∧
      stream.associatedData = associatedData ∧ stream.random = random := by
    obtain ⟨isLast, first, later, hidx, -, haccept, -, -⟩ := decryptSegments_cases hne hsegments
    obtain ⟨stream, hstream, hstreamKey, hdata, hrandom, -⟩ :=
      accepted_call hgcm hhkdf hkey hidx haccept
    exact ⟨stream, hstream, hstreamKey, hdata, hrandom⟩
  obtain ⟨-, _, -, hproduced, hcipher⟩ := streamingEncrypt_cases stream.produced
  have hcalls : ∀ segmentIndex isLast chunk accepted, segmentIndex ≤ maxSegmentIndex →
      crypto.aesGcmDecryptWithIVBytes (streamKey crypto key associatedData random) chunk
        (buildNonce random.noncePrefix segmentIndex isLast) = some accepted →
      isLast = decide (segmentIndex + 1 = stream.result.calls.length) ∧
        ∃ call, stream.result.calls[segmentIndex]? = some call ∧ call.ciphertext = chunk ∧
          call.plaintext = accepted := by
    intro segmentIndex isLast chunk accepted hidx haccept
    obtain ⟨other, hother, hotherKey, hotherData, hotherRandom, hcall⟩ :=
      accepted_call hgcm hhkdf hkey hidx haccept
    obtain rfl := hfresh stream hstream other hother (hstreamKey.trans hotherKey.symm)
      (hdata.trans hotherData.symm) (hrandom.trans hotherRandom.symm)
    exact hcall
  obtain ⟨hbody, hplaintext⟩ := decryptSegments_accepted hcalls hne hsegments
  rw [drop_zero] at hbody hplaintext
  refine ⟨stream, hstream, hstreamKey, hdata, ?_, ?_⟩
  · rw [hcipher, hrandom, hbody]
  · rw [← hproduced.plaintext_eq, ← hplaintext]

/-- Correctness needs only that AES-GCM decrypts what it encrypted; the rejection of all other
strings is under ideal AES-GCM, an injective HKDF and fresh random bytes. -/
theorem streamingAead_online (crypto : StreamCrypto) :
    (GcmCorrect crypto → ∀ key plaintext associatedData segmentSize random result,
      streamingEncrypt crypto key plaintext associatedData segmentSize random = .ok result →
        streamingDecrypt crypto key result.ciphertext associatedData segmentSize = .ok plaintext) ∧
    (∀ key plaintext associatedData segmentSize random, key.length = 32 → 57 ≤ segmentSize →
      ((∃ result, streamingEncrypt crypto key plaintext associatedData segmentSize random =
          .ok result) ↔
        plaintext.length ≤ segmentSize - 56 + (2 ^ 32 - 1) * (segmentSize - 16))) ∧
    (∀ key plaintext associatedData segmentSize random result,
      streamingEncrypt crypto key plaintext associatedData segmentSize random = .ok result →
        (result.calls.map GcmCall.iv).Nodup) ∧
    ∀ streams : Set (ProducedStream crypto), GcmIdeal crypto streams → HkdfInjective crypto →
      RandomFresh streams → ∀ key ciphertext associatedData segmentSize plaintext,
        streamingDecrypt crypto key ciphertext associatedData segmentSize = .ok plaintext →
          ∃ stream ∈ streams, stream.key = key ∧ stream.associatedData = associatedData ∧
            stream.result.ciphertext = ciphertext ∧ stream.plaintext = plaintext := by
  refine ⟨fun hcorrect key plaintext associatedData segmentSize random result hok => ?_,
    fun key plaintext associatedData segmentSize random hkey hsize => ?_,
    fun key plaintext associatedData segmentSize random result hok => ?_,
    fun streams hgcm hhkdf hfresh key ciphertext associatedData segmentSize plaintext hok => ?_⟩
  · exact streamingDecrypt_streamingEncrypt hcorrect hok
  · exact streamingEncrypt_ok_iff hkey hsize
  · obtain ⟨-, _, -, hsegments, -⟩ := streamingEncrypt_cases hok
    exact hsegments.nodup
  · exact streamingDecrypt_accepted hgcm hhkdf hfresh hok

/-- A cipher that leaves the plaintext as it is, with an empty tag. -/
def plainStreamCrypto : StreamCrypto where
  hkdf ikm salt info _ := ikm ++ salt ++ info
  aesGcmEncryptWithIVBytes _ plaintext _ := plaintext ++ List.replicate 16 0
  aesGcmDecryptWithIVBytes _ ciphertext _ :=
    if ciphertext.drop (ciphertext.length - 16) = List.replicate 16 0 then
      some (ciphertext.take (ciphertext.length - 16))
    else none

theorem gcmCorrect_plainStreamCrypto : GcmCorrect plainStreamCrypto where
  decrypt_encrypt key plaintext iv := by
    have hlen : (plaintext ++ List.replicate 16 (0 : UInt8)).length - 16 = plaintext.length := by
      rw [length_append, length_replicate, Nat.add_sub_cancel]
    rw [plainStreamCrypto]
    dsimp only
    rw [hlen, drop_left, List.take_left, if_pos rfl]
  length_encrypt key plaintext iv := by
    rw [plainStreamCrypto, streamingAuthTagLength, length_append, length_replicate]

def plainRandom : StreamRandom where
  salt := List.replicate 32 1
  noncePrefix := List.replicate 7 2
  salt_length := rfl
  noncePrefix_length := rfl

/-- The only segment of a stream with one byte. -/
def plainCall : GcmCall :=
  gcmCall plainStreamCrypto (streamKey plainStreamCrypto (List.replicate 32 3) [] plainRandom) [9]
    (buildNonce plainRandom.noncePrefix 0 true)

def acceptPlainCall (key ciphertext iv : Bytes) : Option Bytes :=
  if key = plainCall.key ∧ ciphertext = plainCall.ciphertext ∧ iv = plainCall.iv then
    some plainCall.plaintext
  else none

/-- The same cipher, which accepts this segment alone. -/
def idealStreamCrypto : StreamCrypto :=
  { plainStreamCrypto with aesGcmDecryptWithIVBytes := acceptPlainCall }

def plainResult : StreamingEncryptResult :=
  ⟨streamHeader plainRandom ++ plainCall.ciphertext, 57, [plainCall]⟩

theorem streamingEncrypt_plainResult (decrypt : (key ciphertext iv : Bytes) → Option Bytes) :
    streamingEncrypt { plainStreamCrypto with aesGcmDecryptWithIVBytes := decrypt }
      (List.replicate 32 3) [9] [] 57 plainRandom = .ok plainResult := by
  have hsize : assertSegmentSize 57 = .ok ⟨57, le_rfl⟩ := rfl
  have hrest : encryptSegments { plainStreamCrypto with aesGcmDecryptWithIVBytes := decrypt }
      plainCall.key plainRandom.noncePrefix ⟨57, le_rfl⟩ 1 [] = .ok [] := by
    rw [encryptSegments, if_pos rfl]
    rfl
  have hsegments : encryptSegments { plainStreamCrypto with aesGcmDecryptWithIVBytes := decrypt }
      plainCall.key plainRandom.noncePrefix ⟨57, le_rfl⟩ 0 [9] = .ok [plainCall] := by
    rw [encryptSegments, if_neg (cons_ne_nil _ _), if_neg (by decide)]
    exact bind_eq_ok_iff.mpr ⟨[], hrest, rfl⟩
  rw [streamingEncrypt, assertStreamKey_eq_ok_iff.mpr rfl, ok_bind, hsize, ok_bind]
  exact bind_eq_ok_iff.mpr ⟨[plainCall], hsegments, rfl⟩

def plainStream : ProducedStream idealStreamCrypto where
  key := List.replicate 32 3
  plaintext := [9]
  associatedData := []
  segmentSize := 57
  random := plainRandom
  result := plainResult
  produced := streamingEncrypt_plainResult _

theorem gcmIdeal_plainStream : GcmIdeal idealStreamCrypto {plainStream} := by
  intro key ciphertext iv plaintext hok
  change acceptPlainCall key ciphertext iv = some plaintext at hok
  rw [acceptPlainCall] at hok
  split at hok
  · rename_i hcall
    obtain ⟨rfl, rfl, rfl⟩ := hcall
    obtain rfl := Option.some.inj hok
    exact ⟨plainStream, rfl, mem_singleton.mpr rfl⟩
  · cases hok

theorem hkdfInjective_idealStreamCrypto : HkdfInjective idealStreamCrypto := by
  intro ikm salt info ikm' salt' info' hikm hsalt hikm' hsalt' heq
  change ikm ++ salt ++ info = ikm' ++ salt' ++ info' at heq
  rw [append_assoc, append_assoc] at heq
  obtain ⟨hkeys, hrest⟩ := append_inj heq (hikm.trans hikm'.symm)
  obtain ⟨hsalts, hinfos⟩ := append_inj hrest (hsalt.trans hsalt'.symm)
  exact ⟨hkeys, hsalts, hinfos⟩

theorem randomFresh_plainStream : RandomFresh {plainStream} := by
  rintro stream rfl other rfl - - -
  rfl

theorem streamingDecrypt_plainStream : streamingDecrypt idealStreamCrypto plainStream.key
    plainStream.result.ciphertext [] 57 = .ok [9] := by
  have hsize : SegmentSize.size ⟨57, le_rfl⟩ = 57 := rfl
  have hchunk :
      min (SegmentSize.ciphertextSize ⟨57, le_rfl⟩ 0) (plainCall.ciphertext ++ []).length =
        plainCall.ciphertext.length := rfl
  have hdecrypt : idealStreamCrypto.aesGcmDecryptWithIVBytes
      (streamKey idealStreamCrypto plainStream.key [] plainRandom) plainCall.ciphertext
        (buildNonce plainRandom.noncePrefix 0 true) = some [9] := by
    change acceptPlainCall plainCall.key plainCall.ciphertext plainCall.iv =
      some plainCall.plaintext
    exact if_pos ⟨rfl, rfl, rfl⟩
  change streamingDecrypt idealStreamCrypto plainStream.key
    (streamHeader plainRandom ++ plainCall.ciphertext) [] 57 = _
  rw [streamingDecrypt_header rfl hsize, ← append_nil plainCall.ciphertext,
    decryptSegments_cons (Nat.zero_le _) (by decide) hchunk rfl hdecrypt, decryptSegments,
    if_pos rfl]
  rfl

/-- Both ciphers meet what the theorem asks of them. -/
theorem streamingAead_online_plain :
    streamingDecrypt plainStreamCrypto (List.replicate 32 3)
        (streamHeader plainRandom ++ plainCall.ciphertext) [] 57 = .ok [9] ∧
      ∃ stream ∈ ({plainStream} : Set (ProducedStream idealStreamCrypto)),
        stream.key = plainStream.key ∧ stream.associatedData = [] ∧
          stream.result.ciphertext = plainStream.result.ciphertext ∧ stream.plaintext = [9] :=
  ⟨(streamingAead_online plainStreamCrypto).1 gcmCorrect_plainStreamCrypto _ _ _ _ plainRandom
      plainResult (streamingEncrypt_plainResult _),
    (streamingAead_online idealStreamCrypto).2.2.2 {plainStream} gcmIdeal_plainStream
      hkdfInjective_idealStreamCrypto randomFresh_plainStream _ _ _ _ _
      streamingDecrypt_plainStream⟩

/-- A plaintext of one byte more than the segments hold is not encrypted. -/
theorem streamingEncrypt_not_total :
    ¬ ∀ crypto, GcmCorrect crypto → ∀ key plaintext associatedData segmentSize random,
      key.length = 32 → 57 ≤ segmentSize →
        ∃ result, streamingEncrypt crypto key plaintext associatedData segmentSize random =
            .ok result ∧
          streamingDecrypt crypto key result.ciphertext associatedData segmentSize =
            .ok plaintext := by
  intro hall
  obtain ⟨result, hok, -⟩ := hall plainStreamCrypto gcmCorrect_plainStreamCrypto
    (List.replicate 32 3) (List.replicate (2 + (2 ^ 32 - 1) * 41) 0) [] 57 plainRandom rfl le_rfl
  have hfits := (streamingEncrypt_ok_iff rfl le_rfl).mp ⟨result, hok⟩
  rw [length_replicate, plaintextCapacity, SegmentSize.plaintextSize, if_pos rfl] at hfits
  simp only [maxSegmentIndex, streamingHeaderLength, streamingAuthTagLength, minSegmentSize]
    at hfits
  omega

end SignalProtocol.Symmetric

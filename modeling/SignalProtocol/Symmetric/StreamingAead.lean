import SignalProtocol.Platform.Text

/-! # The streaming cipher of attachments

A header, then segments that AES-GCM encrypts one by one. The nonce of a segment holds its index
and whether it is the last one. -/

namespace SignalProtocol.Symmetric

open List

def streamingHeaderLength : ℕ := 40

def streamingSaltLength : ℕ := 32

def streamingNoncePrefixLength : ℕ := 7

def streamingAuthTagLength : ℕ := 16

def minSegmentSize : ℕ := streamingHeaderLength + streamingAuthTagLength + 1

def maxSegmentIndex : ℕ := 0xffffffff

def streamingHkdfInfo : Bytes := stringToBytes "attachment"

structure SegmentSize where
  size : ℕ
  le_size : minSegmentSize ≤ size

/-- What `generateRandomBytes` gives for one stream. -/
structure StreamRandom where
  salt : Bytes
  noncePrefix : Bytes
  salt_length : salt.length = streamingSaltLength
  noncePrefix_length : noncePrefix.length = streamingNoncePrefixLength

structure StreamCrypto where
  hkdf : (ikm salt info : Bytes) → (length : ℕ) → Bytes
  aesGcmEncryptWithIVBytes : (key plaintext iv : Bytes) → Bytes
  aesGcmDecryptWithIVBytes : (key ciphertext iv : Bytes) → Option Bytes

def assertSegmentSize (segmentSize : ℕ) : Except ProtocolError SegmentSize :=
  if hsize : segmentSize < minSegmentSize then
    throw (.error s!"Segment size must be at least {minSegmentSize} bytes")
  else pure ⟨segmentSize, Nat.not_lt.mp hsize⟩

def assertStreamKey (key : Bytes) : Except ProtocolError Unit :=
  if key.length ≠ 32 then throw (.error "Streaming AEAD requires 32-byte key") else pure ()

/-- `noncePrefix || segmentIndex || lastSegment` -/
def buildNonce (noncePrefix : Bytes) (segmentIndex : ℕ) (isLastSegment : Bool) : Bytes :=
  noncePrefix ++ [UInt8.ofNat (segmentIndex >>> 24 &&& 0xff),
    UInt8.ofNat (segmentIndex >>> 16 &&& 0xff), UInt8.ofNat (segmentIndex >>> 8 &&& 0xff),
    UInt8.ofNat (segmentIndex &&& 0xff), if isLastSegment then 0x01 else 0x00]

def streamInfo (associatedData : Bytes) : Bytes :=
  if 0 < associatedData.length then streamingHkdfInfo ++ associatedData else streamingHkdfInfo

def SegmentSize.plaintextSize (size : SegmentSize) (segmentIndex : ℕ) : ℕ :=
  if segmentIndex = 0 then size.size - streamingHeaderLength - streamingAuthTagLength
  else size.size - streamingAuthTagLength

def SegmentSize.ciphertextSize (size : SegmentSize) (segmentIndex : ℕ) : ℕ :=
  if segmentIndex = 0 then size.size - streamingHeaderLength else size.size

theorem SegmentSize.plaintextSize_pos (size : SegmentSize) (segmentIndex : ℕ) :
    0 < size.plaintextSize segmentIndex := by
  have hsize := size.le_size
  simp only [minSegmentSize, streamingHeaderLength, streamingAuthTagLength] at hsize
  rw [plaintextSize, streamingHeaderLength, streamingAuthTagLength]
  split
  · omega
  · omega

structure GcmCall where
  key : Bytes
  plaintext : Bytes
  iv : Bytes
  ciphertext : Bytes

section Streams

variable (crypto : StreamCrypto)

def gcmCall (derivedKey plaintext iv : Bytes) : GcmCall :=
  ⟨derivedKey, plaintext, iv, crypto.aesGcmEncryptWithIVBytes derivedKey plaintext iv⟩

/-- The loop of `streamingEncrypt`, over the plaintext that is left. -/
def encryptSegments (derivedKey noncePrefix : Bytes) (size : SegmentSize) (segmentIndex : ℕ)
    (plaintext : Bytes) : Except ProtocolError (List GcmCall) :=
  if plaintext = [] then pure []
  else if maxSegmentIndex < segmentIndex then
    throw (.error "File too large: maximum segment count exceeded")
  else do
    let segmentPlaintext := plaintext.take (size.plaintextSize segmentIndex)
    let isLastSegment := plaintext.length ≤ segmentPlaintext.length
    let segment := gcmCall crypto derivedKey segmentPlaintext
      (buildNonce noncePrefix segmentIndex isLastSegment)
    let rest ← encryptSegments derivedKey noncePrefix size (segmentIndex + 1)
      (plaintext.drop (size.plaintextSize segmentIndex))
    pure (segment :: rest)
termination_by plaintext.length
decreasing_by
  have hroom := size.plaintextSize_pos segmentIndex
  have hlength : 0 < plaintext.length := length_pos_iff.mpr ‹_›
  rw [length_drop]
  omega

structure StreamingEncryptResult where
  ciphertext : Bytes
  segmentSize : ℕ
  calls : List GcmCall

def streamHeader (random : StreamRandom) : Bytes :=
  UInt8.ofNat streamingHeaderLength :: (random.salt ++ random.noncePrefix)

def streamingEncrypt (key plaintext associatedData : Bytes) (segmentSize : ℕ)
    (random : StreamRandom) : Except ProtocolError StreamingEncryptResult := do
  assertStreamKey key
  let size ← assertSegmentSize segmentSize
  let derivedKey := crypto.hkdf key random.salt (streamInfo associatedData) 32
  let segments ← encryptSegments crypto derivedKey random.noncePrefix size 0 plaintext
  -- An empty plaintext has one segment with nothing in it.
  let calls := if plaintext.length = 0 then
      segments ++ [gcmCall crypto derivedKey [] (buildNonce random.noncePrefix 0 true)]
    else segments
  pure ⟨streamHeader random ++ calls.flatMap GcmCall.ciphertext, segmentSize, calls⟩

theorem SegmentSize.ciphertextSize_pos (size : SegmentSize) (segmentIndex : ℕ) :
    0 < size.ciphertextSize segmentIndex := by
  have hsize := size.le_size
  simp only [minSegmentSize, streamingHeaderLength, streamingAuthTagLength] at hsize
  rw [ciphertextSize, streamingHeaderLength]
  split
  · omega
  · omega

/-- The loop of `streamingDecrypt`, over the bytes that are left, with `foundLastSegment`. -/
def decryptSegments (derivedKey noncePrefix : Bytes) (size : SegmentSize) (segmentIndex : ℕ)
    (foundLastSegment : Bool) (ciphertext : Bytes) : Except ProtocolError (Bool × Bytes) :=
  if ciphertext = [] then pure (foundLastSegment, [])
  else if maxSegmentIndex < segmentIndex then
    throw (.error "Ciphertext too large: maximum segment count exceeded")
  else
    let segmentCiphertextSize := min (size.ciphertextSize segmentIndex) ciphertext.length
    if segmentCiphertextSize < streamingAuthTagLength then
      throw (.error s!"Segment {segmentIndex} too small: {segmentCiphertextSize} bytes")
    else do
      let segmentCiphertext := ciphertext.take segmentCiphertextSize
      let isLastSegment : Bool := ciphertext.length ≤ segmentCiphertextSize
      match crypto.aesGcmDecryptWithIVBytes derivedKey segmentCiphertext
          (buildNonce noncePrefix segmentIndex isLastSegment) with
      | none => throw (.error s!"Segment {segmentIndex} decryption failed: authentication error")
      | some segmentPlaintext =>
        let rest ← decryptSegments derivedKey noncePrefix size (segmentIndex + 1)
          (isLastSegment || foundLastSegment) (ciphertext.drop segmentCiphertextSize)
        pure (rest.1, segmentPlaintext ++ rest.2)
termination_by ciphertext.length
decreasing_by
  have hroom := size.ciphertextSize_pos segmentIndex
  have hlength : 0 < ciphertext.length := length_pos_iff.mpr ‹_›
  rw [length_drop]
  omega

def streamingDecrypt (key ciphertext associatedData : Bytes) (segmentSize : ℕ) :
    Except ProtocolError Bytes := do
  assertStreamKey key
  let size ← assertSegmentSize segmentSize
  if ciphertext.length < streamingHeaderLength then
    throw (.error "Ciphertext too short for header")
  else if (ciphertext.getD 0 0).toNat ≠ streamingHeaderLength then
    throw (.error s!"Invalid header length: {ciphertext.getD 0 0}")
  else
    let salt := (ciphertext.drop 1).take streamingSaltLength
    let noncePrefix :=
      (ciphertext.take streamingHeaderLength).drop (1 + streamingSaltLength)
    let derivedKey := crypto.hkdf key salt (streamInfo associatedData) 32
    let segments ← decryptSegments crypto derivedKey noncePrefix size 0 false
      (ciphertext.drop streamingHeaderLength)
    if segments.1 then pure segments.2
    else throw (.error "Stream truncated: last segment flag not found")

end Streams

end SignalProtocol.Symmetric

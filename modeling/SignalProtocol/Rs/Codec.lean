import Mathlib.Algebra.Field.Defs
import SignalProtocol.Basic
import SignalProtocol.Library.OrderedMap

/-! # Arithmetic in `GF(2^16)` by tables -/

namespace SignalProtocol.Rs

/-- An element of `GF(2^16)`, an integer in `[0, 65535]`. -/
abbrev FieldElement := BitVec 16

def gf16Size : ℕ := 65536

/-- The exponentiation table (doubled, so that a sum of two logarithms needs no reduction) and
the logarithm table. -/
structure GaloisField16 where
  expTable : ℕ → FieldElement
  logTable : FieldElement → ℕ

namespace GaloisField16

def mul (field : GaloisField16) (x y : FieldElement) : FieldElement :=
  if x = 0 ∨ y = 0 then 0 else field.expTable (field.logTable x + field.logTable y)

def div (field : GaloisField16) (x y : FieldElement) : Except ProtocolError FieldElement :=
  if y = 0 then throw (.error "Division by zero in GF(2^16)")
  else
    let safeX := if x = 0 then 1 else x
    let computedResult := field.expTable (field.logTable safeX + 65535 - field.logTable y)
    pure (if x = 0 then 0 else computedResult)

def add (_field : GaloisField16) (x y : FieldElement) : FieldElement := x ^^^ y

/-- The tables implement a field: elements embed into `K`, where XOR is addition. -/
structure Interpretation (field : GaloisField16) (K : Type*) [Field K] where
  toField : FieldElement → K
  injective : Function.Injective toField
  map_xor : ∀ x y, toField (x ^^^ y) = toField x + toField y
  map_one : toField 1 = 1
  map_mul : ∀ x y, toField (field.mul x y) = toField x * toField y
  map_div : ∀ x y, y ≠ 0 →
    ∃ quotient, field.div x y = .ok quotient ∧ toField quotient = toField x / toField y

def ImplementsField (field : GaloisField16) : Prop :=
  ∃ (K : Type) (inst : Field K), Nonempty (@Interpretation field K inst)

end GaloisField16

/-! ## The lookup tables

The exponentiation table lists the powers of the primitive element `alpha = 2` modulo
`x^16 + x^12 + x^3 + x + 1`; the logarithm table inverts it. -/

def gf16Generator : FieldElement := 0x100b

def timesAlpha (x : FieldElement) : FieldElement :=
  if x.getLsbD 15 then (x <<< 1) ^^^ gf16Generator else x <<< 1

def expTable : ℕ → FieldElement
  | 0 => 1
  | exponent + 1 => timesAlpha (expTable exponent)

/-- Search the powers of `alpha` upwards from `power`, which has the given exponent. -/
def findLog (x : FieldElement) : ℕ → ℕ → FieldElement → ℕ
  | 0, exponent, _ => exponent
  | fuel + 1, exponent, power =>
    if power = x then exponent else findLog x fuel (exponent + 1) (timesAlpha power)

def logTable (x : FieldElement) : ℕ := findLog x 65535 0 1

def gf16 : GaloisField16 := ⟨expTable, logTable⟩

end SignalProtocol.Rs

namespace SignalProtocol.Rs.LagrangeInterpolator

variable (field : GaloisField16)

/-- The validation loop of `computeDenominators`: points are in range and distinct. -/
def checkEvaluationPoints : List ℕ → List ℕ → Except ProtocolError Unit
  | [], _ => pure ()
  | x :: rest, seen =>
    if gf16Size ≤ x then
      throw (.error s!"Evaluation point {x} out of field range [0, {gf16Size - 1}]")
    else if x ∈ seen then throw (.error s!"Duplicate evaluation point: {x}")
    else checkEvaluationPoints rest (x :: seen)

def pointAt (xs : List ℕ) (position : ℕ) : FieldElement := BitVec.ofNat 16 (xs.getD position 0)

/-- The product of `target - xs[j]` over the positions `j` other than `i`; subtraction is XOR. -/
def productOfDifferences (xs : List ℕ) (i : ℕ) (target : FieldElement) : FieldElement :=
  (List.range xs.length).foldl
    (fun product j => if i ≠ j then field.mul product (target ^^^ pointAt xs j) else product) 1

def computeDenominators (xs : List ℕ) : Except ProtocolError (List FieldElement) := do
  checkEvaluationPoints xs []
  pure ((List.range xs.length).map fun i => productOfDifferences field xs i (pointAt xs i))

def interpolateWithDenominators (xs : List ℕ) (ys denominators : List FieldElement)
    (targetX : ℕ) : Except ProtocolError FieldElement :=
  (List.range xs.length).foldlM
    (fun result i => do
      let numerator := productOfDifferences field xs i (BitVec.ofNat 16 targetX)
      let basis ← field.div numerator (denominators.getD i 0)
      pure (field.add result (field.mul (ys.getD i 0) basis)))
    0

end SignalProtocol.Rs.LagrangeInterpolator

/-! ## The interleaved Reed-Solomon codec

Sixteen polynomials run in parallel: each 32-byte chunk holds one value of each. -/

namespace SignalProtocol.Rs

def chunkSize : ℕ := 32

def numPolys : ℕ := 16

def maxMessageSize : ℕ := 1152

/-- Number of distinct `GF(2^16)` evaluation points. -/
def braidChunkPointCount : ℕ := 65536

def braidChunkIndexMax : ℕ := braidChunkPointCount - 1

def braidEncoderCursorMax : ℕ := braidChunkPointCount

def chunkCount (size : ℕ) : ℕ := (size + chunkSize - 1) / chunkSize

def readElement (bytes : Bytes) (byteOffset : ℕ) : FieldElement :=
  ((bytes.getD byteOffset 0).toBitVec.setWidth 16 <<< 8) |||
    (bytes.getD (byteOffset + 1) 0).toBitVec.setWidth 16

def writeElement (gf16Value : FieldElement) : Bytes :=
  [⟨(gf16Value >>> 8).setWidth 8⟩, ⟨gf16Value.setWidth 8⟩]

inductive EncoderPoints where
  | points (data : List (List FieldElement))
  | polys (data : List (List FieldElement))
  deriving DecidableEq

structure PolyEncoder where
  state : EncoderPoints
  dataChunks : List Bytes
  currentChunkIdx : ℕ
  originalDataSize : ℕ
  deriving DecidableEq

namespace PolyEncoder

def padData (data : Bytes) : Bytes :=
  data ++ List.replicate (chunkCount data.length * chunkSize - data.length) 0

def parseDataToPoints (data : Bytes) : List (List FieldElement) :=
  (List.range numPolys).map fun polyIdx =>
    (List.range (chunkCount data.length)).map fun chunkIdx =>
      readElement (padData data) (chunkIdx * chunkSize + polyIdx * 2)

def extractDataChunks (data : Bytes) : List Bytes :=
  (List.range (chunkCount data.length)).map fun chunkIdx =>
    ((padData data).drop (chunkIdx * chunkSize)).take chunkSize

def create (data : Bytes) : Except ProtocolError PolyEncoder :=
  if data.length = 0 then throw (.error "Cannot encode empty data")
  else if maxMessageSize < data.length then
    throw (.error s!"Message size {data.length} exceeds maximum for interleaved encoding ({maxMessageSize} bytes)")
  else
    pure {
      state := .points (parseDataToPoints data)
      dataChunks := extractDataChunks data
      currentChunkIdx := 0
      originalDataSize := data.length }

def assertBraidEncoderCursor (value : ℕ) (label : String) : Except ProtocolError Unit :=
  if braidEncoderCursorMax < value then
    throw (.error s!"{label} must be an integer between 0 and {braidEncoderCursorMax}")
  else pure ()

def restore (data : Bytes) (currentChunkIndex : ℕ) : Except ProtocolError PolyEncoder := do
  assertBraidEncoderCursor currentChunkIndex "Encoder cursor"
  let encoder ← create data
  pure { encoder with currentChunkIdx := currentChunkIndex }

def hasMoreChunks (encoder : PolyEncoder) : Bool := encoder.currentChunkIdx < braidChunkPointCount

def dataChunkCount (encoder : PolyEncoder) : ℕ := chunkCount encoder.originalDataSize

def isDataComplete (encoder : PolyEncoder) : Bool :=
  encoder.dataChunkCount ≤ encoder.currentChunkIdx

variable (field : GaloisField16)

/-- One column of the divided differences table, `for (i = k - 1; i >= j; i--)`; the counter
is the number of iterations left. -/
def dividedDifferenceColumn (j : ℕ) :
    ℕ → List FieldElement → Except ProtocolError (List FieldElement)
  | 0, divDiff => pure divDiff
  | left + 1, divDiff => do
      let i := j + left
      let numerator := divDiff.getD i 0 ^^^ divDiff.getD (i - 1) 0
      let denominator := BitVec.ofNat 16 i ^^^ BitVec.ofNat 16 (i - j)
      let quotient ← field.div numerator denominator
      dividedDifferenceColumn j left (divDiff.set i quotient)

def dividedDifferences (ys : List FieldElement) : Except ProtocolError (List FieldElement) :=
  (List.range' 1 (ys.length - 1)).foldlM
    (fun divDiff j => dividedDifferenceColumn field j (ys.length - j) divDiff) ys

/-- Multiply the expansion by `x - (j - 1)` in place, from coefficient `i` downwards. -/
def multiplyExpansion (j : ℕ) : ℕ → List FieldElement → List FieldElement
  | 0, expansion => expansion.set 0 (field.mul (expansion.getD 0 0) (BitVec.ofNat 16 (j - 1)))
  | i + 1, expansion =>
    multiplyExpansion j i (expansion.set (i + 1) (field.add (expansion.getD i 0)
        (field.mul (expansion.getD (i + 1) 0) (BitVec.ofNat 16 (j - 1)))))

/-- Add `d * expansion` to the coefficients `0, …, j`. -/
def addScaledExpansion (j : ℕ) (d : FieldElement) (expansion coeffs : List FieldElement) :
    List FieldElement :=
  (List.range (j + 1)).foldl
    (fun coeffs i => coeffs.set i
      (field.add (coeffs.getD i 0) (field.mul d (expansion.getD i 0)))) coeffs

def computePolynomialCoefficients (ys : List FieldElement) :
    Except ProtocolError (List FieldElement) := do
  let k := ys.length
  if k = 0 then return []
  if k = 1 then return [ys.getD 0 0]
  let divDiff ← dividedDifferences field ys
  let coeffs := (List.replicate k 0).set 0 (divDiff.getD 0 0)
  let expansion := (List.replicate k 0).set 0 1
  let result := (List.range' 1 (k - 1)).foldl
    (fun (acc : List FieldElement × List FieldElement) j =>
      let expansion := multiplyExpansion field j j acc.2
      (addScaledExpansion field j (divDiff.getD j 0) expansion acc.1, expansion))
    (coeffs, expansion)
  return result.1

def evaluatePolynomial (coeffs : List FieldElement) (x : ℕ) : FieldElement :=
  match coeffs.reverse with
  | [] => 0
  | last :: rest =>
    rest.foldl (fun result coeff => field.add (field.mul result (BitVec.ofNat 16 x)) coeff) last

def convertToPolynomials : EncoderPoints → Except ProtocolError (List (List FieldElement))
  | .points data => data.mapM (computePolynomialCoefficients field)
  | .polys data => pure data

def pointAt (encoder : PolyEncoder) (polyIdx chunkIdx : ℕ) :
    Except ProtocolError (FieldElement × PolyEncoder) :=
  match encoder.state with
  | .points data =>
    if chunkIdx < (data.getD polyIdx []).length then
      pure ((data.getD polyIdx []).getD chunkIdx 0, encoder)
    else do
      let polys ← convertToPolynomials field encoder.state
      pure (evaluatePolynomial field (polys.getD polyIdx []) chunkIdx,
        { encoder with state := .polys polys })
  | .polys polys =>
    pure (evaluatePolynomial field (polys.getD polyIdx []) chunkIdx, encoder)

def appendParityValue (chunkIndex : ℕ) (acc : Bytes × PolyEncoder) (polyIdx : ℕ) :
    Except ProtocolError (Bytes × PolyEncoder) := do
  let (gf16Value, encoder) ← acc.2.pointAt field polyIdx chunkIndex
  pure (acc.1 ++ writeElement gf16Value, encoder)

def generateParityChunk (encoder : PolyEncoder) (chunkIndex : ℕ) :
    Except ProtocolError (Bytes × PolyEncoder) :=
  (List.range numPolys).foldlM (appendParityValue field chunkIndex) ([], encoder)

def nextChunk (encoder : PolyEncoder) : Except ProtocolError (Bytes × PolyEncoder) :=
  if encoder.hasMoreChunks then
    let idx := encoder.currentChunkIdx
    let encoder := { encoder with currentChunkIdx := idx + 1 }
    if idx < encoder.dataChunkCount then pure (encoder.dataChunks.getD idx [], encoder)
    else encoder.generateParityChunk field idx
  else throw (.error s!"Braid encoder exhausted all {braidChunkPointCount} GF(2^16) points")

/-- The chunk that the encoder emits after `skipped` earlier calls of `nextChunk`. -/
def nthChunk (encoder : PolyEncoder) : ℕ → Except ProtocolError Bytes
  | 0 => do
      let (chunk, _) ← encoder.nextChunk field
      pure chunk
  | skipped + 1 => do
      let (_, encoder) ← encoder.nextChunk field
      encoder.nthChunk skipped

end PolyEncoder

def assertBraidChunkIndex (value : ℕ) (label : String) : Except ProtocolError Unit :=
  if braidChunkIndexMax < value then
    throw (.error s!"{label} must be an integer between 0 and {braidChunkIndexMax}")
  else pure ()

structure PolyDecoder where
  messageSize : ℕ
  receivedChunks : OrderedMap ℕ Bytes
  /-- Set by `setTotalShards`. -/
  totalShards : Option ℕ
  messageSize_pos : 0 < messageSize
  messageSize_le : messageSize ≤ maxMessageSize
  chunk_valid : ∀ entry ∈ receivedChunks.entries,
    entry.1 ≤ braidChunkIndexMax ∧ entry.2.length = chunkSize

namespace PolyDecoder

def create (messageSize : ℕ) : Except ProtocolError PolyDecoder :=
  if hpos : messageSize = 0 then throw (.error "Message size must be positive")
  else if hle : maxMessageSize < messageSize then
    throw (.error s!"Message size {messageSize} exceeds maximum for interleaved decoding ({maxMessageSize} bytes)")
  else
    pure {
      messageSize
      receivedChunks := ∅
      totalShards := none
      messageSize_pos := Nat.pos_of_ne_zero hpos
      messageSize_le := not_lt.mp hle
      chunk_valid := by intro entry hentry; cases hentry }

def dataChunks (decoder : PolyDecoder) : ℕ := chunkCount decoder.messageSize

def setTotalShards (decoder : PolyDecoder) (count : ℕ) : Except ProtocolError PolyDecoder :=
  if count < decoder.dataChunks ∨ braidChunkPointCount < count then
    throw (.error s!"Total shard count must be an integer between {decoder.dataChunks} and {braidChunkPointCount}")
  else pure { decoder with totalShards := some count }

private theorem set_chunk_valid (decoder : PolyDecoder) {chunkIndex : ℕ} {chunk : Bytes}
    (hidx : ¬braidChunkIndexMax < chunkIndex) (hchunk : ¬chunk.length ≠ chunkSize) :
    ∀ entry ∈ (decoder.receivedChunks.set chunkIndex chunk).entries,
      entry.1 ≤ braidChunkIndexMax ∧ entry.2.length = chunkSize := by
  rintro ⟨index, stored⟩ hentry
  rw [OrderedMap.mem_entries_set] at hentry
  split at hentry
  · subst_vars
    exact ⟨not_lt.mp hidx, not_not.mp hchunk⟩
  · exact decoder.chunk_valid _ hentry

def addChunk (decoder : PolyDecoder) (chunkIndex : ℕ) (chunk : Bytes) :
    Except ProtocolError PolyDecoder :=
  if hindex : braidChunkIndexMax < chunkIndex then
    throw (.error s!"Chunk index must be an integer between 0 and {braidChunkIndexMax}")
  else if decoder.totalShards.any (· ≤ chunkIndex) then
    throw (.error s!"Chunk index {chunkIndex} exceeds maximum ({decoder.totalShards.getD 0 - 1})")
  else if chunk.length = 0 then throw (.error "Chunk cannot be empty")
  else if hchunk : chunk.length ≠ chunkSize then
    throw (.error s!"Invalid chunk size: expected {chunkSize}, got {chunk.length}")
  else
    match decoder.receivedChunks.get? chunkIndex with
    | some existing =>
      if existing = chunk then pure decoder
      else throw (.error s!"Conflicting duplicate chunk at index {chunkIndex}")
    | none =>
      pure { decoder with
        receivedChunks := decoder.receivedChunks.set chunkIndex chunk
        chunk_valid := set_chunk_valid decoder hindex hchunk }

def hasMessage (decoder : PolyDecoder) : Bool :=
  decoder.dataChunks ≤ decoder.receivedChunks.size

def assemble (messageSize : ℕ) (chunks : List Bytes) : Bytes :=
  let written := chunks.foldl
    (fun written chunk =>
      if written.length < messageSize then
        written ++ chunk.take (min chunkSize (messageSize - written.length))
      else written) []
  written ++ List.replicate (messageSize - written.length) 0

def concatenateDataChunks (decoder : PolyDecoder) : Bytes :=
  assemble decoder.messageSize ((List.range decoder.dataChunks).map fun chunkIdx =>
    (decoder.receivedChunks.get? chunkIdx).getD [])

def missingDataChunks (decoder : PolyDecoder) : List ℕ :=
  (List.range decoder.dataChunks).filter fun index => !decoder.receivedChunks.has index

variable (field : GaloisField16)

/-- Recover a missing data chunk from the chunks at `availableIndices`. -/
def recoverChunk (decoder : PolyDecoder) (availableIndices : List ℕ)
    (denominators : List FieldElement) (missingIdx : ℕ) : Except ProtocolError Bytes :=
  (List.range numPolys).foldlM
    (fun chunk polyIdx => do
      let polynomialCoeffs :=
        decoder.receivedChunks.mapValues fun received => readElement received (polyIdx * 2)
      let ys := availableIndices.map fun idx => (polynomialCoeffs.get? idx).getD 0
      let gf16Value ← LagrangeInterpolator.interpolateWithDenominators field availableIndices ys
        denominators missingIdx
      pure (chunk ++ writeElement gf16Value))
    []

/-- Reconstruct the message from the received chunks, or `none` when they are too few. -/
def message (decoder : PolyDecoder) : Except ProtocolError (Option Bytes) := do
  if !decoder.hasMessage then return none
  if decoder.missingDataChunks = [] then return some decoder.concatenateDataChunks
  let availableIndices := decoder.receivedChunks.keys.take decoder.dataChunks
  let denominators ← LagrangeInterpolator.computeDenominators field availableIndices
  let recoveredChunks ← decoder.missingDataChunks.foldlM
    (fun (recovered : OrderedMap ℕ Bytes) missingIdx => do
      let chunk ← decoder.recoverChunk field availableIndices denominators missingIdx
      pure (recovered.set missingIdx chunk)) ∅
  return some (assemble decoder.messageSize ((List.range decoder.dataChunks).map fun chunkIdx =>
    ((recoveredChunks.get? chunkIdx).or (decoder.receivedChunks.get? chunkIdx)).getD []))

end PolyDecoder

/-! ## The JSON of an encoder

The data chunks and the state of the lazy conversion as hexadecimal text, and the encoder that is
built from them again. -/

def hexByte (byte : UInt8) : List Char := (Nat.toDigits 16 byte.toNat).leftpad 2 '0'

def hexText (bytes : Bytes) : List Char := bytes.flatMap hexByte

def hexDigitValue (char : Char) : Option ℕ :=
  if '0' ≤ char ∧ char ≤ '9' then some (char.toNat - '0'.toNat)
  else if 'a' ≤ char ∧ char ≤ 'f' then some (char.toNat - 'a'.toNat + 10)
  else if 'A' ≤ char ∧ char ≤ 'F' then some (char.toNat - 'A'.toNat + 10)
  else none

/-- `parseInt(text, 16)` of the hexadecimal digits at the front, and `none` for `NaN`. -/
def parseHex (text : List Char) : Option ℕ :=
  let digits := (text.takeWhile fun char => (hexDigitValue char).isSome).filterMap hexDigitValue
  if digits = [] then none else some (digits.foldl (fun value digit => value * 16 + digit) 0)

/-- The bytes of a text, two characters each. `NaN` is stored as zero. -/
def bytesOfHex (hex : List Char) : Bytes :=
  (List.range (hex.length / 2)).map fun i =>
    UInt8.ofNat ((parseHex ((hex.drop (i * 2)).take 2)).getD 0)

inductive EncoderStateType where
  | points
  | polys

structure PolyEncoderJson where
  idx : ℕ
  pts : List (List Char)
  polys : List (List Char)
  messageSize : ℕ
  stateType : EncoderStateType

namespace PolyEncoder

def vectorText (vector : List FieldElement) : List Char := hexText (vector.flatMap writeElement)

def toJSON (encoder : PolyEncoder) : PolyEncoderJson where
  idx := encoder.currentChunkIdx
  pts := encoder.dataChunks.map hexText
  polys :=
    match encoder.state with
    | .points data => data.map vectorText
    | .polys data => data.map vectorText
  messageSize := encoder.originalDataSize
  stateType :=
    match encoder.state with
    | .points _ => .points
    | .polys _ => .polys

def joinChunks (totalLen : ℕ) (chunks : List Bytes) : Bytes :=
  let written := chunks.foldl
    (fun written chunk =>
      if written.length < totalLen then
        let copyLen := min chunkSize (totalLen - written.length)
        written ++ (chunk.take copyLen ++ List.replicate (copyLen - chunk.length) 0)
      else written) []
  written ++ List.replicate (totalLen - written.length) 0

def fromJSON (json : PolyEncoderJson) : Except ProtocolError PolyEncoder :=
  let dataChunks := json.pts.map bytesOfHex
  let totalLen := min json.messageSize (dataChunks.length * chunkSize)
  restore (joinChunks totalLen dataChunks) json.idx

variable (field : GaloisField16)

/-- The encoder after so many calls of `nextChunk`. -/
def advance (encoder : PolyEncoder) : ℕ → Except ProtocolError PolyEncoder
  | 0 => pure encoder
  | count + 1 => do
      let (_, encoder) ← encoder.nextChunk field
      encoder.advance count

end PolyEncoder

end SignalProtocol.Rs

import SignalProtocol.Proof.PolynomialCoefficients
import SignalProtocol.Proof.TableField
import SignalProtocol.Braid.StateMachine

/-! # The erasure code is maximum distance separable

Every chunk, systematic or parity, holds the values of the sixteen codeword polynomials at its
index. -/

namespace SignalProtocol.Rs

open Polynomial List OrderedMap

variable {data : Bytes} {encoder : PolyEncoder} {offset index polyIdx cursor : ℕ}
  {first second : Bytes} {chunkIdx : ℕ} (value : FieldElement)

theorem writeElement_length : (writeElement value).length = 2 := rfl

theorem combine_writeElement :
    ((value >>> 8).setWidth 8).setWidth 16 <<< 8 ||| (value.setWidth 8).setWidth 16 = value := by
  ext bit hbit
  simp only [BitVec.getElem_or, BitVec.getElem_shiftLeft, BitVec.getElem_setWidth,
    BitVec.getLsbD_setWidth, BitVec.getLsbD_ushiftRight]
  by_cases hlow : bit < 8
  · simp [hlow, BitVec.getLsbD_eq_getElem hbit]
  · have hhigh : 8 + (bit - 8) = bit := by omega
    have hbyte : bit - 8 < 8 := by omega
    simp [hlow, hhigh, hbyte, BitVec.getLsbD_eq_getElem hbit]

theorem combine_injective {high high' low low' : BitVec 8}
    (heq : high.setWidth 16 <<< 8 ||| low.setWidth 16 =
      high'.setWidth 16 <<< 8 ||| low'.setWidth 16) : high = high' ∧ low = low' := by
  constructor
  · apply BitVec.eq_of_getLsbD_eq
    intro bit hbit
    have hval := congrArg (BitVec.getLsbD · (bit + 8)) heq
    simpa [show bit + 8 < 16 by omega] using hval
  · apply BitVec.eq_of_getLsbD_eq
    intro bit hbit
    have hval := congrArg (BitVec.getLsbD · bit) heq
    simpa [hbit, show bit < 16 by omega] using hval

theorem readElement_append_of_lt (chunk rest : Bytes) (hoffset : offset + 1 < chunk.length) :
    readElement (chunk ++ rest) offset = readElement chunk offset := by
  rw [readElement, readElement, getD_append _ _ _ _ (by omega),
    getD_append _ _ _ _ hoffset]

theorem readElement_append_writeElement (chunk : Bytes) (value : FieldElement) :
    readElement (chunk ++ writeElement value) chunk.length = value := by
  have hval := combine_writeElement value
  rw [readElement, getD_append_right _ _ _ _ le_rfl,
    getD_append_right _ _ _ _ (by omega), Nat.sub_self, Nat.add_sub_cancel_left]
  exact hval

theorem readElement_injective (heq : readElement first offset = readElement second offset) :
    first.getD offset 0 = second.getD offset 0 ∧
      first.getD (offset + 1) 0 = second.getD (offset + 1) 0 := by
  obtain ⟨hhigh, hlow⟩ := combine_injective heq
  exact ⟨UInt8.toBitVec_inj.mp hhigh, UInt8.toBitVec_inj.mp hlow⟩

variable {field : GaloisField16} {K : Type*} [Field K] (I : field.Interpretation K)

noncomputable def codeword (data : Bytes) (polyIdx : ℕ) : K[X] :=
  PolyEncoder.interpolant I ((PolyEncoder.parseDataToPoints data).getD polyIdx [])

structure IsCodeChunk (data : Bytes) (index : ℕ) (chunk : Bytes) : Prop where
  length : chunk.length = chunkSize
  values : ∀ polyIdx, polyIdx < numPolys →
    I.toField (readElement chunk (polyIdx * 2)) = (codeword I data polyIdx).eval (I.node index)

variable {I}

theorem IsCodeChunk.unique (hfst : IsCodeChunk I data index first)
    (hsnd : IsCodeChunk I data index second) : first = second := by
  apply ext_getElem (hfst.length.trans hsnd.length.symm)
  intro position hpos hposition'
  have hbound : position < 32 := hpos.trans_eq hfst.length
  have hvals := (hfst.values (position / 2) (by simp only [numPolys]; omega)).trans
    (hsnd.values (position / 2) (by simp only [numPolys]; omega)).symm
  obtain ⟨heven, hodd⟩ := readElement_injective (I.injective hvals)
  rw [← getD_eq_getElem _ 0 hpos, ← getD_eq_getElem _ 0 hposition']
  rcases Nat.mod_two_eq_zero_or_one position with hparity | hparity
  · rwa [show position / 2 * 2 = position by omega] at heven
  · rwa [show position / 2 * 2 + 1 = position by omega] at hodd

theorem isCodeChunk_of_foldlM {τ : Type*} (data : Bytes) (index : ℕ) (good : τ → Prop)
    (body : τ → ℕ → Except ProtocolError τ) (written : τ → Bytes) (init : τ) (hgood : good init)
    (hinit : written init = [])
    (hbody : ∀ polyIdx acc, polyIdx < numPolys → good acc →
      ∃ value next, body acc polyIdx = .ok next ∧
        written next = written acc ++ writeElement value ∧ good next ∧
        I.toField value = (codeword I data polyIdx).eval (I.node index)) :
    ∃ final, (List.range numPolys).foldlM body init = .ok final ∧ good final ∧
      IsCodeChunk I data index (written final) := by
  obtain ⟨final, hok, hlen, hfinal, hvals⟩ := Loops.foldlM_range_ok
    (motive := fun count acc => (written acc).length = count * 2 ∧ good acc ∧
      ∀ polyIdx, polyIdx < count → I.toField (readElement (written acc) (polyIdx * 2)) =
        (codeword I data polyIdx).eval (I.node index))
    body numPolys init ⟨by rw [hinit]; rfl, hgood, fun polyIdx hpolyIdx =>
      absurd hpolyIdx (Nat.not_lt_zero polyIdx)⟩ (by
      rintro polyIdx acc hpolyIdx ⟨hlen, hgood, hvals⟩
      obtain ⟨value, next, hok, hwrote, hnext, hval⟩ := hbody polyIdx acc hpolyIdx hgood
      refine ⟨next, hok, ?_, hnext, ?_⟩
      · rw [hwrote, length_append, writeElement_length, hlen]
        omega
      · intro other hother
        rw [hwrote]
        rcases Nat.lt_succ_iff_lt_or_eq.mp hother with hlt | rfl
        · rw [readElement_append_of_lt _ _ (by omega)]
          exact hvals other hlt
        · rw [← hlen, readElement_append_writeElement]
          exact hval)
  exact ⟨final, hok, hfinal, hlen, hvals⟩

namespace PolyEncoder

theorem padData_length (data : Bytes) :
    (padData data).length = chunkCount data.length * chunkSize := by
  rw [padData, length_append, length_replicate, chunkCount, chunkSize]
  omega

theorem points_length (data : Bytes) (hpolyIdx : polyIdx < numPolys) :
    ((parseDataToPoints data).getD polyIdx []).length = chunkCount data.length := by
  rw [parseDataToPoints, List.getD_map_range _ _ _ _ hpolyIdx, length_map, length_range]

theorem points_entry (data : Bytes) (hpolyIdx : polyIdx < numPolys)
    (hchunkIdx : chunkIdx < chunkCount data.length) :
    ((parseDataToPoints data).getD polyIdx []).getD chunkIdx 0 =
      readElement (padData data) (chunkIdx * chunkSize + polyIdx * 2) := by
  rw [parseDataToPoints, List.getD_map_range _ _ _ _ hpolyIdx,
    List.getD_map_range _ _ _ _ hchunkIdx]

theorem dataChunk_eq (data : Bytes) (hidx : index < chunkCount data.length) :
    (extractDataChunks data).getD index [] =
      ((padData data).drop (index * chunkSize)).take chunkSize :=
  List.getD_map_range _ _ _ _ hidx

theorem readElement_take_drop (bytes : Bytes) (skipped : ℕ) (hoffset : offset < 31) :
    readElement ((bytes.drop skipped).take chunkSize) offset =
      readElement bytes (skipped + offset) := by
  have hbyte : ∀ position, position < 32 →
      ((bytes.drop skipped).take chunkSize).getD position 0 =
        bytes.getD (skipped + position) 0 := by
    intro position hpos
    rw [getD_eq_getElem?_getD, chunkSize, getElem?_take_of_lt hpos,
      getElem?_drop, ← getD_eq_getElem?_getD]
  rw [readElement, readElement, hbyte _ (by omega), hbyte _ (by omega), Nat.add_assoc]

variable (I) in
theorem isCodeChunk_dataChunk (data : Bytes) (hsize : data.length ≤ maxMessageSize)
    (hidx : index < chunkCount data.length) :
    IsCodeChunk I data index ((extractDataChunks data).getD index []) := by
  have hlen := padData_length data
  rw [dataChunk_eq data hidx]
  constructor
  · rw [length_take, length_drop, hlen]
    simp only [chunkSize] at *
    omega
  · intro polyIdx hpolyIdx
    have hcount := points_length data hpolyIdx
    have hinj : Set.InjOn I.node
        (Finset.range ((parseDataToPoints data).getD polyIdx []).length) := by
      apply node_injOn_range
      rw [hcount]
      simp only [chunkCount, chunkSize, maxMessageSize] at *
      omega
    rw [codeword, interpolant, Lagrange.eval_interpolate_at_node _ hinj
      (Finset.mem_range.mpr (hcount ▸ hidx)), entry, points_entry data hpolyIdx hidx,
      readElement_take_drop _ _ (by simp only [numPolys] at hpolyIdx; omega)]

/-- The encoder of `data` with its cursor at `cursor`, before or after the conversion of its
points to polynomials. -/
structure Encodes (field : GaloisField16) (data : Bytes) (cursor : ℕ) (encoder : PolyEncoder) :
    Prop where
  dataChunks : encoder.dataChunks = extractDataChunks data
  originalDataSize : encoder.originalDataSize = data.length
  currentChunkIdx : encoder.currentChunkIdx = cursor
  state : encoder.state = .points (parseDataToPoints data) ∨
    ∃ polys, encoder.state = .polys polys ∧
      (parseDataToPoints data).mapM (computePolynomialCoefficients field) = .ok polys

theorem create_encodes (field : GaloisField16) (data : Bytes) (hpos : 0 < data.length)
    (hsize : data.length ≤ maxMessageSize) :
    ∃ encoder, create data = .ok encoder ∧ Encodes field data 0 encoder := by
  rw [create, if_neg (by omega), if_neg (by omega)]
  exact ⟨_, rfl, rfl, rfl, rfl, .inl rfl⟩

variable (I) in
theorem mapM_coefficients_ok (data : Bytes) (hpos : 0 < data.length)
    (hsize : data.length ≤ maxMessageSize) :
    ∃ polys, (parseDataToPoints data).mapM (computePolynomialCoefficients field) = .ok polys ∧
      ∀ polyIdx, polyIdx < numPolys → ∀ x,
        I.toField (evaluatePolynomial field (polys.getD polyIdx []) x) =
          (codeword I data polyIdx).eval (I.node x) := by
  have hcountPos : 0 < chunkCount data.length := by
    simp only [chunkCount, chunkSize]
    omega
  have hcountLe : chunkCount data.length ≤ 65536 := by
    simp only [chunkCount, chunkSize, maxMessageSize] at *
    omega
  obtain ⟨polys, hpolys, hlen, hcoefficients⟩ := Loops.mapM_ok (parseDataToPoints data) []
    (computePolynomialCoefficients field) (by
      intro polyIdx hpolyIdx
      have hpoly : polyIdx < numPolys := by simpa [parseDataToPoints] using hpolyIdx
      have hcount := points_length data hpoly
      obtain ⟨coeffs, hok, -⟩ := computePolynomialCoefficients_ok I
        ((parseDataToPoints data).getD polyIdx []) (by omega) (by omega)
      exact ⟨coeffs, hok⟩)
  refine ⟨polys, hpolys, fun polyIdx hpolyIdx x => ?_⟩
  have hcount := points_length data hpolyIdx
  have hcomputed := hcoefficients polyIdx (by simpa [parseDataToPoints] using hpolyIdx)
  obtain ⟨coeffs, hok, hcoeffsLength, hrepresents⟩ := computePolynomialCoefficients_ok I
    ((parseDataToPoints data).getD polyIdx []) (by omega) (by omega)
  obtain rfl : coeffs = polys.getD polyIdx [] := by
    rw [hcomputed] at hok
    exact (Except.ok.inj hok).symm
  apply evaluatePolynomial_eval I _ x (by omega) _ hrepresents
  rw [hcoeffsLength]
  exact interpolant_degree_lt I _ (by omega)

theorem pointAt_ok (henc : Encodes field data cursor encoder) (hpos : 0 < data.length)
    (hsize : data.length ≤ maxMessageSize) (hpolyIdx : polyIdx < numPolys)
    (hparity : chunkCount data.length ≤ chunkIdx) :
    ∃ value next, encoder.pointAt field polyIdx chunkIdx = .ok (value, next) ∧
      Encodes field data cursor next ∧
      I.toField value = (codeword I data polyIdx).eval (I.node chunkIdx) := by
  obtain ⟨polys, hpolys, hvals⟩ := mapM_coefficients_ok I data hpos hsize
  rcases henc.state with hstate | ⟨stored, hstate, hstored⟩
  · refine ⟨_, { encoder with state := .polys polys }, ?_,
      ⟨henc.dataChunks, henc.originalDataSize, henc.currentChunkIdx,
        .inr ⟨polys, rfl, hpolys⟩⟩, hvals polyIdx hpolyIdx chunkIdx⟩
    have hbeyond : ¬chunkIdx < ((parseDataToPoints data).getD polyIdx []).length := by
      rw [points_length data hpolyIdx]
      omega
    simp only [pointAt, hstate, if_neg hbeyond, convertToPolynomials, hpolys]
    rfl
  · obtain rfl : polys = stored := by
      rw [hpolys] at hstored
      exact Except.ok.inj hstored
    refine ⟨_, encoder, ?_, henc, hvals polyIdx hpolyIdx chunkIdx⟩
    simp only [pointAt, hstate]
    rfl

theorem nextChunk_ok (henc : Encodes field data cursor encoder) (hpos : 0 < data.length)
    (hsize : data.length ≤ maxMessageSize) (hcursor : cursor < braidChunkPointCount) :
    ∃ chunk next, encoder.nextChunk field = .ok (chunk, next) ∧
      Encodes field data (cursor + 1) next ∧ IsCodeChunk I data cursor chunk := by
  obtain rfl := henc.currentChunkIdx
  have hmore : encoder.hasMoreChunks = true := decide_eq_true hcursor
  set advanced := { encoder with currentChunkIdx := encoder.currentChunkIdx + 1 } with hadvancedEq
  have hadvanced : Encodes field data (encoder.currentChunkIdx + 1) advanced :=
    ⟨henc.dataChunks, henc.originalDataSize, rfl, henc.state⟩
  have hcount : advanced.dataChunkCount = chunkCount data.length :=
    congrArg chunkCount henc.originalDataSize
  rw [nextChunk, if_pos hmore]
  dsimp only
  rw [← hadvancedEq, hcount]
  by_cases hdata : encoder.currentChunkIdx < chunkCount data.length
  · refine ⟨_, _, by rw [if_pos hdata]; rfl, hadvanced, ?_⟩
    rw [hadvanced.dataChunks]
    exact isCodeChunk_dataChunk I data hsize hdata
  · rw [if_neg hdata]
    obtain ⟨⟨chunk, final⟩, hok, hfinal, hchunk⟩ := isCodeChunk_of_foldlM (I := I) data
      encoder.currentChunkIdx (fun acc : Bytes × PolyEncoder =>
        Encodes field data (encoder.currentChunkIdx + 1) acc.2)
      (appendParityValue field encoder.currentChunkIdx)
      Prod.fst ([], advanced) hadvanced rfl (by
        intro polyIdx acc hpolyIdx hacc
        obtain ⟨value, next, hpoint, hnext, hval⟩ :=
          pointAt_ok (I := I) hacc hpos hsize hpolyIdx (not_lt.mp hdata)
        refine ⟨value, (acc.1 ++ writeElement value, next), ?_, rfl, hnext, hval⟩
        rw [appendParityValue, hpoint]
        rfl)
    exact ⟨chunk, final, hok, hfinal, hchunk⟩

theorem nthChunk_ok (skipped : ℕ)
    (henc : Encodes field data cursor encoder) (hpos : 0 < data.length)
    (hsize : data.length ≤ maxMessageSize) (hcursor : cursor + skipped < braidChunkPointCount) :
    ∃ chunk, encoder.nthChunk field skipped = .ok chunk ∧
      IsCodeChunk I data (cursor + skipped) chunk := by
  induction skipped generalizing cursor encoder with
  | zero =>
    obtain ⟨chunk, next, hnext, -, hchunk⟩ := nextChunk_ok (I := I) henc hpos hsize hcursor
    refine ⟨chunk, ?_, hchunk⟩
    rw [nthChunk, hnext]
    rfl
  | succ skipped ih =>
    obtain ⟨chunk, next, hnext, hencodesNext, -⟩ :=
      nextChunk_ok (I := I) henc hpos hsize (by omega)
    obtain ⟨result, hres, hchunk⟩ := ih hencodesNext (by omega)
    refine ⟨result, ?_, ?_⟩
    · rw [nthChunk, hnext]
      exact hres
    · rwa [show cursor + (skipped + 1) = cursor + 1 + skipped by omega]

end PolyEncoder

/-! ## Recovery from any `k` chunks

A decoder that holds codeword chunks reconstructs the message as soon as it holds as many as
the message has data chunks, whichever they are and in whatever order they came. -/

variable {data : Bytes} {decoder : PolyDecoder}

namespace PolyDecoder

open Polynomial

variable {field : GaloisField16} {K : Type*} [Field K] (I : field.Interpretation K)

/-- A decoder for the size of `data` that holds only codeword chunks of `data`. -/
structure Holds (data : Bytes) (decoder : PolyDecoder) : Prop where
  messageSize : decoder.messageSize = data.length
  totalShards : decoder.totalShards = none
  chunks : ∀ index chunk, decoder.receivedChunks.get? index = some chunk →
    IsCodeChunk I data index chunk

theorem create_holds (data : Bytes) (hpos : 0 < data.length)
    (hsize : data.length ≤ maxMessageSize) :
    ∃ decoder, create data.length = .ok decoder ∧ Holds I data decoder ∧
      decoder.receivedChunks = ∅ := by
  rw [create, dif_neg (by omega), dif_neg (by omega)]
  refine ⟨_, rfl, ⟨rfl, rfl, ?_⟩, rfl⟩
  intro index chunk hchunk
  cases hchunk

variable {I}

/-- A codeword chunk is always accepted: it conflicts with no chunk the decoder holds. -/
theorem addChunk_ok (hholds : Holds I data decoder) {index : ℕ} {chunk : Bytes}
    (hidx : index ≤ braidChunkIndexMax) (hchunk : IsCodeChunk I data index chunk) :
    ∃ next, decoder.addChunk index chunk = .ok next ∧ Holds I data next ∧
      ∀ other, other ∈ next.receivedChunks.keys ↔
        other = index ∨ other ∈ decoder.receivedChunks.keys := by
  have hlen : chunk.length = 32 := hchunk.length
  rw [addChunk, dif_neg (not_lt.mpr hidx), if_neg (by simp [hholds.totalShards]),
    if_neg (by omega), dif_neg (not_not.mpr hchunk.length)]
  cases hstored : decoder.receivedChunks.get? index with
  | some existing =>
    have heq : existing = chunk := (hholds.chunks index existing hstored).unique hchunk
    have hmem : index ∈ decoder.receivedChunks.keys :=
      (mem_keys_iff _ _).mpr ⟨existing, hstored⟩
    simp only [heq, if_true]
    refine ⟨decoder, rfl, hholds, fun other => ⟨.inr, ?_⟩⟩
    rintro (rfl | hother)
    · exact hmem
    · exact hother
  | none =>
    refine ⟨_, rfl, ⟨hholds.messageSize, hholds.totalShards, ?_⟩, fun other =>
      mem_keys_set _ _ _ _⟩
    intro other stored hother
    simp only [get?_set] at hother
    split at hother
    · rename_i heq
      cases hother
      rwa [heq]
    · exact hholds.chunks other stored hother

theorem assemble_dataChunks (data : Bytes) :
    assemble data.length (PolyEncoder.extractDataChunks data) = data := by
  have hcount : data.length ≤ chunkCount data.length * 32 := by
    simp only [chunkCount, chunkSize]
    omega
  have hloop : ∀ count, count ≤ chunkCount data.length →
      ((List.range count).map fun chunkIdx =>
        ((PolyEncoder.padData data).drop (chunkIdx * chunkSize)).take chunkSize).foldl
        (fun written chunk =>
          if written.length < data.length then
            written ++ chunk.take (min chunkSize (data.length - written.length))
          else written) [] = data.take (count * 32) := by
    intro count hcountLe
    induction count with
    | zero => simp
    | succ count ih =>
      have hwrote : (data.take (count * 32)).length = count * 32 := by
        rw [length_take]
        simp only [chunkCount, chunkSize] at hcountLe
        omega
      have hroom : count * 32 < data.length := by
        simp only [chunkCount, chunkSize] at hcountLe
        omega
      rw [range_succ, map_append, foldl_append, ih (by omega)]
      simp only [map_cons, map_nil, foldl_cons, foldl_nil, hwrote,
        if_pos hroom, chunkSize, List.take_take, PolyEncoder.padData]
      rw [drop_append_of_le_length (by omega), List.take_append_of_le_length (by
        rw [length_drop]; omega)]
      have hsplit : data.take ((count + 1) * 32) =
          data.take (count * 32) ++ (data.drop (count * 32)).take 32 := by
        rw [Nat.add_mul, Nat.one_mul, List.take_add]
      rw [hsplit]
      congr 1
      by_cases hfull : 32 ≤ data.length - count * 32
      · rw [show min (min 32 (data.length - count * 32)) 32 = 32 by omega]
      · rw [show min (min 32 (data.length - count * 32)) 32 = data.length - count * 32 by omega,
          List.take_of_length_le (by rw [length_drop]),
          List.take_of_length_le (by rw [length_drop]; omega)]
  rw [assemble, PolyEncoder.extractDataChunks, hloop _ le_rfl, List.take_of_length_le hcount,
    Nat.sub_self, replicate_zero, append_nil]

variable (I) in
theorem codeword_degree_lt (data : Bytes) (hsize : data.length ≤ maxMessageSize) {polyIdx : ℕ}
    (hpolyIdx : polyIdx < numPolys) :
    (codeword I data polyIdx).degree < chunkCount data.length := by
  have hcount := PolyEncoder.points_length data hpolyIdx
  rw [← hcount]
  apply PolyEncoder.interpolant_degree_lt
  rw [hcount]
  simp only [chunkCount, chunkSize, maxMessageSize] at *
  omega

theorem recoverChunk_ok (hholds : Holds I data decoder) (hsize : data.length ≤ maxMessageSize)
    {available : List ℕ} {denominators : List FieldElement} (missingIdx : ℕ)
    (hmem : ∀ index ∈ available, index ∈ decoder.receivedChunks.keys)
    (hrange : ∀ index ∈ available, index < 65536) (hnodup : available.Nodup)
    (hlen : available.length = chunkCount data.length)
    (hdenominators : ∀ i, i < available.length → I.toField (denominators.getD i 0) =
      ∏ j ∈ (Finset.range available.length).erase i,
        (LagrangeInterpolator.nodeAt I available i - LagrangeInterpolator.nodeAt I available j)) :
    ∃ chunk, decoder.recoverChunk field available denominators missingIdx = .ok chunk ∧
      IsCodeChunk I data missingIdx chunk := by
  have hstream : ∀ polyIdx, polyIdx < numPolys →
      ∃ value, LagrangeInterpolator.interpolateWithDenominators field available
          (available.map fun idx => ((decoder.receivedChunks.mapValues fun received =>
            readElement received (polyIdx * 2)).get? idx).getD 0) denominators missingIdx =
          .ok value ∧
        I.toField value = (codeword I data polyIdx).eval (I.node missingIdx) := by
    intro polyIdx hpolyIdx
    obtain ⟨value, hok, hval⟩ := LagrangeInterpolator.interpolateWithDenominators_ok I
      (available.map fun idx => ((decoder.receivedChunks.mapValues fun received =>
        readElement received (polyIdx * 2)).get? idx).getD 0)
      missingIdx hrange hnodup hdenominators
    refine ⟨value, hok, ?_⟩
    rw [hval]
    apply LagrangeInterpolator.eval_interpolate_eq I _ hrange hnodup
    · rw [hlen]
      exact codeword_degree_lt I data hsize hpolyIdx
    · intro i hi
      obtain ⟨chunk, hchunk⟩ := (mem_keys_iff _ _).mp
        (hmem _ (getElem_mem hi))
      have hentry := (hholds.chunks _ chunk hchunk).values polyIdx hpolyIdx
      rw [getD_eq_getElem _ _ (by simpa using hi), getElem_map,
        get?_mapValues, hchunk, LagrangeInterpolator.nodeAt,
        getD_eq_getElem _ _ hi]
      exact hentry
  obtain ⟨chunk, hok, -, hchunk⟩ := isCodeChunk_of_foldlM (I := I) data missingIdx
    (fun _ : Bytes => True)
    (fun chunk polyIdx => do
      let gf16Value ← LagrangeInterpolator.interpolateWithDenominators field available
        (available.map fun idx => ((decoder.receivedChunks.mapValues fun received =>
          readElement received (polyIdx * 2)).get? idx).getD 0) denominators missingIdx
      pure (chunk ++ writeElement gf16Value))
    id [] trivial rfl (by
      intro polyIdx chunk hpolyIdx _
      obtain ⟨value, hval, heval⟩ := hstream polyIdx hpolyIdx
      refine ⟨value, chunk ++ writeElement value, ?_, rfl, trivial, heval⟩
      rw [hval]
      rfl)
  exact ⟨chunk, hok, hchunk⟩

/-- A decoder with too few chunks has no message; with enough it returns the original. -/
theorem message_eq (hholds : Holds I data decoder) (hsize : data.length ≤ maxMessageSize) :
    decoder.message field = .ok
      (if chunkCount data.length ≤ decoder.receivedChunks.size then some data else none) := by
  have hcount : decoder.dataChunks = chunkCount data.length := by
    rw [dataChunks, hholds.messageSize]
  by_cases henough : chunkCount data.length ≤ decoder.receivedChunks.size
  swap
  · simp [message, hasMessage, hcount, henough, pure, Except.pure]
  have hmsg : decoder.hasMessage = true := by
    rw [hasMessage, hcount]
    exact decide_eq_true henough
  -- In both branches the assembled chunks are the data chunks, by uniqueness.
  have hassemble : ∀ chunkOf : ℕ → Bytes,
      (∀ index, index < chunkCount data.length → IsCodeChunk I data index (chunkOf index)) →
      assemble decoder.messageSize ((List.range decoder.dataChunks).map chunkOf) = data := by
    intro chunkOf hchunks
    have heq : (List.range decoder.dataChunks).map chunkOf =
        PolyEncoder.extractDataChunks data := by
      rw [hcount, PolyEncoder.extractDataChunks]
      apply map_congr_left
      intro index hidx
      have hlt := mem_range.mp hidx
      rw [← PolyEncoder.dataChunk_eq data hlt]
      exact (hchunks index hlt).unique (PolyEncoder.isCodeChunk_dataChunk I data hsize hlt)
    rw [heq, hholds.messageSize, assemble_dataChunks]
  have hpresent : ∀ index, index < chunkCount data.length →
      index ∉ decoder.missingDataChunks →
      ∃ chunk, decoder.receivedChunks.get? index = some chunk := by
    intro index hidx hmiss
    rw [← Option.isSome_iff_exists]
    by_contra hnone
    exact hmiss (by simpa [missingDataChunks, hcount, hidx, OrderedMap.has] using hnone)
  rw [if_pos henough, message, hmsg]
  by_cases hnone : decoder.missingDataChunks = []
  · have hfast : decoder.concatenateDataChunks = data := by
      apply hassemble
      intro index hidx
      obtain ⟨chunk, hchunk⟩ := hpresent index hidx (by simp [hnone])
      rw [hchunk]
      exact hholds.chunks index chunk hchunk
    simp [hnone, hfast, pure, Except.pure]
  · set available := decoder.receivedChunks.keys.take decoder.dataChunks with havailable
    have hmem : ∀ index ∈ available, index ∈ decoder.receivedChunks.keys := fun index hidx =>
      mem_of_mem_take hidx
    have hnodup : available.Nodup :=
      decoder.receivedChunks.keys_nodup.sublist (List.take_sublist _ _)
    have hrange : ∀ index ∈ available, index < 65536 := by
      intro index hidx
      obtain ⟨entry, hentry, rfl⟩ := mem_map.mp (hmem index hidx)
      exact Nat.lt_succ_of_le (decoder.chunk_valid entry hentry).1
    have hlen : available.length = chunkCount data.length := by
      rw [havailable, length_take, length_keys, hcount]
      omega
    obtain ⟨denominators, hok, hdenominators⟩ :=
      LagrangeInterpolator.computeDenominators_ok I hrange hnodup
    obtain ⟨recovered, hrecovered, hchunks⟩ := Loops.foldlM_list_ok
      (motive := fun done (recovered : OrderedMap ℕ Bytes) => ∀ index chunk,
        (recovered.get? index = some chunk → IsCodeChunk I data index chunk) ∧
        (index ∈ done → ∃ chunk, recovered.get? index = some chunk))
      (fun recovered missingIdx => do
        let chunk ← decoder.recoverChunk field available denominators missingIdx
        pure (recovered.set missingIdx chunk))
      decoder.missingDataChunks ∅ (by simp) (by
        intro done missingIdx recovered _ hstate
        obtain ⟨chunk, hchunk, hcode⟩ := recoverChunk_ok hholds hsize missingIdx hmem hrange
          hnodup hlen hdenominators
        refine ⟨recovered.set missingIdx chunk, by rw [hchunk]; rfl, fun index stored => ?_⟩
        rw [get?_set]
        by_cases hidx : index = missingIdx
        · subst hidx
          simpa using fun heq : chunk = stored => heq ▸ hcode
        · simpa [hidx] using hstate index stored)
    have hslow : assemble decoder.messageSize ((List.range decoder.dataChunks).map fun chunkIdx =>
        ((recovered.get? chunkIdx).or (decoder.receivedChunks.get? chunkIdx)).getD []) = data := by
      apply hassemble
      intro index hidx
      cases hstored : recovered.get? index with
      | some chunk => exact (hchunks index chunk).1 hstored
      | none =>
        obtain ⟨chunk, hchunk⟩ := hpresent index hidx fun hmiss => by
          obtain ⟨chunk, hchunk⟩ := (hchunks index []).2 hmiss
          simp [hstored] at hchunk
        rw [hchunk]
        exact hholds.chunks index chunk hchunk
    simp only [Bool.not_true, Bool.false_eq_true, if_false, hnone, hok, Results.ok_bind]
    rw [hrecovered, Results.ok_bind, hslow]
    rfl

end PolyDecoder

variable {field : GaloisField16}

/-- Feed a decoder the chunks that an encoder emits at the given indexes, in this order. -/
def deliverChunks (field : GaloisField16) (encoder : PolyEncoder) :
    List ℕ → PolyDecoder → Except ProtocolError PolyDecoder
  | [], decoder => pure decoder
  | index :: indexes, decoder => do
      let chunk ← encoder.nthChunk field index
      let decoder ← decoder.addChunk index chunk
      deliverChunks field encoder indexes decoder

theorem deliverChunks_ok {K : Type*} [Field K] {I : field.Interpretation K} {encoder : PolyEncoder}
    (henc : PolyEncoder.Encodes field data 0 encoder) (hholds : decoder.Holds I data)
    (hpos : 0 < data.length) (hsize : data.length ≤ maxMessageSize) (indexes : List ℕ)
    (hindexes : ∀ index ∈ indexes, index ≤ braidChunkIndexMax) :
    ∃ final, deliverChunks field encoder indexes decoder = .ok final ∧ final.Holds I data ∧
      ∀ index, index ∈ final.receivedChunks.keys ↔
        index ∈ indexes ∨ index ∈ decoder.receivedChunks.keys := by
  induction indexes generalizing decoder with
  | nil => exact ⟨decoder, rfl, hholds, by simp⟩
  | cons index indexes ih =>
    have hidx := hindexes index (by simp)
    obtain ⟨chunk, hchunk, hcode⟩ := PolyEncoder.nthChunk_ok (I := I) index henc hpos hsize
      (by simp only [braidChunkIndexMax, braidChunkPointCount] at *; omega)
    rw [Nat.zero_add] at hcode
    obtain ⟨next, hnext, hnextHolds, hkeys⟩ := PolyDecoder.addChunk_ok hholds hidx hcode
    obtain ⟨final, hfinal, hfinalHolds, hfinalKeys⟩ := ih hnextHolds fun other hother =>
      hindexes other (mem_cons_of_mem _ hother)
    refine ⟨final, ?_, hfinalHolds, fun other => ?_⟩
    · rw [deliverChunks, hchunk]
      change (decoder.addChunk index chunk >>= fun decoder =>
        deliverChunks field encoder indexes decoder) = .ok final
      rw [hnext]
      exact hfinal
    · rw [hfinalKeys, hkeys, mem_cons]
      tauto

/-- Any `ceil(length / 32)` distinct chunks recover the message, in any order and with any
exact duplicates; fewer never do. -/
theorem erasureCode_mds (hfield : field.ImplementsField) (data : Bytes) (hpos : 1 ≤ data.length)
    (hsize : data.length ≤ 1152) (indexes : List ℕ) (hindexes : ∀ index ∈ indexes, index ≤ 65535) :
    ∃ encoder decoder final, PolyEncoder.create data = .ok encoder ∧
      PolyDecoder.create data.length = .ok decoder ∧
      deliverChunks field encoder indexes decoder = .ok final ∧
      final.message field = .ok
        (if (data.length + 31) / 32 ≤ indexes.toFinset.card then some data else none) := by
  obtain ⟨K, inst, ⟨I⟩⟩ := hfield
  obtain ⟨encoder, hencoder, hencodes⟩ := PolyEncoder.create_encodes field data hpos hsize
  obtain ⟨decoder, hdecoder, hholds, hempty⟩ := PolyDecoder.create_holds I data hpos hsize
  obtain ⟨final, hfinal, hfinalHolds, hkeys⟩ :=
    deliverChunks_ok hencodes hholds hpos hsize indexes hindexes
  refine ⟨encoder, decoder, final, hencoder, hdecoder, hfinal, ?_⟩
  have hcard : final.receivedChunks.size = indexes.toFinset.card := by
    rw [size_eq_card_keys]
    congr 1
    ext index
    rw [mem_toFinset, mem_toFinset, hkeys, hempty]
    simp
  rw [PolyDecoder.message_eq hfinalHolds hsize, hcard]
  rfl

/-- Two copies of one parity chunk recover a one-byte message over the generated tables. -/
theorem erasureCode_mds_parity :
    ∃ encoder decoder final, PolyEncoder.create [7] = .ok encoder ∧
      PolyDecoder.create 1 = .ok decoder ∧
      deliverChunks gf16 encoder [40000, 40000] decoder = .ok final ∧
      final.message gf16 = .ok (some [7]) :=
  erasureCode_mds TableField.gf16_implementsField [7] (by decide) (by decide) [40000, 40000]
    (by decide)

/-! ## A resumed encoder is a fresh one

An encoder that is restored at a cursor, or read back from its JSON, emits what a fresh encoder
emits from that cursor on, up to the last evaluation point. -/

variable (byte : UInt8)

theorem hexByte_length : (hexByte byte).length = 2 := by
  have hall : ∀ value < 256, ((Nat.toDigits 16 value).leftpad 2 '0').length = 2 := by
    decide +kernel
  exact hall byte.toNat byte.toNat_lt

theorem parseHex_hexByte : parseHex (hexByte byte) = some byte.toNat := by
  have hall : ∀ value < 256, parseHex ((Nat.toDigits 16 value).leftpad 2 '0') = some value := by
    decide +kernel
  exact hall byte.toNat byte.toNat_lt

theorem hexText_length (bytes : Bytes) : (hexText bytes).length = bytes.length * 2 := by
  induction bytes with
  | nil => rfl
  | cons byte bytes ih =>
    change (hexByte byte ++ hexText bytes).length = _
    rw [length_append, hexByte_length, ih, length_cons]
    omega

theorem bytesOfHex_hexText (bytes : Bytes) : bytesOfHex (hexText bytes) = bytes := by
  induction bytes with
  | nil => rfl
  | cons byte bytes ih =>
    have htext : hexText (byte :: bytes) = hexByte byte ++ hexText bytes := rfl
    have hcount : (hexText (byte :: bytes)).length / 2 = bytes.length + 1 := by
      rw [hexText_length, length_cons]
      omega
    have hfst : ((hexText (byte :: bytes)).drop (0 * 2)).take 2 = hexByte byte := by
      rw [htext, Nat.zero_mul, drop_zero, List.take_left' (hexByte_length byte)]
    have hrest : ∀ i, (hexText (byte :: bytes)).drop ((i + 1) * 2) =
        (hexText bytes).drop (i * 2) := by
      intro i
      have hskip : (i + 1) * 2 = (hexByte byte).length + i * 2 := by
        rw [hexByte_length]
        omega
      rw [htext, hskip, drop_length_add_append]
    rw [bytesOfHex, hexText_length, Nat.mul_div_cancel _ (by decide)] at ih
    rw [bytesOfHex, hcount, range_succ_eq_map, map_cons, map_map, hfst, parseHex_hexByte]
    congr 1
    · simp
    · simp only [Function.comp_def, Nat.succ_eq_add_one, hrest]
      exact ih

/-! ## The encoder -/

namespace PolyEncoder

variable {field : GaloisField16} {K : Type*} [Field K]
variable {data : Bytes} {cursor : ℕ} {encoder : PolyEncoder}

theorem joinChunks_eq_assemble (totalLen : ℕ) (chunks : List Bytes)
    (hlen : ∀ chunk ∈ chunks, chunk.length = chunkSize) :
    joinChunks totalLen chunks = PolyDecoder.assemble totalLen chunks := by
  have hfold : ∀ written : Bytes, chunks.foldl
      (fun written chunk =>
        if written.length < totalLen then
          written ++ (chunk.take (min chunkSize (totalLen - written.length)) ++
            List.replicate (min chunkSize (totalLen - written.length) - chunk.length) 0)
        else written) written =
      chunks.foldl
        (fun written chunk =>
          if written.length < totalLen then
            written ++ chunk.take (min chunkSize (totalLen - written.length))
          else written) written := by
    induction chunks with
    | nil => exact fun _ => rfl
    | cons chunk chunks ih =>
      intro written
      have hnone : min chunkSize (totalLen - written.length) - chunk.length = 0 := by
        have hchunk := hlen chunk mem_cons_self
        omega
      rw [foldl_cons, foldl_cons, hnone, replicate_zero, append_nil]
      exact ih (fun other hother => hlen other (mem_cons_of_mem chunk hother)) _
  unfold joinChunks PolyDecoder.assemble
  simp only [hfold]

theorem extractDataChunks_length (data : Bytes) :
    (extractDataChunks data).length = chunkCount data.length := by
  simp [extractDataChunks]

theorem dataChunk_length (data : Bytes) : ∀ chunk ∈ extractDataChunks data,
    chunk.length = chunkSize := by
  intro chunk hchunk
  obtain ⟨index, hidx, rfl⟩ := mem_map.mp hchunk
  rw [mem_range] at hidx
  have hpad := padData_length data
  rw [length_take, length_drop, hpad]
  simp only [chunkSize]
  omega

theorem fromJSON_toJSON (henc : Encodes field data cursor encoder) :
    fromJSON encoder.toJSON = restore data cursor := by
  have hchunks : (encoder.dataChunks.map hexText).map bytesOfHex = extractDataChunks data := by
    rw [map_map, henc.dataChunks]
    exact map_id'' bytesOfHex_hexText _
  have htotal : min data.length (chunkCount data.length * chunkSize) = data.length := by
    simp only [chunkCount, chunkSize]
    omega
  change restore (joinChunks (min encoder.originalDataSize
    (((encoder.dataChunks.map hexText).map bytesOfHex).length * chunkSize))
    ((encoder.dataChunks.map hexText).map bytesOfHex)) encoder.currentChunkIdx = _
  rw [hchunks, extractDataChunks_length, henc.originalDataSize, henc.currentChunkIdx,
    htotal, joinChunks_eq_assemble _ _ (dataChunk_length data), PolyDecoder.assemble_dataChunks]

theorem restore_encodes (field : GaloisField16) (hpos : 0 < data.length)
    (hsize : data.length ≤ maxMessageSize) (hcursor : cursor ≤ braidChunkPointCount) :
    ∃ encoder, restore data cursor = .ok encoder ∧ Encodes field data cursor encoder := by
  obtain ⟨encoder, hcreate, henc⟩ := create_encodes field data hpos hsize
  refine ⟨{ encoder with currentChunkIdx := cursor }, ?_,
    henc.dataChunks, henc.originalDataSize, rfl, henc.state⟩
  have hassert : assertBraidEncoderCursor cursor "Encoder cursor" = .ok () := by
    rw [assertBraidEncoderCursor, braidEncoderCursorMax, if_neg (Nat.not_lt.mpr hcursor)]
    rfl
  rw [restore, hassert, Results.ok_bind, hcreate]
  rfl

theorem advance_ok (I : field.Interpretation K) (henc : Encodes field data cursor encoder)
    (hpos : 0 < data.length) (hsize : data.length ≤ maxMessageSize) (count : ℕ)
    (hcursor : cursor + count ≤ braidChunkPointCount) :
    ∃ final, encoder.advance field count = .ok final ∧
      Encodes field data (cursor + count) final := by
  induction count generalizing cursor encoder with
  | zero => exact ⟨encoder, rfl, henc⟩
  | succ count ih =>
    obtain ⟨chunk, next, hnext, hadvanced, _⟩ :=
      nextChunk_ok (I := I) henc hpos hsize (by omega)
    obtain ⟨final, hfinal, hlast⟩ := ih hadvanced (by omega)
    refine ⟨final, ?_, ?_⟩
    · rw [advance, hnext]
      exact hfinal
    · have hcount : cursor + (count + 1) = cursor + 1 + count := by omega
      rw [hcount]
      exact hlast

def exhausted : ProtocolError :=
  .error s!"Braid encoder exhausted all {braidChunkPointCount} GF(2^16) points"

theorem nthChunk_exhausted (I : field.Interpretation K)
    (henc : Encodes field data cursor encoder) (hpos : 0 < data.length)
    (hsize : data.length ≤ maxMessageSize) (skipped : ℕ)
    (hcursor : cursor ≤ braidChunkPointCount) (hpast : braidChunkPointCount ≤ cursor + skipped) :
    encoder.nthChunk field skipped = .error exhausted := by
  have hstop : cursor = braidChunkPointCount → encoder.nextChunk field = .error exhausted := by
    intro hend
    have hnone : ¬encoder.hasMoreChunks = true := by
      rw [hasMoreChunks, henc.currentChunkIdx, hend]
      simp
    rw [nextChunk, if_neg hnone]
    rfl
  induction skipped generalizing cursor encoder with
  | zero =>
    rw [nthChunk, hstop (by omega)]
    rfl
  | succ skipped ih =>
    by_cases hend : cursor = braidChunkPointCount
    · rw [nthChunk, hstop hend]
      rfl
    · obtain ⟨chunk, next, hnext, hadvanced, _⟩ :=
        nextChunk_ok (I := I) henc hpos hsize (by omega)
      rw [nthChunk, hnext]
      refine ih hadvanced (by omega) (by omega) ?_
      intro hlast
      have hnone : ¬next.hasMoreChunks = true := by
        rw [hasMoreChunks, hadvanced.currentChunkIdx, hlast]
        simp
      rw [nextChunk, if_neg hnone]
      rfl

theorem nthChunk_agrees (I : field.Interpretation K) {other : PolyEncoder}
    {position skipped ahead : ℕ} (henc : Encodes field data cursor encoder)
    (hother : Encodes field data position other) (hpos : 0 < data.length)
    (hsize : data.length ≤ maxMessageSize) (hcursor : cursor ≤ braidChunkPointCount)
    (hposition : position ≤ braidChunkPointCount) (hsame : cursor + skipped = position + ahead) :
    encoder.nthChunk field skipped = other.nthChunk field ahead := by
  by_cases hlast : cursor + skipped < braidChunkPointCount
  · obtain ⟨chunk, hchunk, hcode⟩ := nthChunk_ok (I := I) skipped henc hpos hsize hlast
    obtain ⟨again, hagain, hcodeAgain⟩ :=
      nthChunk_ok (I := I) ahead hother hpos hsize (hsame ▸ hlast)
    rw [hsame] at hcode
    rw [hchunk, hagain, hcode.unique hcodeAgain]
  · rw [nthChunk_exhausted I henc hpos hsize skipped hcursor (Nat.not_lt.mp hlast),
      nthChunk_exhausted I hother hpos hsize ahead hposition (hsame ▸ Nat.not_lt.mp hlast)]

end PolyEncoder

open PolyEncoder

/-- An encoder that is restored at a position, one that is read back from its JSON and one that the
state machine rebuilds emit what a fresh encoder emits after that many chunks. -/
theorem resumedEncoder_agrees (data : Bytes) (hpos : 1 ≤ data.length) (hsize : data.length ≤ 1152)
    (i : ℕ) (hi : i ≤ 65536) :
    ∃ fresh advanced restored revived, create data = .ok fresh ∧
      fresh.advance gf16 i = .ok advanced ∧ restore data i = .ok restored ∧
      fromJSON advanced.toJSON = .ok revived ∧
      (∀ state : Braid.EncoderState, state.data = data → state.currentChunk = i →
        state.encoder = some (.live advanced) ∨ state.encoder = some .plainObject ∨
          state.encoder = none →
        ∃ rebuilt next, Braid.restoreEncoder state = .ok (rebuilt, next) ∧
          (rebuilt = advanced ∨ rebuilt = restored)) ∧
      advanced.currentChunkIdx = i ∧ restored.currentChunkIdx = i ∧ revived.currentChunkIdx = i ∧
      ∀ j, advanced.nthChunk gf16 j = fresh.nthChunk gf16 (i + j) ∧
        restored.nthChunk gf16 j = fresh.nthChunk gf16 (i + j) ∧
        revived.nthChunk gf16 j = fresh.nthChunk gf16 (i + j) ∧
        (i + j < 65536 → ∃ chunk, fresh.nthChunk gf16 (i + j) = .ok chunk ∧ chunk.length = 32) ∧
        (65536 ≤ i + j → fresh.nthChunk gf16 (i + j) = .error exhausted) := by
  obtain ⟨K, inst, ⟨I⟩⟩ := TableField.gf16_implementsField
  obtain ⟨fresh, hcreate, hfresh⟩ := create_encodes gf16 data hpos hsize
  obtain ⟨advanced, hadvance, hadvanced⟩ :=
    advance_ok I hfresh hpos hsize i (by rw [Nat.zero_add]; exact hi)
  rw [Nat.zero_add] at hadvanced
  obtain ⟨restored, hrestore, hrestored⟩ := restore_encodes gf16 hpos hsize hi
  have hrevive : fromJSON advanced.toJSON = .ok restored :=
    (fromJSON_toJSON hadvanced).trans hrestore
  refine ⟨fresh, advanced, restored, restored, hcreate, hadvance, hrestore, hrevive, ?_,
    hadvanced.currentChunkIdx, hrestored.currentChunkIdx, hrestored.currentChunkIdx, ?_⟩
  · rintro state rfl rfl (hlive | hplain | hnone)
    · exact ⟨advanced, state, by rw [Braid.restoreEncoder, hlive]; rfl, .inl rfl⟩
    · refine ⟨restored, { state with encoder := some (.live restored) }, ?_, .inr rfl⟩
      rw [Braid.restoreEncoder, hplain]
      simp only [hrestore]
      rfl
    · refine ⟨restored, { state with encoder := some (.live restored) }, ?_, .inr rfl⟩
      rw [Braid.restoreEncoder, hnone]
      simp only [hrestore]
      rfl
  · intro j
    have hstart : i + j = 0 + (i + j) := (Nat.zero_add _).symm
    have hrestoredChunk : restored.nthChunk gf16 j = fresh.nthChunk gf16 (i + j) :=
      nthChunk_agrees I hrestored hfresh hpos hsize hi (Nat.zero_le _) hstart
    refine ⟨nthChunk_agrees I hadvanced hfresh hpos hsize hi (Nat.zero_le _) hstart,
      hrestoredChunk, hrestoredChunk, fun hlast => ?_, fun hpast => ?_⟩
    · obtain ⟨chunk, hchunk, hcode⟩ := nthChunk_ok (I := I) (i + j) hfresh hpos hsize (by
        rw [Nat.zero_add]
        exact hlast)
      exact ⟨chunk, hchunk, hcode.length⟩
    · exact nthChunk_exhausted I hfresh hpos hsize (i + j) (Nat.zero_le _) (by
        rw [Nat.zero_add]
        exact hpast)

/-- A message of one byte, resumed after three of its parity chunks. -/
theorem resumedEncoder_agrees_parity :
    ∃ fresh advanced restored revived, create [7] = .ok fresh ∧
      fresh.advance gf16 4 = .ok advanced ∧ restore [7] 4 = .ok restored ∧
      fromJSON advanced.toJSON = .ok revived ∧
      restored.nthChunk gf16 65531 = revived.nthChunk gf16 65531 ∧
      restored.nthChunk gf16 65532 = .error exhausted := by
  obtain ⟨fresh, advanced, restored, revived, hcreate, hadvance, hrestore, hrevive, _, _, _, _,
    hchunks⟩ := resumedEncoder_agrees [7] (by decide) (by decide) 4 (by decide)
  obtain ⟨_, hlast, hlastRevived, _⟩ := hchunks 65531
  obtain ⟨_, hend, _, _, hexhausted⟩ := hchunks 65532
  exact ⟨fresh, advanced, restored, revived, hcreate, hadvance, hrestore, hrevive,
    hlast.trans hlastRevived.symm, hend.trans (hexhausted (by decide))⟩

end SignalProtocol.Rs

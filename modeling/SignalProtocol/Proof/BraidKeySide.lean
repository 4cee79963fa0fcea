import SignalProtocol.Proof.ErasureCode

/-! # Erasure-coded transfers of the braid

An encoder that streams a message emits only codeword chunks of it; a decoder that collects
codeword chunks of one message accepts every further one and decodes that message. -/

namespace SignalProtocol.Braid

open Rs Results List OrderedMap

variable {field : GaloisField16} {K : Type*} [Field K] (I : field.Interpretation K) {data : Bytes}
  {decoder : DecoderState} {state : EncoderState}

/-- An encoder that streams `data`: its cache, when live, stands at the durable cursor. -/
structure Streams (field : GaloisField16) (data : Bytes) (encoder : EncoderState) : Prop where
  data_eq : encoder.data = data
  cursor_le : encoder.currentChunk ≤ braidChunkPointCount
  cache : ∀ live, encoder.encoder = some (.live live) →
    PolyEncoder.Encodes field data encoder.currentChunk live

/-- A decoder that holds only codeword chunks of `data`. -/
structure Collects (data : Bytes) (decoder : DecoderState) : Prop where
  requiredChunks : decoder.requiredChunks = chunkCount data.length
  messageSize : decoder.messageSize = data.length
  chunks : ∀ index chunk, decoder.chunks.get? index = some chunk →
    index ≤ braidChunkIndexMax ∧ IsCodeChunk I data index chunk

structure Transferable (data : Bytes) : Prop where
  pos : 0 < data.length
  le : data.length ≤ maxMessageSize

variable (field) in
theorem createEncoderState_ok (hdata : Transferable data) :
    ∃ encoder, createEncoderState data = .ok encoder ∧ Streams field data encoder ∧
      encoder.currentChunk = 0 := by
  obtain ⟨live, hlive, henc⟩ := PolyEncoder.create_encodes field data hdata.pos hdata.le
  rw [createEncoderState, hlive, ok_bind]
  refine ⟨_, rfl, ⟨rfl, Nat.zero_le _, ?_⟩, rfl⟩
  rintro other ⟨⟩
  exact henc

variable (field) in
theorem restore_encodes {cursor : ℕ} (hdata : Transferable data)
    (hcursor : cursor ≤ braidChunkPointCount) :
    ∃ encoder, PolyEncoder.restore data cursor = .ok encoder ∧
      PolyEncoder.Encodes field data cursor encoder := by
  obtain ⟨encoder, hcreate, henc⟩ := PolyEncoder.create_encodes field data hdata.pos hdata.le
  have hassert : PolyEncoder.assertBraidEncoderCursor cursor "Encoder cursor" = .ok () :=
    if_neg (not_lt.mpr hcursor)
  rw [PolyEncoder.restore, hassert, ok_bind, hcreate, ok_bind]
  exact ⟨_, rfl, henc.dataChunks, henc.originalDataSize, rfl, henc.state⟩

theorem restoreEncoder_ok (hdata : Transferable data) (hstreams : Streams field data state) :
    ∃ encoder restored, restoreEncoder state = .ok (encoder, restored) ∧
      PolyEncoder.Encodes field data state.currentChunk encoder ∧
      restored = { state with encoder := some (.live encoder) } := by
  obtain ⟨encoder, hrestore, henc⟩ :=
    restore_encodes field hdata hstreams.cursor_le
  have hrebuild : (PolyEncoder.restore state.data state.currentChunk >>= fun encoder =>
      pure (encoder, { state with encoder := some (.live encoder) })) =
      Except.ok (encoder, { state with encoder := some (.live encoder) }) := by
    rw [hstreams.data_eq, hrestore]
    rfl
  rw [restoreEncoder]
  cases hcache : state.encoder with
  | none => exact ⟨encoder, _, hrebuild, henc, rfl⟩
  | some cache =>
    cases cache with
    | plainObject => exact ⟨encoder, _, hrebuild, henc, rfl⟩
    | live cached =>
      refine ⟨cached, state, rfl, hstreams.cache cached hcache, ?_⟩
      rw [← hcache]

/-- The next chunk of a transfer is a codeword chunk at the durable cursor; the only failure is
exhaustion, and it leaves the transfer as it was. -/
theorem getNextEncoderChunk_cases
    (hdata : Transferable data) (hstreams : Streams field data state) :
    (∃ chunk next, getNextEncoderChunk field state = .ok (chunk, state.currentChunk) next ∧
      Streams field data next ∧ state.currentChunk ≤ braidChunkIndexMax ∧
      IsCodeChunk I data state.currentChunk chunk) ∨
    state.currentChunk = braidChunkPointCount ∧
      ∃ next, getNextEncoderChunk field state = .error encoderExhausted next ∧
        Streams field data next := by
  obtain ⟨encoder, restored, hrestore, henc, rfl⟩ := restoreEncoder_ok hdata hstreams
  set started := { state with encoder := some (.live encoder) } with hstarted
  have hstart : getNextEncoderChunk field state = emitChunk field encoder started := by
    rw [getNextEncoderChunk, get_bind, hrestore]
    rfl
  have hcur : encoder.hasMoreChunks = decide (state.currentChunk < braidChunkPointCount) := by
    rw [PolyEncoder.hasMoreChunks, henc.currentChunkIdx]
  have hkeeps : Streams field data started := by
    refine ⟨hstreams.data_eq, hstreams.cursor_le, ?_⟩
    rintro live ⟨⟩
    exact henc
  rw [hstart, emitChunk, get_bind, hcur]
  by_cases hmore : state.currentChunk < braidChunkPointCount
  · obtain ⟨chunk, next, hnext, hadvanced, hchunk⟩ :=
      PolyEncoder.nextChunk_ok (I := I) henc hdata.pos hdata.le hmore
    refine .inl ⟨chunk, { state with
      currentChunk := state.currentChunk + 1
      isComplete := next.isDataComplete
      encoder := some (.live next) }, ?_, ⟨hstreams.data_eq, hmore, ?_⟩,
      Nat.le_pred_of_lt hmore, hchunk⟩
    · rw [if_pos (decide_eq_true hmore), hnext]
      rfl
    · rintro live ⟨⟩
      exact hadvanced
  · refine .inr ⟨le_antisymm hstreams.cursor_le (not_lt.mp hmore), started, ?_, hkeeps⟩
    rw [if_neg (by simpa using hmore)]
    rfl

theorem createDecoderState_collects (data : Bytes) :
    Collects I data (createDecoderState data.length) := by
  refine ⟨rfl, rfl, ?_⟩
  intro index chunk hchunk
  cases hchunk

variable {I}

theorem addDecoderChunk_ok (hcollects : Collects I data decoder) {index : ℕ} {chunk : Bytes}
    (hidx : index ≤ braidChunkIndexMax) (hchunk : IsCodeChunk I data index chunk) :
    ∃ next, addDecoderChunk decoder index chunk = .ok next ∧ Collects I data next := by
  rw [addDecoderChunk, assertBraidChunkIndex, if_neg (not_lt.mpr hidx), pure_eq_ok, ok_bind,
    if_neg (not_not.mpr hchunk.length)]
  cases hstored : decoder.chunks.get? index with
  | some existing =>
    have heq : existing = chunk := (hcollects.chunks index existing hstored).2.unique hchunk
    exact ⟨decoder, by simp [heq], hcollects⟩
  | none =>
    refine ⟨_, rfl, hcollects.requiredChunks, hcollects.messageSize, ?_⟩
    intro other stored hother
    simp only [get?_set] at hother
    split at hother
    · rename_i heq
      cases hother
      rw [heq]
      exact ⟨hidx, hchunk⟩
    · exact hcollects.chunks other stored hother

theorem getDecodedMessage_ok (hdata : Transferable data)
    (hcollects : Collects I data decoder) (hcompl : isDecoderComplete decoder = true) :
    getDecodedMessage field decoder = .ok data := by
  obtain ⟨start, hstart, hholds, hempty⟩ := PolyDecoder.create_holds I data hdata.pos hdata.le
  obtain ⟨final, hfinal, hfinalHolds, hkeys⟩ := Loops.foldlM_list_ok
    (motive := fun done (current : PolyDecoder) => current.Holds I data ∧
      ∀ index, index ∈ current.receivedChunks.keys ↔ index ∈ done.map Prod.fst)
    (fun (current : PolyDecoder) entry => current.addChunk entry.1 entry.2)
    decoder.chunks.entries start ⟨hholds, fun index => by rw [hempty]; rfl⟩ (by
      rintro done ⟨index, chunk⟩ current hmem ⟨hcur, hkeys⟩
      obtain ⟨hidx, hchunk⟩ :=
        hcollects.chunks index chunk ((get?_eq_some_iff _ _ _).mpr hmem)
      obtain ⟨next, hnext, hnextHolds, hnextKeys⟩ :=
        PolyDecoder.addChunk_ok hcur hidx hchunk
      refine ⟨next, hnext, hnextHolds, fun other => ?_⟩
      rw [hnextKeys, hkeys, map_append, mem_append, or_comm]
      simp)
  have hsize : final.receivedChunks.size = decoder.chunks.size := by
    rw [size_eq_card_keys, size_eq_card_keys]
    congr 1
    ext index
    rw [mem_toFinset, mem_toFinset, hkeys]
    rfl
  have henough : chunkCount data.length ≤ final.receivedChunks.size := by
    rw [hsize, ← hcollects.requiredChunks]
    exact of_decide_eq_true hcompl
  rw [getDecodedMessage, hcollects.messageSize, hstart, ok_bind, hfinal, ok_bind,
    PolyDecoder.message_eq hfinalHolds hdata.le, if_pos henough]
  rfl

/-! ## One epoch of the braid

The data that both sides work on in one epoch, the four transfers they are made of, and the
derivations that the two sides carry out on them. -/

/-- The authenticator that both sides start an epoch with, the key pair of the key side and the
encapsulation of the ciphertext side. -/
structure EpochData where
  auth : AuthenticatorState
  keyPair : KeyGenResult
  encapsulation : Encaps1Result
  ct2 : Bytes

namespace EpochData

variable (crypto : BraidCrypto) (epoch : ℕ)

def header (data : EpochData) : Bytes := data.keyPair.ekSeed ++ data.keyPair.hek

def headerTransfer (data : EpochData) : Bytes :=
  data.header ++ Authenticator.macHdr crypto data.auth epoch data.header

/-- The epoch secret that both sides emit. -/
def secret (data : EpochData) : Bytes :=
  crypto.hkdf data.encapsulation.sharedSecret (List.replicate 32 0)
    (buildKdfInfo ":SCKA Key" epoch) 32

def outputKey (data : EpochData) : OutputKey := ⟨epoch, data.secret crypto epoch⟩

def nextAuth (data : EpochData) : AuthenticatorState :=
  let derived := crypto.hkdf (data.auth.rootKey ++ data.secret crypto epoch)
    (List.replicate 32 0) (buildKdfInfo ":Authenticator Update" epoch) 64
  { rootKey := derived.take 32, macKey := (derived.drop 32).take 32 }

def combined (data : EpochData) : Bytes := data.encapsulation.ct1 ++ data.ct2

def ct2Transfer (data : EpochData) : Bytes :=
  data.ct2 ++ Authenticator.macCt crypto (data.nextAuth crypto epoch) epoch data.combined

/-- The data come from the KEM, and the authenticator has its size. -/
structure Valid (data : EpochData) : Prop where
  rootKey_length : data.auth.rootKey.length = 32
  keyPair : ∃ seed, data.keyPair = crypto.keyGen seed
  encapsulation : ∃ randomness,
    data.encapsulation = crypto.encaps1 data.keyPair.ekSeed data.keyPair.hek randomness
  encaps2 : crypto.encaps2 data.encapsulation.encapsSecret data.keyPair.ekSeed
    data.keyPair.ekVector data.keyPair.hek = .ok data.ct2
  ct2_length : data.ct2.length = ct2ComponentSize
  decaps : crypto.decaps data.keyPair.dk data.encapsulation.ct1 data.ct2 =
    .ok data.encapsulation.sharedSecret

end EpochData

theorem checkSize_ok {paramName : String} {code : BraidErrorCode} {bytes : Bytes} {expected : ℕ}
    (hlen : bytes.length = expected) : checkSize paramName code bytes expected = .ok () := by
  rw [checkSize, if_neg (not_not.mpr hlen)]
  rfl

section

variable {crypto : BraidCrypto} (hlaw : crypto.Lawful)

theorem EpochData.exists_valid {auth : AuthenticatorState} (hauth : auth.rootKey.length = 32)
    (hlaw : crypto.Lawful) (seed randomness : Bytes) :
    ∃ data : EpochData, data.Valid crypto ∧ data.auth = auth ∧
      data.keyPair = crypto.keyGen seed ∧ data.encapsulation =
        crypto.encaps1 (crypto.keyGen seed).ekSeed (crypto.keyGen seed).hek randomness := by
  obtain ⟨ct2, hencaps2, hlen, hdecaps⟩ := hlaw.decaps_encaps seed randomness
  exact ⟨⟨auth, crypto.keyGen seed, _, ct2⟩, ⟨hauth, ⟨seed, rfl⟩, ⟨randomness, rfl⟩, hencaps2,
    hlen, hdecaps⟩, rfl, rfl, rfl⟩

variable {data : EpochData} (hvalid : data.Valid crypto) (epoch : ℕ)

include hlaw hvalid

theorem ekSeed_length : data.keyPair.ekSeed.length = ekSeedSize := by
  obtain ⟨seed, hseed⟩ := hvalid.keyPair
  rw [hseed]
  exact hlaw.ekSeed_length seed

theorem ekVector_length : data.keyPair.ekVector.length = ekVectorSize := by
  obtain ⟨seed, hseed⟩ := hvalid.keyPair
  rw [hseed]
  exact hlaw.ekVector_length seed

theorem hek_eq : data.keyPair.hek =
    crypto.computeHek data.keyPair.ekSeed data.keyPair.ekVector := by
  obtain ⟨seed, hseed⟩ := hvalid.keyPair
  rw [hseed]
  exact hlaw.hek_eq seed

theorem hek_length : data.keyPair.hek.length = 32 := by
  rw [hek_eq hlaw hvalid]
  exact hlaw.hek_length _ _

theorem ct1_length : data.encapsulation.ct1.length = ct1Size := by
  obtain ⟨randomness, hencaps⟩ := hvalid.encapsulation
  rw [hencaps]
  exact hlaw.ct1_length _ _ _

theorem sharedSecret_length : data.encapsulation.sharedSecret.length = 32 := by
  obtain ⟨randomness, hencaps⟩ := hvalid.encapsulation
  rw [hencaps]
  exact hlaw.sharedSecret_length _ _ _

theorem header_length : data.header.length = ekSeedSize + 32 := by
  rw [EpochData.header, length_append, ekSeed_length hlaw hvalid, hek_length hlaw hvalid]

theorem headerTransfer_length : (data.headerTransfer crypto epoch).length = headerSize := by
  rw [EpochData.headerTransfer, length_append, header_length hlaw hvalid,
    Authenticator.macHdr, hlaw.hmac_length]
  rfl

theorem ct2Transfer_length : (data.ct2Transfer crypto epoch).length = ct2Size := by
  rw [EpochData.ct2Transfer, length_append, hvalid.ct2_length, Authenticator.macCt,
    hlaw.hmac_length]
  rfl

theorem headerTransfer_transferable : Transferable (data.headerTransfer crypto epoch) := by
  have hlen := headerTransfer_length hlaw hvalid epoch
  constructor <;> rw [hlen] <;> decide

theorem ekVector_transferable : Transferable data.keyPair.ekVector := by
  have hlen := ekVector_length hlaw hvalid
  constructor <;> rw [hlen] <;> decide

theorem ct1_transferable : Transferable data.encapsulation.ct1 := by
  have hlen := ct1_length hlaw hvalid
  constructor <;> rw [hlen] <;> decide

theorem ct2Transfer_transferable : Transferable (data.ct2Transfer crypto epoch) := by
  have hlen := ct2Transfer_length hlaw hvalid epoch
  constructor <;> rw [hlen] <;> decide

theorem kdfOk_ok : kdfOk crypto data.encapsulation.sharedSecret epoch =
    .ok (data.secret crypto epoch) := by
  rw [kdfOk, checkKdfSize, checkSize_ok (sharedSecret_length hlaw hvalid)]
  rfl

theorem authUpdate_ok : Authenticator.update crypto data.auth epoch (data.secret crypto epoch) =
    .ok (data.nextAuth crypto epoch) := by
  have hsecret : (data.secret crypto epoch).length = 32 := hlaw.hkdf_length _ _ _ _
  rw [Authenticator.update, kdfAuth, checkKdfSize, checkSize_ok hvalid.rootKey_length,
    checkKdfSize, checkSize_ok hsecret]
  rfl

omit hvalid in
theorem nextAuth_rootKey_length : (data.nextAuth crypto epoch).rootKey.length = 32 := by
  rw [EpochData.nextAuth, length_take, hlaw.hkdf_length]
  rfl

theorem kemDecaps_ok : kemDecaps crypto data.keyPair.dk data.encapsulation.ct1 data.ct2 =
    .ok data.encapsulation.sharedSecret := by
  have hdk : data.keyPair.dk.length = dkSize := by
    obtain ⟨seed, hseed⟩ := hvalid.keyPair
    rw [hseed]
    exact hlaw.dk_length seed
  rw [kemDecaps, checkSize_ok hdk, checkSize_ok (ct1_length hlaw hvalid),
    checkSize_ok hvalid.ct2_length]
  exact hvalid.decaps

theorem kemEncaps2_ok :
    kemEncaps2 crypto data.encapsulation.encapsSecret data.keyPair.ekSeed data.keyPair.ekVector =
      .ok data.ct2 := by
  rw [kemEncaps2, checkSize_ok (ekVector_length hlaw hvalid),
    checkSize_ok (ekSeed_length hlaw hvalid), ← hek_eq hlaw hvalid]
  exact hvalid.encaps2

theorem headerTransfer_take : (data.headerTransfer crypto epoch).take (ekSeedSize + 32) =
    data.header :=
  List.take_left' (header_length hlaw hvalid)

theorem headerTransfer_drop : (data.headerTransfer crypto epoch).drop (ekSeedSize + 32) =
    Authenticator.macHdr crypto data.auth epoch data.header :=
  drop_left' (header_length hlaw hvalid)

theorem header_take : data.header.take ekSeedSize = data.keyPair.ekSeed :=
  List.take_left' (ekSeed_length hlaw hvalid)

theorem header_drop : data.header.drop ekSeedSize = data.keyPair.hek :=
  drop_left' (ekSeed_length hlaw hvalid)

omit hlaw in
theorem ct2Transfer_take : (data.ct2Transfer crypto epoch).take ct2ComponentSize = data.ct2 :=
  List.take_left' hvalid.ct2_length

omit hlaw in
theorem ct2Transfer_drop : (data.ct2Transfer crypto epoch).drop ct2ComponentSize =
    Authenticator.macCt crypto (data.nextAuth crypto epoch) epoch data.combined :=
  drop_left' hvalid.ct2_length

end

/-! ## The key side of an epoch

What an agent in one of Alice's states holds, what it sends, and what receiving any message of
the ciphertext side does to it. -/

variable {field : GaloisField16} {K : Type*} [Field K] (I : field.Interpretation K)
  {transfer chunk : Bytes} {encoder : EncoderState} {sampled : EpochData} {decoder : DecoderState}

def CarriesChunk (transfer : Bytes) (message : MLKEMBraidMessage) : Prop :=
  ∃ index chunk, message.chunkIndex = some index ∧ message.data = some chunk ∧
    index ≤ braidChunkIndexMax ∧ IsCodeChunk I transfer index chunk

section

variable (crypto : BraidCrypto) (epoch : ℕ) (data : EpochData)

structure FromKeySide (message : MLKEMBraidMessage) : Prop where
  epoch_le : message.epoch ≤ epoch
  content : message.epoch = epoch →
    message.type = .hdr ∧ CarriesChunk I (data.headerTransfer crypto epoch) message ∨
    (message.type = .ek ∨ message.type = .ekCt1Ack) ∧ CarriesChunk I data.keyPair.ekVector message ∨
    message.type = .ct1Ack

structure FromCiphertextSide (message : MLKEMBraidMessage) : Prop where
  epoch_le : message.epoch ≤ epoch
  content : message.epoch = epoch →
    message.type = .none ∨
    message.type = .ct1 ∧ CarriesChunk I data.encapsulation.ct1 message ∨
    message.type = .ct2 ∧ CarriesChunk I (data.ct2Transfer crypto epoch) message

structure KeysHeld (field : GaloisField16) (agent : MLKEMBraidAgentState) : Prop where
  auth : agent.auth = data.auth
  dk : agent.dk = some data.keyPair.dk
  headerEncoder : ∃ encoder, agent.headerEncoder = some encoder ∧
    Streams field (data.headerTransfer crypto epoch) encoder
  ekEncoder : ∃ encoder, agent.ekEncoder = some encoder ∧
    Streams field data.keyPair.ekVector encoder

structure Ct1Held (field : GaloisField16) (agent : MLKEMBraidAgentState) : Prop extends
    KeysHeld crypto epoch data field agent where
  ct1Decoded : agent.ct1Decoded = some data.encapsulation.ct1

inductive KeySide (agent : MLKEMBraidAgentState) : Prop where
  | keysUnsampled (hstate : agent.state = .keysUnsampled) (hepoch : agent.epoch = epoch)
      (hauth : agent.auth = data.auth) (hct1 : agent.ct1Decoder = none)
      (hct2 : agent.ct2Decoder = none)
  | keysSampled (hstate : agent.state = .keysSampled) (hepoch : agent.epoch = epoch)
      (hheld : KeysHeld crypto epoch data field agent) (hct1 : agent.ct1Decoder = none)
      (hct2 : agent.ct2Decoder = none)
  | headerSent (hstate : agent.state = .headerSent) (hepoch : agent.epoch = epoch)
      (hheld : KeysHeld crypto epoch data field agent)
      (hct1 : ∃ decoder, agent.ct1Decoder = some decoder ∧
        Collects I data.encapsulation.ct1 decoder)
      (hct2 : agent.ct2Decoder = none)
  | ct1Received (hstate : agent.state = .ct1Received) (hepoch : agent.epoch = epoch)
      (hheld : Ct1Held crypto epoch data field agent) (hct2 : agent.ct2Decoder = none)
  | ekSentCt1Received (hstate : agent.state = .ekSentCt1Received) (hepoch : agent.epoch = epoch)
      (hheld : Ct1Held crypto epoch data field agent)
      (hct2 : ∃ decoder, agent.ct2Decoder = some decoder ∧
        Collects I (data.ct2Transfer crypto epoch) decoder)

end

/-! ## Chunks of a transfer -/

theorem addMessageChunk_ok {stored : Option DecoderState} {size : ℕ}
    {message : MLKEMBraidMessage} (hcarries : CarriesChunk I transfer message)
    (hchunk : message.data = some chunk) (hsize : transfer.length = size)
    (hstored : ∀ decoder, stored = some decoder → Collects I transfer decoder) :
    ∃ grown, addMessageChunk (stored.getD (createDecoderState size)) message chunk = .ok grown ∧
      Collects I transfer grown := by
  obtain ⟨index, carried, hidx, hdata, hbound, hcode⟩ := hcarries
  obtain rfl : chunk = carried := Option.some.inj (hchunk.symm.trans hdata)
  have hcollects : Collects I transfer (stored.getD (createDecoderState size)) := by
    cases hcase : stored with
    | none => exact hsize ▸ createDecoderState_collects I transfer
    | some decoder => exact hstored decoder hcase
  obtain ⟨grown, hgrown, hgrownCollects⟩ := addDecoderChunk_ok hcollects hbound hcode
  refine ⟨grown, ?_, hgrownCollects⟩
  rw [addMessageChunk, hidx]
  exact hgrown

/-- A message as `Send` makes it: a chunk with its index, or neither. -/
inductive Framed (message : MLKEMBraidMessage) : Prop where
  | bare (htype : message.type = .none ∨ message.type = .ct1Ack)
      (hindex : message.chunkIndex = none) (hdata : message.data = none)
  | chunk (index : ℕ) (chunk : Bytes) (htype : message.type ≠ .none ∧ message.type ≠ .ct1Ack)
      (hindex : message.chunkIndex = some index) (hdata : message.data = some chunk)
      (hbound : index ≤ braidChunkIndexMax) (hlength : chunk.length = chunkSize)

variable {I} in
theorem CarriesChunk.framed {message : MLKEMBraidMessage}
    (hcarries : CarriesChunk I transfer message)
    (htype : message.type ≠ .none ∧ message.type ≠ .ct1Ack) : Framed message := by
  obtain ⟨index, chunk, hidx, hdata, hbound, hcode⟩ := hcarries
  exact .chunk index chunk htype hidx hdata hbound hcode.length

/-- A call that sends one message of a kind, or fails because a transfer used up its indexes;
either way the agent ends well. -/
def Sends (result : EStateM.Result ProtocolError MLKEMBraidAgentState SendResult)
    (good : MLKEMBraidAgentState → Prop) (emits : MLKEMBraidMessage → Prop) : Prop :=
  (∃ message next, result = .ok ⟨message, next.epoch, none⟩ next ∧ good next ∧
    message.epoch = next.epoch ∧ Framed message ∧ emits message) ∨
  ∃ next, result = .error encoderExhausted next ∧ good next

variable (encoderOf : MLKEMBraidAgentState → Option EncoderState)
  (update : MLKEMBraidAgentState → EncoderState → MLKEMBraidAgentState)

theorem sendChunk_fresh (missing : String) (type : MessageType) (agent : MLKEMBraidAgentState)
    (htransfer : Transferable transfer) (hstored : encoderOf agent = some encoder)
    (hstreams : Streams field transfer encoder)
    (hfresh : encoder.currentChunk < braidChunkPointCount) :
    ∃ message next, sendChunk field encoderOf update missing type agent =
        .ok ⟨message, (update agent next).epoch, none⟩ (update agent next) ∧
      Streams field transfer next ∧ message.epoch = (update agent next).epoch ∧
      message.type = type ∧ CarriesChunk I transfer message := by
  rcases getNextEncoderChunk_cases I htransfer hstreams with
    ⟨chunk, next, hnext, hkeeps, hidx, hchunk⟩ | ⟨hexhausted, -⟩
  · refine ⟨⟨(update agent next).epoch, type, some encoder.currentChunk, some chunk⟩, next, ?_,
      hkeeps, rfl, rfl, encoder.currentChunk, chunk, rfl, rfl, hidx, hchunk⟩
    have hrun : onEncoder encoderOf update missing (getNextEncoderChunk field) agent =
        .ok (chunk, encoder.currentChunk) (update agent next) := by
      rw [onEncoder, hstored]
      simp only [hnext]
    rw [sendChunk, bind_apply_ok hrun]
    rfl
  · omega

/-- Sending from a transfer emits a codeword chunk, unless all indexes are used up. -/
theorem sendChunk_sends (missing : String) (type : MessageType)
    (htype : type ≠ .none ∧ type ≠ .ct1Ack) {agent : MLKEMBraidAgentState}
    (htransfer : Transferable transfer) (hstored : encoderOf agent = some encoder)
    (hstreams : Streams field transfer encoder) :
    Sends (sendChunk field encoderOf update missing type agent)
      (fun next => ∃ encoder, next = update agent encoder ∧ Streams field transfer encoder)
      (fun message => message.type = type ∧ CarriesChunk I transfer message) := by
  by_cases hfresh : encoder.currentChunk < braidChunkPointCount
  · obtain ⟨message, next, hnext, hkeeps, hepoch, hcontent⟩ := sendChunk_fresh I encoderOf update
      missing type agent htransfer hstored hstreams hfresh
    have hframed : Framed message := hcontent.2.framed (by rw [hcontent.1]; exact htype)
    exact .inl ⟨message, _, hnext, ⟨next, rfl, hkeeps⟩, hepoch, hframed, hcontent⟩
  · rcases getNextEncoderChunk_cases I htransfer hstreams with
      ⟨-, -, -, -, hidx, -⟩ | ⟨-, next, hnext, hkeeps⟩
    · simp only [braidChunkIndexMax, braidChunkPointCount] at hidx hfresh
      omega
    · refine .inr ⟨_, ?_, next, rfl, hkeeps⟩
      have hrun : onEncoder encoderOf update missing (getNextEncoderChunk field) agent =
          .error encoderExhausted (update agent next) := by
        rw [onEncoder, hstored]
        simp only [hnext]
      rw [sendChunk, bind_apply_error hrun]

theorem sendBare_sends (type : MessageType) (htype : type = .none ∨ type = .ct1Ack)
    (agent : MLKEMBraidAgentState) : Sends (sendBare type agent) (· = agent) (·.type = type) :=
  .inl ⟨_, agent, rfl, rfl, rfl, .bare htype rfl rfl, rfl⟩

theorem Sends.imp {result : EStateM.Result ProtocolError MLKEMBraidAgentState SendResult}
    {good good' : MLKEMBraidAgentState → Prop} {emits emits' : MLKEMBraidMessage → Prop}
    (hsends : Sends result good emits) (hgood : ∀ next, good next → good' next)
    (hemits : ∀ message next, good next → message.epoch = next.epoch → emits message →
      emits' message) : Sends result good' emits' := by
  rcases hsends with ⟨message, next, hok, hnext, hepoch, hframed, hmsg⟩ | ⟨next, herr, hnext⟩
  · exact .inl ⟨message, next, hok, hgood next hnext, hepoch, hframed,
      hemits message next hnext hepoch hmsg⟩
  · exact .inr ⟨next, herr, hgood next hnext⟩

theorem transition_apply {event : TransitionEvent} {agent : MLKEMBraidAgentState}
    (next : MLKEMBraidState) (hnext : stateTransitions agent.state event = some next) :
    transition event agent = .ok ⟨⟩ { agent with state := next } := by
  rw [transition, get_bind, hnext]
  rfl

section

variable {crypto : BraidCrypto} {epoch : ℕ} {data : EpochData} {agent : MLKEMBraidAgentState}
  (randomBytes : RandomBytes)

theorem send_of_alice (hrole : agent.state.isAliceState = true) :
    send crypto field randomBytes agent = sendAlice crypto field randomBytes agent := by
  rw [send, get_bind, if_pos hrole]

theorem receive_of_earlier {message : MLKEMBraidMessage} (hprev : message.epoch < agent.epoch) :
    receive crypto field message agent = .ok ⟨message.epoch, none⟩ agent := by
  rw [receive, get_bind]
  by_cases hrole : agent.state.isAliceState = true
  · rw [if_pos hrole, receiveAlice, get_bind, if_pos hprev]
    rfl
  · rw [if_neg hrole, receiveBob, get_bind, if_pos hprev]
    rfl

theorem KeysHeld.with_headerEncoder (hheld : KeysHeld crypto epoch data field agent)
    (hstreams : Streams field (data.headerTransfer crypto epoch) encoder) :
    KeysHeld crypto epoch data field { agent with headerEncoder := some encoder } :=
  ⟨hheld.auth, hheld.dk, ⟨encoder, rfl, hstreams⟩, hheld.ekEncoder⟩

theorem KeysHeld.with_ekEncoder (hheld : KeysHeld crypto epoch data field agent)
    (hstreams : Streams field data.keyPair.ekVector encoder) :
    KeysHeld crypto epoch data field { agent with ekEncoder := some encoder } :=
  ⟨hheld.auth, hheld.dk, hheld.headerEncoder, ⟨encoder, rfl, hstreams⟩⟩

variable {I} in
theorem KeySide.epoch_eq (hside : KeySide I crypto epoch data agent) : agent.epoch = epoch := by
  cases hside <;> assumption

variable {I} in
theorem KeySide.of_keysUnsampled (hside : KeySide I crypto epoch data agent)
    (hstate : agent.state = .keysUnsampled) :
    agent.epoch = epoch ∧ agent.auth = data.auth ∧ agent.ct1Decoder = none ∧
      agent.ct2Decoder = none := by
  cases hside with
  | keysUnsampled _ hepoch hauth hct1 hct2 => exact ⟨hepoch, hauth, hct1, hct2⟩
  | keysSampled hother | headerSent hother | ct1Received hother | ekSentCt1Received hother =>
    rw [hstate] at hother
    cases hother

variable {I} in
theorem KeySide.of_collectingCt1 (hside : KeySide I crypto epoch data agent)
    (hstate : agent.state = .keysSampled ∨ agent.state = .headerSent) :
    KeysHeld crypto epoch data field agent ∧
      (∀ decoder, agent.ct1Decoder = some decoder → Collects I data.encapsulation.ct1 decoder) ∧
      agent.ct2Decoder = none := by
  cases hside with
  | keysSampled _ _ hheld hct1 hct2 => exact ⟨hheld, by simp [hct1], hct2⟩
  | headerSent _ _ hheld hct1 hct2 =>
    obtain ⟨stored, hstored, hcollects⟩ := hct1
    refine ⟨hheld, fun decoder hdecoder => ?_, hct2⟩
    cases hstored.symm.trans hdecoder
    exact hcollects
  | keysUnsampled hother | ct1Received hother | ekSentCt1Received hother =>
    simp [hother] at hstate

variable {I} in
theorem KeySide.of_collectingCt2 (hside : KeySide I crypto epoch data agent)
    (hstate : agent.state = .ct1Received ∨ agent.state = .ekSentCt1Received) :
    Ct1Held crypto epoch data field agent ∧
      ∀ decoder, agent.ct2Decoder = some decoder →
        Collects I (data.ct2Transfer crypto epoch) decoder := by
  cases hside with
  | ct1Received _ _ hheld hct2 => exact ⟨hheld, by simp [hct2]⟩
  | ekSentCt1Received _ _ hheld hct2 =>
    obtain ⟨stored, hstored, hcollects⟩ := hct2
    refine ⟨hheld, fun decoder hdecoder => ?_⟩
    cases hstored.symm.trans hdecoder
    exact hcollects
  | keysUnsampled hother | keysSampled hother | headerSent hother =>
    simp [hother] at hstate

variable (hlaw : crypto.Lawful)

include hlaw

theorem keySide_send_keysUnsampled {randomBytes : RandomBytes}
    (hrandom : (randomBytes 64).length = 64) (hvalid : data.Valid crypto)
    (hkeyPair : data.keyPair = crypto.keyGen (randomBytes 64))
    (hside : KeySide I crypto epoch data agent) (hstate : agent.state = .keysUnsampled) :
    Sends (send crypto field randomBytes agent)
      (fun next => next.state = .keysSampled ∧ KeySide I crypto epoch data next)
      (FromKeySide I crypto epoch data) := by
  obtain ⟨hepoch, hauth, hct1, hct2⟩ := hside.of_keysUnsampled hstate
  obtain ⟨headerEncoder, hheader, hheaderStreams, -⟩ := createEncoderState_ok field
    (headerTransfer_transferable hlaw hvalid epoch)
  obtain ⟨ekEncoder, hek, hekStreams, -⟩ := createEncoderState_ok field
    (ekVector_transferable hlaw hvalid)
  have hkeyGen : kemKeyGen crypto (randomBytes 64) = .ok data.keyPair := by
    rw [kemKeyGen, checkSize_ok hrandom, hkeyPair]
    rfl
  set sampled : MLKEMBraidAgentState := { agent with
    state := .keysSampled
    dk := some data.keyPair.dk
    ekSeed := some data.keyPair.ekSeed
    ekVector := some data.keyPair.ekVector
    hek := some data.keyPair.hek
    headerEncoder := some headerEncoder
    ekEncoder := some ekEncoder } with hsampled
  have hrun : send crypto field randomBytes agent = aliceSendHeaderChunk field sampled := by
    have htransfer : createEncoderState (data.keyPair.ekSeed ++ data.keyPair.hek ++
        Authenticator.macHdr crypto agent.auth agent.epoch
          (data.keyPair.ekSeed ++ data.keyPair.hek)) = .ok headerEncoder := by
      rw [hauth, hepoch]
      exact hheader
    rw [send_of_alice _ (by rw [hstate]; rfl), sendAlice, get_bind, hstate]
    simp only [aliceSendFromKeysUnsampled, get_bind, hkeyGen, fromResult_ok_bind, modify_bind,
      htransfer, hek]
    rw [bind_apply_ok (transition_apply .keysSampled (by rw [hstate]; rfl))]
  rw [hrun]
  refine (sendChunk_sends I _ _ _ .hdr (by decide) (headerTransfer_transferable hlaw hvalid epoch)
    rfl hheaderStreams).imp ?_ ?_
  · rintro next ⟨encoder, rfl, hstreams⟩
    exact ⟨rfl, .keysSampled rfl hepoch
      ⟨hauth, rfl, ⟨encoder, rfl, hstreams⟩, ⟨ekEncoder, rfl, hekStreams⟩⟩ hct1 hct2⟩
  · rintro message next ⟨encoder, rfl, -⟩ hmsgEpoch ⟨htype, hcarries⟩
    have heq : message.epoch = epoch := hmsgEpoch.trans hepoch
    exact ⟨heq.le, fun _ => .inl ⟨htype, hcarries⟩⟩

theorem keySide_send (hvalid : data.Valid crypto)
    (hside : KeySide I crypto epoch data agent) (hstate : agent.state ≠ .keysUnsampled) :
    Sends (send crypto field randomBytes agent)
      (fun next => next.state = agent.state ∧ KeySide I crypto epoch data next)
      (FromKeySide I crypto epoch data) := by
  cases hside with
  | keysUnsampled hcur => exact absurd hcur hstate
  | keysSampled hcur hepoch hheld hct1 hct2 =>
    obtain ⟨encoder, hencoder, hstreams⟩ := hheld.headerEncoder
    rw [send_of_alice _ (by rw [hcur]; rfl), sendAlice, get_bind, hcur]
    refine (sendChunk_sends I _ _ _ .hdr (by decide) (headerTransfer_transferable hlaw hvalid epoch)
      hencoder hstreams).imp ?_ ?_
    · rintro next ⟨encoder, rfl, hstreams⟩
      exact ⟨hcur, .keysSampled hcur hepoch (hheld.with_headerEncoder hstreams) hct1 hct2⟩
    · rintro message next ⟨encoder, rfl, -⟩ hmsgEpoch ⟨htype, hcarries⟩
      exact ⟨(hmsgEpoch.trans hepoch).le, fun _ => .inl ⟨htype, hcarries⟩⟩
  | headerSent hcur hepoch hheld hct1 hct2 =>
    obtain ⟨encoder, hencoder, hstreams⟩ := hheld.ekEncoder
    rw [send_of_alice _ (by rw [hcur]; rfl), sendAlice, get_bind, hcur]
    refine (sendChunk_sends I _ _ _ .ek (by decide) (ekVector_transferable hlaw hvalid)
      hencoder hstreams).imp ?_ ?_
    · rintro next ⟨encoder, rfl, hstreams⟩
      exact ⟨hcur, .headerSent hcur hepoch (hheld.with_ekEncoder hstreams) hct1 hct2⟩
    · rintro message next ⟨encoder, rfl, -⟩ hmsgEpoch ⟨htype, hcarries⟩
      exact ⟨(hmsgEpoch.trans hepoch).le, fun _ => .inr (.inl ⟨.inl htype, hcarries⟩)⟩
  | ct1Received hcur hepoch hheld hct2 =>
    obtain ⟨encoder, hencoder, hstreams⟩ := hheld.ekEncoder
    rw [send_of_alice _ (by rw [hcur]; rfl), sendAlice, get_bind, hcur]
    refine (sendChunk_sends I _ _ _ .ekCt1Ack (by decide) (ekVector_transferable hlaw hvalid)
      hencoder hstreams).imp ?_ ?_
    · rintro next ⟨encoder, rfl, hstreams⟩
      exact ⟨hcur, .ct1Received hcur hepoch
        ⟨hheld.toKeysHeld.with_ekEncoder hstreams, hheld.ct1Decoded⟩ hct2⟩
    · rintro message next ⟨encoder, rfl, -⟩ hmsgEpoch ⟨htype, hcarries⟩
      exact ⟨(hmsgEpoch.trans hepoch).le, fun _ => .inr (.inl ⟨.inr htype, hcarries⟩)⟩
  | ekSentCt1Received hcur hepoch hheld hct2 =>
    rw [send_of_alice _ (by rw [hcur]; rfl), sendAlice, get_bind, hcur]
    refine (sendBare_sends .ct1Ack (.inr rfl) agent).imp ?_ ?_
    · rintro next rfl
      exact ⟨hcur, .ekSentCt1Received hcur hepoch hheld hct2⟩
    · rintro message next rfl hmsgEpoch htype
      exact ⟨(hmsgEpoch.trans hepoch).le, fun _ => .inr (.inr htype)⟩

omit hlaw in
/-- The header depends on the authenticator and the key pair only. -/
theorem headerTransfer_congr (hauth : sampled.auth = data.auth)
    (hkeyPair : sampled.keyPair = data.keyPair) :
    sampled.headerTransfer crypto epoch = data.headerTransfer crypto epoch := by
  simp only [EpochData.headerTransfer, EpochData.header, hauth, hkeyPair]

omit hlaw in
variable {I} in
theorem FromKeySide.resample {message : MLKEMBraidMessage}
    (hmsg : FromKeySide I crypto epoch data message) (hauth : sampled.auth = data.auth)
    (hkeyPair : sampled.keyPair = data.keyPair) : FromKeySide I crypto epoch sampled message := by
  refine ⟨hmsg.epoch_le, ?_⟩
  rw [headerTransfer_congr hauth hkeyPair, hkeyPair]
  exact hmsg.content

omit hlaw in
variable {I} in
theorem KeySide.resample (hside : KeySide I crypto epoch data agent)
    (hstate : agent.state = .keysUnsampled ∨ agent.state = .keysSampled)
    (hauth : sampled.auth = data.auth) (hkeyPair : sampled.keyPair = data.keyPair) :
    KeySide I crypto epoch sampled agent := by
  cases hside with
  | keysUnsampled hcur hepoch hagentAuth hct1 hct2 =>
    exact .keysUnsampled hcur hepoch (hagentAuth.trans hauth.symm) hct1 hct2
  | keysSampled hcur hepoch hheld hct1 hct2 =>
    refine .keysSampled hcur hepoch ⟨hheld.auth.trans hauth.symm, ?_, ?_, ?_⟩ hct1 hct2
    · rw [hkeyPair]
      exact hheld.dk
    · rw [headerTransfer_congr hauth hkeyPair]
      exact hheld.headerEncoder
    · rw [hkeyPair]
      exact hheld.ekEncoder
  | headerSent hother | ct1Received hother | ekSentCt1Received hother => simp [hother] at hstate

def nextCiphertextSide (crypto : BraidCrypto) (epoch : ℕ) (data : EpochData) :
    MLKEMBraidAgentState where
  state := .noHeaderReceived
  epoch := epoch + 1
  auth := data.nextAuth crypto epoch
  headerDecoder := some (createDecoderState headerSize)

section

variable (hvalid : data.Valid crypto)

include hvalid

theorem finishCt1_ok (hstate : agent.state = .headerSent) (hepoch : agent.epoch = epoch)
    (hheld : KeysHeld crypto epoch data field agent) (hct1 : agent.ct1Decoder = some decoder)
    (hcollects : Collects I data.encapsulation.ct1 decoder) (hct2 : agent.ct2Decoder = none) :
    ∃ next, finishCt1 field decoder agent = .ok ⟨⟩ next ∧
      next.state ≠ .keysUnsampled ∧ KeySide I crypto epoch data next := by
  rw [finishCt1]
  by_cases hcompl : isDecoderComplete decoder = true
  · have hdec := getDecodedMessage_ok (ct1_transferable hlaw hvalid) hcollects hcompl
    refine ⟨{ agent with
      state := .ct1Received
      ct1Decoded := some data.encapsulation.ct1 }, ?_, by simp, ?_⟩
    · rw [if_pos hcompl, hdec, fromResult_ok_bind, modify_bind,
        transition_apply .ct1Received (by rw [hstate]; rfl)]
    · exact .ct1Received rfl hepoch
        ⟨⟨hheld.auth, hheld.dk, hheld.headerEncoder, hheld.ekEncoder⟩, rfl⟩ hct2
  · rw [if_neg hcompl]
    exact ⟨agent, rfl, by rw [hstate]; simp,
      .headerSent hstate hepoch hheld ⟨decoder, hct1, hcollects⟩ hct2⟩

variable {message : MLKEMBraidMessage}

theorem receiveCt1_ok
    (hcarries : CarriesChunk I data.encapsulation.ct1 message) (hchunk : message.data = some chunk)
    (hepoch : agent.epoch = epoch) (hheld : KeysHeld crypto epoch data field agent)
    (hstate : agent.state = .keysSampled ∨ agent.state = .headerSent)
    (hct1 : ∀ decoder, agent.ct1Decoder = some decoder → Collects I data.encapsulation.ct1 decoder)
    (hct2 : agent.ct2Decoder = none) :
    ∃ next, receiveCt1 field message chunk agent = .ok ⟨⟩ next ∧
      next.state ≠ .keysUnsampled ∧ KeySide I crypto epoch data next := by
  obtain ⟨grown, hadd, hgrown⟩ :=
    addMessageChunk_ok I hcarries hchunk (ct1_length hlaw hvalid) hct1
  set started : MLKEMBraidAgentState :=
    { agent with state := .headerSent, ct1Decoder := some grown } with hstart
  have hrun : receiveCt1 field message chunk agent = finishCt1 field grown started := by
    rw [receiveCt1, get_bind]
    simp only [modify_bind, hadd, fromResult_ok_bind]
    rcases hstate with hstate | hstate
    · rw [if_pos hstate, bind_apply_ok (transition_apply .headerSent (by rw [hstate]; rfl))]
    · rw [if_neg (by rw [hstate]; decide), hstart, ← hstate]
  rw [hrun]
  exact finishCt1_ok I hlaw hvalid rfl hepoch
    ⟨hheld.auth, hheld.dk, hheld.headerEncoder, hheld.ekEncoder⟩ rfl hgrown hct2

theorem completeCt2_ok (hmsg : message.epoch = epoch) (hstate : agent.state = .ekSentCt1Received)
    (hepoch : agent.epoch = epoch) (hheld : Ct1Held crypto epoch data field agent)
    (hcollects : Collects I (data.ct2Transfer crypto epoch) decoder)
    (hcompl : isDecoderComplete decoder = true) :
    completeCt2 crypto field message decoder agent =
      .ok (data.outputKey crypto epoch) (nextCiphertextSide crypto epoch data) := by
  have hdec := getDecodedMessage_ok (ct2Transfer_transferable hlaw hvalid epoch)
    hcollects hcompl
  have hverify : Authenticator.vfyCt crypto (data.nextAuth crypto epoch) epoch
      (data.encapsulation.ct1 ++ data.ct2)
      (Authenticator.macCt crypto (data.nextAuth crypto epoch) epoch data.combined) = .ok () := by
    exact if_pos rfl
  rw [completeCt2, get_bind, hheld.ct1Decoded]
  simp only [hdec, fromResult_ok_bind, ct2Transfer_take hvalid, ct2Transfer_drop hvalid,
    hheld.dk, Option.getD_some, kemDecaps_ok hlaw hvalid, hheld.auth, hepoch, hmsg,
    kdfOk_ok hlaw hvalid, authUpdate_ok hlaw hvalid, modify_bind, hverify]
  rw [bind_apply_ok (transition_apply .noHeaderReceived (by rw [hstate]; rfl))]
  rw [modify_bind]
  simp only [resetForNewEpoch]
  rfl

theorem receiveCt2_ok (hmsg : message.epoch = epoch)
    (hcarries : CarriesChunk I (data.ct2Transfer crypto epoch) message)
    (hchunk : message.data = some chunk) (hepoch : agent.epoch = epoch)
    (hheld : Ct1Held crypto epoch data field agent)
    (hstate : agent.state = .ct1Received ∨ agent.state = .ekSentCt1Received)
    (hct2 : ∀ decoder, agent.ct2Decoder = some decoder →
      Collects I (data.ct2Transfer crypto epoch) decoder) :
    (∃ next, receiveCt2 crypto field message chunk agent = .ok none next ∧
      next.state ≠ .keysUnsampled ∧ KeySide I crypto epoch data next) ∨
    receiveCt2 crypto field message chunk agent =
      .ok (some (data.outputKey crypto epoch)) (nextCiphertextSide crypto epoch data) := by
  obtain ⟨grown, hadd, hgrown⟩ :=
    addMessageChunk_ok I hcarries hchunk (ct2Transfer_length hlaw hvalid epoch) hct2
  set started : MLKEMBraidAgentState :=
    { agent with state := .ekSentCt1Received, ct2Decoder := some grown } with hstart
  have hrun : receiveCt2 crypto field message chunk agent =
      finishCt2 crypto field message grown started := by
    rw [receiveCt2, get_bind]
    simp only [modify_bind, hadd, fromResult_ok_bind]
    rcases hstate with hstate | hstate
    · rw [if_pos hstate, bind_apply_ok (transition_apply .ekSentCt1Received (by rw [hstate]; rfl))]
    · rw [if_neg (by rw [hstate]; decide), hstart, ← hstate]
  have hstartedHeld : Ct1Held crypto epoch data field started :=
    ⟨⟨hheld.auth, hheld.dk, hheld.headerEncoder, hheld.ekEncoder⟩, hheld.ct1Decoded⟩
  rw [hrun, finishCt2, get_bind]
  by_cases hcompl : isDecoderComplete grown = true
  · have hcompletes : completeCt2 crypto field message grown started =
        .ok (data.outputKey crypto epoch) (nextCiphertextSide crypto epoch data) :=
      completeCt2_ok I hlaw hvalid hmsg rfl hepoch hstartedHeld hgrown hcompl
    refine .inr ?_
    rw [if_pos ⟨hcompl, rfl⟩, bind_apply_ok hcompletes]
    rfl
  · refine .inl ⟨started, ?_, by simp [hstart],
      .ekSentCt1Received rfl hepoch hstartedHeld ⟨grown, rfl, hgrown⟩⟩
    rw [if_neg fun hboth => hcompl hboth.1]
    rfl

/-- Receiving any message of the ciphertext side never throws. -/
theorem keySide_receive (hside : KeySide I crypto epoch data agent)
    (hmsg : FromCiphertextSide I crypto epoch data message) :
    (∃ next, receive crypto field message agent = .ok ⟨message.epoch, none⟩ next ∧
      KeySide I crypto epoch data next ∧
      (next = agent ∨ message.epoch = epoch ∧ message.type ≠ .none ∧
        agent.state ≠ .keysUnsampled ∧ next.state ≠ .keysUnsampled)) ∨
    message.epoch = epoch ∧ message.type = .ct2 ∧
      receive crypto field message agent =
        .ok ⟨message.epoch, some (data.outputKey crypto epoch)⟩
          (nextCiphertextSide crypto epoch data) := by
  have hepoch := hside.epoch_eq
  have hrole : agent.state.isAliceState = true := by
    cases hside <;> simp [*, MLKEMBraidState.isAliceState]
  rcases Nat.lt_or_eq_of_le hmsg.epoch_le with hlower | hcur
  · exact .inl ⟨agent, receive_of_earlier (by omega), hside, .inl rfl⟩
  rw [receive, get_bind, if_pos hrole, receiveAlice, get_bind, hepoch, if_neg (by omega),
    if_neg (by omega)]
  rcases hmsg.content hcur with hnone | ⟨hct1, hcarries⟩ | ⟨hct2, hcarries⟩
  · refine .inl ⟨agent, ?_, hside, .inl rfl⟩
    rw [hnone]
    rfl
  · obtain ⟨index, chunk, -, hchunk, -⟩ := id hcarries
    rw [hct1, hchunk]
    by_cases hcollect : agent.state = .keysSampled ∨ agent.state = .headerSent
    · obtain ⟨hheld, hdecoder, hother⟩ := hside.of_collectingCt1 hcollect
      obtain ⟨next, hnext, hsampled, hkeeps⟩ :=
        receiveCt1_ok I hlaw hvalid hcarries hchunk hepoch hheld hcollect hdecoder hother
      refine .inl ⟨next, ?_, hkeeps, .inr ⟨hcur, by simp, ?_, hsampled⟩⟩
      · simp only [if_pos hcollect, bind_apply_ok hnext, pure_apply]
      · rcases hcollect with hstate | hstate <;> rw [hstate] <;> simp
    · refine .inl ⟨agent, ?_, hside, .inl rfl⟩
      simp only [if_neg hcollect, pure_apply]
  · obtain ⟨index, chunk, -, hchunk, -⟩ := id hcarries
    rw [hct2, hchunk]
    by_cases hcollect : agent.state = .ct1Received ∨ agent.state = .ekSentCt1Received
    · obtain ⟨hheld, hdecoder⟩ := hside.of_collectingCt2 hcollect
      have hsampled : agent.state ≠ .keysUnsampled := by
        rcases hcollect with hstate | hstate <;> rw [hstate] <;> simp
      rcases receiveCt2_ok I hlaw hvalid hcur hcarries hchunk hepoch hheld hcollect
        hdecoder with ⟨next, hnext, hnextSampled, hkeeps⟩ | hdone
      · refine .inl ⟨next, ?_, hkeeps, .inr ⟨hcur, by simp, hsampled, hnextSampled⟩⟩
        simp only [if_pos hcollect, bind_apply_ok (onCandidate_ok hnext), pure_apply]
      · refine .inr ⟨hcur, rfl, ?_⟩
        simp only [if_pos hcollect, bind_apply_ok (onCandidate_ok hdone), pure_apply]
    · refine .inl ⟨agent, ?_, hside, .inl rfl⟩
      simp only [if_neg hcollect, pure_apply]

end

end

end SignalProtocol.Braid

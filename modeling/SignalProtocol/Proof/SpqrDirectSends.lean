import SignalProtocol.Proof.SpqrSendChain

/-! # The send chain of a direct-mode party

A party whose next message starts no new epoch has a live send chain in the current one; a receive
that commits a receive chain alone asks for a new epoch with the next message. -/

namespace SignalProtocol.Spqr

open Braid Rs Results List OrderedMap

variable {msgBytes : Bytes}

def SendsInEpoch (state : SPQRState) : Prop :=
  state.needsSendRatchet = false ∨ state.sckaState.theirKyberPublicKey = none

structure DirectReady (state : SPQRState) : Prop where
  mode_eq : state.mode = .direct
  sckaEpoch_eq : state.sckaState.epoch = state.epoch
  root_length : state.rootKey.length = 32
  sendEpoch_le : state.sendEpoch.getD 0 ≤ state.epoch
  ready : SendsInEpoch state → SendChain state.epoch state

/-- What a direct-mode send adds to its message has the sizes of its slots, and a ciphertext never
comes without a public key. -/
structure KemPayload.Sized (kem : KemPayload) : Prop where
  ciphertext : ∀ ciphertext, kem.ciphertext = some ciphertext →
    ciphertext.length = mlkem768CiphertextSize ∧ kem.publicKey.isSome
  publicKey : ∀ publicKey, kem.publicKey = some publicKey → publicKey.length = mlkem768PublicKeySize

def AnnouncesKey (msgBytes : Bytes) : Prop :=
  ∀ pqr, decodeSPQRWire msgBytes = .ok pqr → pqr.kyberCiphertext.getD [] ≠ [] →
    pqr.kyberPublicKey.getD [] ≠ []

namespace DirectReady

variable {crypto : SpqrCrypto} {field : GaloisField16} {randomBytes : RandomBytes}
  {state : SPQRState} (hready : DirectReady state)

include hready

theorem root_ne : state.rootKey ≠ [] := by
  intro hempty
  have hlen := hready.root_length
  rw [hempty] at hlen
  cases hlen

theorem validate_ok : validateSPQRState state = .ok ⟨⟩ state :=
  validateSPQRState_ok hready.root_ne

theorem with_kem (ours theirs : Option Bytes) (status : Option VersionStatus) (flag : Bool)
    (hsends : flag = false ∨ theirs = none → SendsInEpoch state) :
    DirectReady { state with
      sckaState := { state.sckaState with
        ourKyberPrivateKey := ours
        theirKyberPublicKey := theirs }
      versionNegotiation := status
      needsSendRatchet := flag } :=
  { hready with
    ready hflag := ⟨(hready.ready (hsends hflag)).live, hready.sendEpoch_le⟩ }

/-- A new epoch: with both chains, or with the receive chain and the duty to start another one. -/
theorem commitEpoch (hlaw : crypto.braid.Lawful) (hlive : crypto.NoZeroKeys)
    (ikm salt info : Bytes) (chains : ChainSelection) (flag : Bool)
    (hchains : flag = false ∨ state.sckaState.theirKyberPublicKey = none → chains = .both) :
    DirectReady { commitEpoch state (splitEpochKeys (crypto.braid.hkdf ikm salt info 96)) chains
      (state.epoch + 1) with needsSendRatchet := flag } where
  mode_eq := hready.mode_eq
  sckaEpoch_eq := rfl
  root_length := by
    simp only [Spqr.commitEpoch, splitEpochKeys, length_take, hlaw.hkdf_length]
    decide
  sendEpoch_le := hready.sendEpoch_le.trans (Nat.le_succ _)
  ready hsends := by
    refine ⟨⟨_, get?_set_self _ _ _, ?_⟩, hready.sendEpoch_le.trans (Nat.le_succ _)⟩
    rw [hchains hsends]
    exact orderChains_live hlive state.direction ikm salt info

/-! ## Sending -/

/-- A new epoch is committed, unless the epochs are used up or the shared secret has the wrong
size. -/
theorem advanceSPQREpochFromRawSecret_cases (hlaw : crypto.braid.Lawful) (secret : Bytes)
    (chains : ChainSelection) :
    (∃ error, advanceSPQREpochFromRawSecret crypto secret chains state = .error error state ∧
      ¬ SendChainError error) ∨
    ∃ ikm salt info, advanceSPQREpochFromRawSecret crypto secret chains state =
      .ok ⟨⟩ (Spqr.commitEpoch state (splitEpochKeys (crypto.braid.hkdf ikm salt info 96)) chains
        (state.epoch + 1)) := by
  rw [advanceSPQREpochFromRawSecret]
  by_cases hlast : maxSafeInteger ≤ state.epoch
  · have hnext : getNextSPQREpoch state = .error (.encryption .spqrEpochOutOfRange
        s!"Cannot advance SPQR epoch safely from {state.epoch}") state := by
      rw [getNextSPQREpoch, bind_apply_ok hready.validate_ok, get_bind, if_pos hlast]
      rfl
    rw [bind_apply_error hnext]
    exact .inl ⟨_, rfl, not_sendChainError_advance _⟩
  have hnext : getNextSPQREpoch state = .ok (state.epoch + 1) state := by
    rw [getNextSPQREpoch, bind_apply_ok hready.validate_ok, get_bind, if_neg hlast]
    rfl
  rw [bind_apply_ok hnext]
  cases hsecret : kdfOk crypto.braid secret (state.epoch + 1) with
  | error error =>
    exact .inl ⟨error, rfl, (kdfOk_plain crypto.braid secret _ error hsecret).not_sendChainError⟩
  | ok epochSecret =>
    have hlen : epochSecret.length = 32 := by
      obtain ⟨_, -, hderive⟩ := bind_eq_ok_iff.mp hsecret
      cases hderive
      exact hlaw.hkdf_length _ _ _ _
    have hsize : ¬ epochSecret.length ≠ spqrEpochSecretLength := not_not.mpr hlen
    rw [fromResult_ok_bind, addSPQREpochSecret, bind_apply_ok hnext, get_bind,
      if_neg (not_not.mpr rfl), if_neg (not_not.mpr hready.sckaEpoch_eq), if_neg hsize,
      if_neg (not_not.mpr hready.root_length), kdfSpqrEpoch, if_neg (not_not.mpr hlen),
      if_neg (not_not.mpr hready.root_length), pure_eq_ok, fromResult_ok_bind]
    exact .inr ⟨_, _, _, rfl⟩

variable (randomBytes) in
theorem sendKem (hlaw : crypto.braid.Lawful) (hkem : crypto.LawfulKem) (hlive : crypto.NoZeroKeys) :
    (∃ error next, sendKem crypto randomBytes state = .error error next ∧
      ¬ SendChainError error ∧ DirectReady next) ∨
    ∃ kem next, sendKem crypto randomBytes state = .ok kem next ∧ kem.Sized ∧
      SendsInEpoch next ∧ DirectReady next := by
  rw [Spqr.sendKem, get_bind]
  by_cases hneeds : state.needsSendRatchet = true
  swap
  · rw [if_neg (fun hboth => hneeds hboth.1)]
    refine .inr ⟨{}, state, rfl, ⟨?_, ?_⟩, .inl (by simpa using hneeds), hready⟩
    · rintro ciphertext ⟨⟩
    · rintro publicKey ⟨⟩
  have hmode : state.mode ≠ .braid := by simp [hready.mode_eq]
  rw [if_pos ⟨hneeds, hmode⟩]
  have hpub : ∀ publicKey,
      some (generateKyber768KeyPair crypto randomBytes).publicKey = some publicKey →
        publicKey.length = mlkem768PublicKeySize := by
    rintro publicKey ⟨⟩
    exact hkem.publicKey_length _
  cases htheirs : state.sckaState.theirKyberPublicKey with
  | none =>
    refine .inr ⟨_, _, rfl, ⟨?_, hpub⟩, .inl rfl, hready.with_kem _ _ _ _ fun _ =>
      .inr htheirs⟩
    rintro ciphertext ⟨⟩
  | some theirs =>
    dsimp only
    have hstart : DirectReady { state with sckaState := { state.sckaState with
        ourKyberPrivateKey := some (generateKyber768KeyPair crypto randomBytes).privateKey } } := by
      refine hready.with_kem _ _ _ _ fun hsends => ?_
      rcases hsends with hsends | hsends
      · cases hneeds.symm.trans hsends
      · cases htheirs.symm.trans hsends
    have hstep : performSPQRRatchetStep crypto randomBytes state =
        (do
          let encapsulation ← fromResult (kyber768Encapsulate crypto theirs randomBytes)
          advanceSPQREpochFromRawSecret crypto encapsulation.sharedSecret .both
          pure {
            ciphertext := some encapsulation.ciphertext
            publicKey := some (generateKyber768KeyPair crypto randomBytes).publicKey } :
          SpqrM KemPayload) { state with sckaState := { state.sckaState with
            ourKyberPrivateKey := some (generateKyber768KeyPair crypto randomBytes).privateKey } } := by
      rw [performSPQRRatchetStep, bind_apply_ok hready.validate_ok]
      dsimp only
      rw [modify_bind, get_bind]
      dsimp only
      rw [htheirs]
    rw [bind_apply, hstep]
    clear hstep
    generalize { state with sckaState := { state.sckaState with
      ourKyberPrivateKey := some (generateKyber768KeyPair crypto randomBytes).privateKey } } =
        started at hstart ⊢
    cases hencapsulated : kyber768Encapsulate crypto theirs randomBytes with
    | error error =>
      refine .inl ⟨error, _, rfl, PlainError.not_sendChainError ?_, hstart⟩
      exact (FailsOnly.ite (.throw trivial) (.pure _) :
        FailsOnly PlainError (kyber768Encapsulate crypto theirs randomBytes)) error hencapsulated
    | ok encapsulation =>
      rw [fromResult_ok_bind, bind_apply]
      rcases hstart.advanceSPQREpochFromRawSecret_cases hlaw encapsulation.sharedSecret
        .both with ⟨error, herr, hplain⟩ | ⟨ikm, salt, info, hcommit⟩
      · rw [herr]
        exact .inl ⟨error, _, rfl, hplain, hstart⟩
      · rw [hcommit]
        refine .inr ⟨_, _, rfl, ⟨?_, hpub⟩, .inl rfl,
          hstart.commitEpoch hlaw hlive ikm salt info .both false fun _ => rfl⟩
        rintro ciphertext ⟨⟩
        refine ⟨?_, rfl⟩
        rw [kyber768Encapsulate] at hencapsulated
        split at hencapsulated
        · cases hencapsulated
        · cases hencapsulated
          exact hkem.ciphertext_length _ _

theorem of_sendKey {current : SPQRState} (hmode : current.mode = state.mode)
    (hscka : current.sckaState = state.sckaState) (hroot : current.rootKey = state.rootKey)
    (hepoch : current.epoch = state.epoch) (hchain : SendChain state.epoch current) :
    DirectReady current where
  mode_eq := hmode.trans hready.mode_eq
  sckaEpoch_eq := by rw [hscka, hepoch]; exact hready.sckaEpoch_eq
  root_length := by rw [hroot]; exact hready.root_length
  sendEpoch_le := by rw [hepoch]; exact hchain.sendEpoch_le
  ready _ := by rw [hepoch]; exact hchain

theorem deriveSPQRSendKey (hlive : crypto.NoZeroKeys) (hsends : SendsInEpoch state) :
    DirectReady (finalState (deriveSPQRSendKey crypto none state)) := by
  have hchain : SendChain ((none : Option ℕ).getD state.epoch) state := hready.ready hsends
  obtain ⟨hcur, hsendEpoch⟩ := hchain.atSendEpoch
  rw [Option.getD_none] at hcur hsendEpoch
  have hsame : ∀ epoch, (atSendEpoch (state.sendEpoch.getD 0) epoch state).mode = state.mode ∧
      (atSendEpoch (state.sendEpoch.getD 0) epoch state).sckaState = state.sckaState ∧
      (atSendEpoch (state.sendEpoch.getD 0) epoch state).rootKey = state.rootKey ∧
      (atSendEpoch (state.sendEpoch.getD 0) epoch state).epoch = state.epoch := by
    intro epoch
    rw [atSendEpoch]
    split
    · exact ⟨rfl, rfl, rfl, rfl⟩
    · exact ⟨rfl, rfl, rfl, rfl⟩
  obtain ⟨hmode, hscka, hroot, hepoch⟩ := hsame state.epoch
  rcases deriveSPQRSendKey_live hlive hready.root_ne hchain with
    hnone | ⟨current, rfl, ⟨error, -, herr⟩ | ⟨key, chains, chain, hkey, hok⟩⟩
  · rw [hnone]
    exact hready
  · rw [herr]
    exact hready.of_sendKey hmode hscka hroot hepoch ⟨hcur, hsendEpoch.le⟩
  · rw [hok]
    exact hready.of_sendKey hmode hscka hroot hepoch
      ⟨⟨_, get?_set_self _ _ _, hkey⟩, hsendEpoch.le⟩

omit hready in
theorem sendBraid_direct (hmode : state.mode = .direct) :
    sendBraid crypto field randomBytes state = .ok none state := by
  rw [sendBraid, get_bind, hmode]
  rfl

section

variable (hlaw : crypto.braid.Lawful) (hkem : crypto.LawfulKem) (hlive : crypto.NoZeroKeys)
include hlaw hkem hlive

theorem of_sendKem_error {error : ProtocolError} {next : SPQRState}
    (hstop : Spqr.sendKem crypto randomBytes state = .error error next) :
    ¬ SendChainError error ∧ DirectReady next := by
  rcases hready.sendKem randomBytes hlaw hkem hlive with
    ⟨other, after, herr, hplain, hafter⟩ | ⟨kem, after, hok, -⟩
  · cases herr.symm.trans hstop
    exact ⟨hplain, hafter⟩
  · cases hok.symm.trans hstop

theorem of_sendKem {kem : KemPayload} {next : SPQRState}
    (hrun : Spqr.sendKem crypto randomBytes state = .ok kem next) :
    SendsInEpoch next ∧ DirectReady next := by
  rcases hready.sendKem randomBytes hlaw hkem hlive with
    ⟨other, after, herr, -⟩ | ⟨found, after, hok, -, hafter⟩
  · cases herr.symm.trans hrun
  · cases hok.symm.trans hrun
    exact hafter

theorem sendsLive : SendsLive crypto field randomBytes state := by
  refine SendsLive.of_chain hlive (fun error next hstop => ?_) (fun kem middle error next hfst
    hstop => ?_) fun kem middle result next epoch hfst hrun hepoch => ?_
  · exact (hready.of_sendKem_error hlaw hkem hlive hstop).1
  · obtain ⟨-, hafter⟩ := hready.of_sendKem hlaw hkem hlive hfst
    cases (sendBraid_direct hafter.mode_eq).symm.trans hstop
  · obtain ⟨hsends, hafter⟩ := hready.of_sendKem hlaw hkem hlive hfst
    cases (sendBraid_direct hafter.mode_eq).symm.trans hrun
    cases hepoch
    exact ⟨hafter.ready hsends, hafter.root_ne⟩

theorem spqrSend : DirectReady (finalState (spqrSend crypto field randomBytes state)) := by
  refine spqrSend_finalState (fun error next hstop => ?_) (fun kem middle error next hfst
    hstop => ?_) fun kem middle result next hfst hrun => ?_
  · exact (hready.of_sendKem_error hlaw hkem hlive hstop).2
  · obtain ⟨-, hafter⟩ := hready.of_sendKem hlaw hkem hlive hfst
    cases (sendBraid_direct hafter.mode_eq).symm.trans hstop
  · obtain ⟨hsends, hafter⟩ := hready.of_sendKem hlaw hkem hlive hfst
    cases (sendBraid_direct hafter.mode_eq).symm.trans hrun
    refine ⟨hafter, fun epoch hepoch => ?_⟩
    cases hepoch
    exact hafter.deriveSPQRSendKey hlive hsends

end

theorem of_onlyReceive {epoch : ℕ} {next : SPQRState} (honly : OnlyReceive epoch state next) :
    DirectReady next where
  mode_eq := by rw [honly.rest]; exact hready.mode_eq
  sckaEpoch_eq := by rw [honly.rest]; exact hready.sckaEpoch_eq
  root_length := by rw [honly.rest]; exact hready.root_length
  sendEpoch_le := by rw [honly.rest]; exact hready.sendEpoch_le
  ready hsends := by
    have hepoch : next.epoch = state.epoch := by rw [honly.rest]
    rw [SendsInEpoch, honly.rest] at hsends
    obtain ⟨chains, hget, hkey⟩ := (hready.ready hsends).live
    have hsend := honly.send state.epoch
    rw [hget, Option.map_some] at hsend
    obtain ⟨stored, hstored, hstoredSend⟩ := Option.map_eq_some_iff.mp hsend
    rw [hepoch]
    refine ⟨⟨stored, hstored, by rw [hstoredSend]; exact hkey⟩, ?_⟩
    rw [honly.rest]
    exact hready.sendEpoch_le

theorem receiveDirect (hlaw : crypto.braid.Lawful) (hlive : crypto.NoZeroKeys)
    {pqr : SPQRWireMessage}
    (hannounces : pqr.kyberCiphertext.getD [] ≠ [] → pqr.kyberPublicKey.getD [] ≠ []) :
    DirectReady (finalState (receiveDirect crypto pqr state)) := by
  rw [Spqr.receiveDirect]
  dsimp only
  by_cases hpub : pqr.kyberPublicKey.getD [] ≠ []
  swap
  · rw [if_neg hpub, if_neg (mt hannounces hpub)]
    exact hready
  have hknown : DirectReady { state with sckaState := { state.sckaState with
      theirKyberPublicKey := some (pqr.kyberPublicKey.getD []) } } := by
    refine hready.with_kem _ _ _ _ fun hsends => ?_
    rcases hsends with hflag | hnone
    · exact .inl hflag
    · cases hnone
  rw [if_pos hpub, modify_bind]
  have htheirs : ({ state with sckaState := { state.sckaState with
      theirKyberPublicKey := some (pqr.kyberPublicKey.getD []) } } :
        SPQRState).sckaState.theirKyberPublicKey ≠ none := by
    rintro ⟨⟩
  generalize { state with sckaState := { state.sckaState with
    theirKyberPublicKey := some (pqr.kyberPublicKey.getD []) } } = known at hknown htheirs ⊢
  split
  swap
  · exact hknown
  rw [bind_apply]
  rcases processSPQRReceivedCiphertext_commits crypto (pqr.kyberCiphertext.getD []) known with
    ⟨error, herr⟩ | ⟨ikm, salt, info, hcommit⟩
  · rw [herr]
    exact hknown
  · rw [hcommit]
    refine hknown.commitEpoch hlaw hlive ikm salt info .receive true fun hsends => ?_
    rcases hsends with hflag | hnone
    · cases hflag
    · exact absurd hnone htheirs

omit hready in
theorem receiveKey_triple (pqr : SPQRWireMessage) :
    Triple DirectReady (receiveKey crypto pqr) (fun _ => DirectReady) DirectReady := by
  rw [receiveKey]
  split
  swap
  · exact .pure _ fun _ => id
  refine .ite (fun _ => Triple.andThen (.fromResult (fun _ _ _ => id) fun _ => id)
    fun epoch => ?_) fun _ => .pure _ fun _ => id
  exact Triple.of_finalState fun state hstate =>
    hstate.of_onlyReceive ((KeyCall.derive epoch _).run_onlyReceive crypto state)

theorem spqrRecv (hlaw : crypto.braid.Lawful) (hlive : crypto.NoZeroKeys)
    (hannounces : AnnouncesKey msgBytes) :
    DirectReady (finalState (spqrRecv crypto field (some msgBytes) state)) := by
  rw [Spqr.spqrRecv, Option.getD_some]
  split
  · exact hready
  cases hdec : decodeSPQRWire msgBytes with
  | error error =>
    rw [fromResult_error_bind]
    exact hready
  | ok pqr =>
    rw [fromResult_ok_bind, modify_bind]
    have hnegotiated : DirectReady (negotiateVersion state) := by
      rw [negotiateVersion]
      split
      · exact hready.with_kem _ _ _ _ id
      · exact hready
    generalize negotiateVersion state = negotiated at hnegotiated ⊢
    have hpayload : DirectReady (finalState (receivePayload crypto field pqr negotiated)) := by
      rw [receivePayload, get_bind, hnegotiated.mode_eq]
      cases pqr.mode with
      | direct => exact hnegotiated.receiveDirect hlaw hlive (hannounces pqr hdec)
      | braid | none => exact hnegotiated
    rw [bind_apply]
    cases hrun : receivePayload crypto field pqr negotiated with
    | error error next =>
      rw [hrun] at hpayload
      exact hpayload
    | ok value next =>
      rw [hrun] at hpayload
      exact (receiveKey_triple pqr).finalState hpayload

end DirectReady

section

variable {crypto : SpqrCrypto} {field : GaloisField16} {randomBytes : RandomBytes}
  {state : SPQRState}
  {message : SPQRSendResult} {final : SPQRState}

theorem spqrSend_message (hok : spqrSend crypto field randomBytes state = .ok message final) :
    ∃ kem middle result next, sendKem crypto randomBytes state = .ok kem middle ∧
      sendBraid crypto field randomBytes middle = .ok result next ∧
      (message.msgBytes = [] ∨ ∃ key wireEpoch,
        encodeSPQRWire (wireMessageOf kem (result.bind chunkOf) key wireEpoch) =
          .ok message.msgBytes) := by
  rw [spqrSend, bind_apply] at hok
  cases hfst : sendKem crypto randomBytes state with
  | error error middle => rw [hfst] at hok; cases hok
  | ok kem middle =>
    rw [hfst] at hok
    dsimp only at hok
    rw [bind_apply] at hok
    cases hsnd : sendBraid crypto field randomBytes middle with
    | error error next => rw [hsnd] at hok; cases hok
    | ok result next =>
      rw [hsnd] at hok
      dsimp only at hok
      refine ⟨kem, middle, result, next, rfl, hsnd, ?_⟩
      obtain ⟨epoch, -, hderived⟩ := fromResult_bind_eq_ok_iff.mp hok
      rw [bind_apply] at hderived
      cases hderive : deriveSPQRSendKey crypto epoch next with
      | error error after => rw [hderive] at hderived; cases hderived
      | ok key after =>
        rw [hderive] at hderived
        dsimp only at hderived
        split at hderived
        · rw [get_bind] at hderived
          obtain ⟨wireEpoch, -, henc⟩ := fromResult_bind_eq_ok_iff.mp hderived
          obtain ⟨msgBytes, hencode, hmsg⟩ := fromResult_bind_eq_ok_iff.mp henc
          cases hmsg
          exact .inr ⟨key, wireEpoch, hencode⟩
        · cases hderived
          exact .inl rfl

theorem KemPayload.Sized.announcesKey {kem : KemPayload} (hsized : kem.Sized)
    {key : Option SPQRKeyResult} {wireEpoch : ℕ}
    (hencode : encodeSPQRWire (wireMessageOf kem none key wireEpoch) = .ok msgBytes) :
    AnnouncesKey msgBytes := by
  have henc : Encodable (wireMessageOf kem none key wireEpoch) := by
    have hheader := hencode
    rw [encodeSPQRWire] at hheader
    obtain ⟨⟨⟩, hepoch, hindexed⟩ := bind_eq_ok_iff.mp hheader
    obtain ⟨⟨⟩, hidx, -⟩ := bind_eq_ok_iff.mp hindexed
    refine ⟨⟨wireEpoch, rfl, ?_⟩, ?_, ?_⟩
    · rw [assertUint64] at hepoch
      split at hepoch
      · cases hepoch
      · omega
    · rw [assertUint32] at hidx
      split at hidx
      · cases hidx
      · omega
    · by_cases hsome : kem.ciphertext.isSome ∨ kem.publicKey.isSome
      · refine .direct ?_ rfl rfl rfl (fun ciphertext hcipher =>
          (hsized.ciphertext ciphertext hcipher).1) hsized.publicKey hsome
        simp [wireMessageOf, hsome]
      · rw [not_or, Option.not_isSome_iff_eq_none, Option.not_isSome_iff_eq_none] at hsome
        refine .none ?_ rfl rfl rfl hsome.1 hsome.2
        simp [wireMessageOf, hsome]
  obtain ⟨bytes, hbytes, -, hdec⟩ := decodeSPQRWire_encodeSPQRWire henc
  cases hencode.symm.trans hbytes
  intro pqr hpqr hcipher
  cases hdec.symm.trans hpqr
  change kem.ciphertext.getD [] ≠ [] at hcipher
  change kem.publicKey.getD [] ≠ []
  cases hkem : kem.ciphertext with
  | none => rw [hkem] at hcipher; exact absurd rfl hcipher
  | some ciphertext =>
    obtain ⟨publicKey, hpub⟩ :=
      Option.isSome_iff_exists.mp (hsized.ciphertext ciphertext hkem).2
    have hlen := hsized.publicKey publicKey hpub
    rw [hpub, Option.getD_some]
    rintro rfl
    cases hlen

theorem DirectReady.announcesKey (hlaw : crypto.braid.Lawful) (hkem : crypto.LawfulKem)
    (hlive : crypto.NoZeroKeys) (hready : DirectReady state)
    (hok : Spqr.spqrSend crypto field randomBytes state = .ok message final) :
    AnnouncesKey message.msgBytes := by
  obtain ⟨kem, middle, result, next, hfst, hrun, hmsg⟩ := spqrSend_message hok
  rcases hready.sendKem randomBytes hlaw hkem hlive with
    ⟨_, _, herr, -⟩ | ⟨found, after, hsent, hsized, -, hafter⟩
  · cases herr.symm.trans hfst
  cases hsent.symm.trans hfst
  cases (sendBraid_direct hafter.mode_eq).symm.trans hrun
  rcases hmsg with hempty | ⟨key, wireEpoch, henc⟩
  · intro pqr hpqr
    rw [hempty] at hpqr
    cases hpqr
  · exact hsized.announcesKey henc

end

structure DirectSends (joint : SpqrJoint) : Prop where
  ready : ∀ side, DirectReady (joint side).state
  announces : ∀ side, ∀ message ∈ (joint side).sent, AnnouncesKey message.msgBytes

section

variable {crypto : SpqrCrypto} {field : GaloisField16} {options : PairOptions} {joint : SpqrJoint}

theorem DirectReady.of_start (hlaw : crypto.braid.Lawful) (hlive : crypto.NoZeroKeys)
    {side : Side} {state : SPQRState}
    (hinit : initializeSPQRDirect crypto (options.forSide side) = .ok state) :
    DirectReady state := by
  obtain ⟨started, hstart, hstate⟩ := bind_eq_ok_iff.mp hinit
  obtain ⟨keys, hkeys, hinitial⟩ := bind_eq_ok_iff.mp hstart
  rw [kdfSpqrInit] at hkeys
  split at hkeys
  · cases hkeys
  cases hkeys
  cases hinitial
  cases hstate
  refine ⟨rfl, rfl, ?_, le_rfl, fun _ => ⟨⟨_, get?_set_self _ _ _, ?_⟩, le_rfl⟩⟩
  · simp only [splitEpochKeys, length_take, hlaw.hkdf_length]
    decide
  · exact orderChains_live hlive _ _ _ _

theorem DirectSends.of_reachable (hlaw : crypto.braid.Lawful) (hkem : crypto.LawfulKem)
    (hlive : crypto.NoZeroKeys)
    (hreach : (spqrSystem crypto field (initializeSPQRDirect crypto) options).Reachable joint) :
    DirectSends joint := by
  apply hreach.invariant
  · intro start hstart
    refine ⟨fun side => .of_start hlaw hlive (hstart side).1, fun side message hmsg => ?_⟩
    rw [(hstart side).2.1] at hmsg
    cases hmsg
  · intro before after hsends hstep
    cases hstep with
    | send side randomBytes hrandom =>
      have hready := hsends.ready side
      refine ⟨fun actor => ?_, fun actor message hmsg => ?_⟩
      · rcases actor.eq_or_eq_other side with rfl | rfl
        · rw [Function.update_self, SpqrParty.send_state]
          exact hready.spqrSend hlaw hkem hlive
        · rw [Function.update_of_ne side.other_ne]
          exact hsends.ready side.other
      · rcases actor.eq_or_eq_other side with rfl | rfl
        swap
        · rw [Function.update_of_ne side.other_ne] at hmsg
          exact hsends.announces side.other message hmsg
        rw [Function.update_self, SpqrParty.send] at hmsg
        cases hrun : spqrSend crypto field randomBytes (before actor).state with
        | error error next =>
          rw [hrun] at hmsg
          exact hsends.announces actor message hmsg
        | ok result next =>
          rw [hrun] at hmsg
          rcases mem_append.mp hmsg with hprev | hlast
          · exact hsends.announces actor message hprev
          · rw [mem_singleton.mp hlast]
            exact hready.announcesKey hlaw hkem hlive hrun
    | receive side position message hmsg =>
      refine ⟨fun actor => ?_, fun actor earlier hprev => ?_⟩
      · rcases actor.eq_or_eq_other side with rfl | rfl
        · rw [Function.update_self]
          exact (hsends.ready actor).spqrRecv hlaw hlive
            (hsends.announces actor.other message (mem_of_getElem? hmsg))
        · rw [Function.update_of_ne side.other_ne]
          exact hsends.ready side.other
      · rcases actor.eq_or_eq_other side with rfl | rfl
        · rw [Function.update_self] at hprev
          exact hsends.announces actor earlier hprev
        · rw [Function.update_of_ne side.other_ne] at hprev
          exact hsends.announces side.other earlier hprev

end

/-- In every state of a pair, of either mode, the next send of each party finds the chain of the
epoch that it sends in, with a live key, and never stops with an error of the send chain. -/
theorem spqr_send_chain_live {crypto : SpqrCrypto} (hlawful : crypto.braid.Lawful)
    (hkem : crypto.LawfulKem) (hlive : crypto.NoZeroKeys)
    {initialState : SPQRInitOptions → Except ProtocolError SPQRState}
    (hinitial : initialState = initializeSPQRBraid crypto ∨
      initialState = initializeSPQRDirect crypto) {options : PairOptions} {joint : SpqrJoint}
    (hreachable : (spqrSystem crypto gf16 initialState options).Reachable joint) (side : Side)
    {randomBytes : RandomBytes} (hrandom : ∀ length, (randomBytes length).length = length) :
    SendsLive crypto gf16 randomBytes (joint side).state := by
  rcases hinitial with rfl | rfl
  · obtain ⟨K, inst, ⟨I⟩⟩ := TableField.gf16_implementsField
    obtain ⟨braid, hsends⟩ := SendsInOrder.of_reachable (I := I) hlawful hlive hreachable
    exact hsends.sendsLive hlawful hlive side hrandom
  · exact ((DirectSends.of_reachable hlawful hkem hlive hreachable).ready side).sendsLive hlawful
      hkem hlive

/-- The plain braid primitives under a hash that returns sevens, and a one-shot KEM whose ciphertext
starts with the shared secret. -/
def sevenCrypto : SpqrCrypto where
  braid := { plainCrypto with hkdf := fun _ _ _ length => List.replicate length 7 }
  keygen seed := ⟨padTo mlkem768PublicKeySize seed, padTo kyber768SecretKeyBytes seed⟩
  encapsulate _ randomness := ⟨padTo 32 randomness, padTo mlkem768CiphertextSize (padTo 32 randomness)⟩
  decapsulate ciphertext _ := ciphertext.take 32

theorem sevenCrypto_lawful : sevenCrypto.braid.Lawful :=
  lawful_withHkdf plainCrypto_lawful fun _ _ _ _ => length_replicate

theorem sevenCrypto_lawfulKem : sevenCrypto.LawfulKem where
  publicKey_length _ := padTo_length _ _
  privateKey_length _ := padTo_length _ _
  ciphertext_length _ _ := padTo_length _ _
  sharedSecret_length _ _ := padTo_length _ _
  decapsulate_encapsulate _ randomness := by
    change (padTo mlkem768CiphertextSize (padTo 32 randomness)).take 32 = padTo 32 randomness
    rw [padTo, List.take_take, List.take_append_of_le_length]
    · rw [List.take_of_length_le (by rw [padTo_length]; decide)]
    · rw [padTo_length]
      decide

theorem sevenCrypto_noZeroKeys : sevenCrypto.NoZeroKeys where
  chain_ne _ _ _ := by
    change (List.replicate 64 7).take 32 ≠ zeroedChainKey
    decide
  a2b_ne _ _ _ := by
    change ((List.replicate 96 7).drop 32).take 32 ≠ zeroedChainKey
    decide
  b2a_ne _ _ _ := by
    change ((List.replicate 96 7).drop 64).take 32 ≠ zeroedChainKey
    decide

def sevenPair : SpqrJoint := fun side =>
  { state :=
      { rootKey := plainSecret
        epoch := 0
        sendEpoch := some 0
        kdfChains := OrderedMap.empty.set 0 ⟨⟨plainSecret, 0⟩, ⟨plainSecret, 0⟩⟩
        skippedKeys := ∅
        direction := directionOf side
        sckaState := ⟨0, none, none⟩
        mode := .direct
        versionNegotiation := some .negotiating
        infoStrings := some spqrInfoStrings
        limits := some spqrLimitsDefaults
        needsSendRatchet := true }
    sent := []
    delivered := [] }

abbrev sevenSystem : TransitionSystem SpqrJoint :=
  spqrSystem sevenCrypto gf16 (initializeSPQRDirect sevenCrypto) { rootKey := plainSecret }

theorem sevenPair_start : sevenSystem.init sevenPair := by
  intro side
  refine ⟨?_, rfl, rfl⟩
  cases side <;> decide

/-- Alice after the announcement of her public key, Bob after receiving it. -/
def sevenAnnounced : SpqrJoint :=
  let sent := Function.update sevenPair .alice ((sevenPair .alice).send sevenCrypto gf16 sevens)
  Function.update sent .bob ((sent .bob).receive sevenCrypto gf16 0
    ⟨[1, 1, 0, 129] ++ padTo mlkem768PublicKeySize (sevens 64), none⟩)

theorem sevenAnnounced_reachable : sevenSystem.Reachable sevenAnnounced :=
  ((TransitionSystem.Reachable.of_init sevenPair_start).step
    (.send .alice sevens fun _ => length_replicate)).step
    (.receive .bob 0 _ (by decide +kernel))

/-- Bob's answer, which starts a new epoch, finds its chain. -/
theorem spqr_send_chain_live_answer :
    SendsLive sevenCrypto gf16 sevens (sevenAnnounced .bob).state :=
  spqr_send_chain_live sevenCrypto_lawful sevenCrypto_lawfulKem sevenCrypto_noZeroKeys (.inr rfl)
    sevenAnnounced_reachable .bob fun _ => length_replicate

end SignalProtocol.Spqr

import SignalProtocol.Sesame.Decrypt

/-! # The candidates of a decrypt

Every attempt of a decrypt runs on the next session of a plan that the record and the message fix.
-/

namespace SignalProtocol.Sesame

open DecryptCalls Results List

variable {ω : Type} {calls : DecryptCalls ω} {address : RemoteAddress} {message : CipherMessage}
variable {call : DecryptCall} {loop next : DecryptLoop} {world started : ω}
variable {error innerError : DecryptError} {record : Option SessionRecord} {plan : List Candidate}
  (candidate : Candidate)

/-- The session that a PreKeyMessage belongs to: the one of its base key, else the current one
where the identity is the same. -/
def matchingSession (record : Option SessionRecord) (message : PreKeyMessage) :
    Option SessionState :=
  ((findMatchingPreKeySession record message).map (·.session)).or
    ((record.bind (·.currentSession)).filter fun session =>
      session.remoteIdentity = message.senderIdentity)

def sessionsOf (record : Option SessionRecord) : List SessionState :=
  record.elim [] fun record => record.currentSession.toList ++ record.archivedSessions.values

def candidatePlan (record : Option SessionRecord) : CipherMessage → List Candidate
  | .ratchet _ =>
    if sessionsOf record = [] then [.absent] else (sessionsOf record).map .stored
  | .preKey message => (matchingSession record message).toList.map .stored ++ [.fresh]

def DecryptError.Final (error : DecryptError) : Prop :=
  error.code? = some .messageDuplicate ∨ error.code? = some .prekeyNotFound

inductive DecryptError.Reports (innerError : DecryptError) : DecryptError → Prop
  | same : Reports innerError innerError
  | failed (baseKeySessionExists : Option Bool) :
      Reports innerError (.failed innerError baseKeySessionExists)
  | duplicated (hcode : innerError.code? = some .messageDuplicate) :
      Reports innerError (.duplicatedMessage innerError.counter innerError.epoch)

/-- The attempts follow the plan, the loop ends by itself, and a failure reports the last attempt.
-/
structure DecryptCalls.DecryptRun.FollowsPlan (message : CipherMessage)
    (run : DecryptRun ω) : Prop where
  ordered : run.attempts.map (·.candidate) <+: candidatePlan run.record message
  ended : run.ending ≠ some .exhausted
  reports : ∀ error, run.result = .error error → ∀ last ∈ run.attempts.getLast?,
    ∃ innerError, last.error = some innerError ∧ innerError.Reports error
  exhaustive : ∀ body, message = .ratchet body → ∀ error, run.result = .error error →
    ∀ last ∈ run.attempts.getLast?, (∀ innerError ∈ last.error, ¬innerError.Final) →
      run.attempts.map (·.candidate) = candidatePlan run.record message

theorem recover_error_reports (herr : recover call loop innerError = .error error) :
    error = innerError ∨ ∃ flag, error = .failed innerError flag := by
  unfold recover at herr
  split at herr
  · cases herr
    exact .inr ⟨_, rfl⟩
  · split at herr
    · cases herr
      exact .inl rfl
    · split at herr
      · cases herr
      · split at herr
        · cases herr
          exact .inl rfl
        · split at herr
          · cases herr
          · cases herr
            exact .inl rfl

/-- A message of a ratchet goes on with the next candidate, unless the error is final. -/
theorem recover_ratchet (hratchet : call.message.isPreKey = false) (hfinal : ¬innerError.Final) :
    recover call loop innerError =
      (call.sessionCandidates.drop loop.currentCandidateIndex).head?.elim (.error innerError)
        fun next =>
          .ok { loop with
            session := some next.session
            currentCandidateIndex := loop.currentCandidateIndex + 1
            usedArchivedCandidate := next.archivedBaseKey } := by
  have hcode : ¬(innerError.code? = some .messageDuplicate ∨
      innerError.code? = some .prekeyNotFound) := hfinal
  unfold recover
  rw [if_neg (by simp [hratchet]), if_neg hcode, if_neg (by simp [hratchet]),
    if_neg (by simp [hratchet]), head?_drop]
  cases call.sessionCandidates[loop.currentCandidateIndex]? <;> rfl

theorem recover_final (hratchet : call.message.isPreKey = false) (hfinal : innerError.Final) :
    recover call loop innerError = .error innerError := by
  have hcode : innerError.code? = some .messageDuplicate ∨
      innerError.code? = some .prekeyNotFound := hfinal
  unfold recover
  rw [if_neg (by simp [hratchet]), if_pos hcode]
  rfl

def DecryptError.Recoverable (error : DecryptError) : Prop :=
  ¬error.isReusedBaseKey ∧ ¬error.Final

def DecryptCall.MayRecover (call : DecryptCall) : Prop :=
  call.hadExistingSession ∧ ¬call.preKeyMatchedExistingSession

theorem recover_preKey (loop : DecryptLoop) (innerError : DecryptError)
    (hpreKey : call.message.isPreKey) (hretried : loop.retriedAfterArchive = false) :
    (call.MayRecover ∧ innerError.Recoverable ∧
        recover call loop innerError = .ok { loop with retriedAfterArchive := true }) ∨
      (¬(call.MayRecover ∧ innerError.Recoverable) ∧
        ∃ error, recover call loop innerError = .error error) := by
  unfold recover
  split
  case isTrue hreused =>
    refine .inr ⟨fun hboth => ?_, _, rfl⟩
    exact hboth.2.1 hreused.2
  case isFalse hreused =>
    split
    case isTrue hcode =>
      refine .inr ⟨fun hboth => ?_, _, rfl⟩
      exact hboth.2.2 hcode
    case isFalse hcode =>
      split
      case isTrue hmay =>
        refine .inl ⟨⟨hmay.2.1, hmay.2.2.1⟩, ⟨fun hsame => ?_, hcode⟩, rfl⟩
        exact hreused ⟨hpreKey, hsame⟩
      case isFalse hmay =>
        refine .inr ⟨fun hboth => ?_, _, rfl⟩
        exact hmay ⟨hpreKey, hboth.1.1, hboth.1.2, by simp [hretried]⟩

/-! ## The loop -/

theorem decryptLoop_cases (calls : DecryptCalls ω) (call : DecryptCall) (left : ℕ)
    (loop : DecryptLoop) (world : ω) :
    (∃ plaintext final, calls.attempt call loop.archiveOnRetry world = .ok plaintext final ∧
        calls.decryptLoop call (left + 1) loop world =
          ⟨[⟨loop.archiveOnRetry.candidate call, none⟩], .returned plaintext, final⟩) ∨
      ∃ innerError middle, calls.attempt call loop.archiveOnRetry world = .error innerError middle ∧
        ((∃ error, recover call loop.archiveOnRetry innerError = .error error ∧
            calls.decryptLoop call (left + 1) loop world =
              ⟨[⟨loop.archiveOnRetry.candidate call, some innerError⟩], .threw error, middle⟩) ∨
          ∃ next, recover call loop.archiveOnRetry innerError = .ok next ∧
            calls.decryptLoop call (left + 1) loop world =
              { calls.decryptLoop call left next middle with
                attempts := ⟨loop.archiveOnRetry.candidate call, some innerError⟩ ::
                  (calls.decryptLoop call left next middle).attempts }) := by
  cases hattempt : calls.attempt call loop.archiveOnRetry world with
  | ok plaintext final => exact .inl ⟨plaintext, final, rfl, by simp only [decryptLoop, hattempt]⟩
  | error innerError middle =>
    refine .inr ⟨innerError, middle, rfl, ?_⟩
    cases hrecover : recover call loop.archiveOnRetry innerError with
    | error error => exact .inl ⟨error, rfl, by simp only [decryptLoop, hattempt, hrecover]⟩
    | ok next => exact .inr ⟨next, rfl, by simp only [decryptLoop, hattempt, hrecover]⟩

structure DecryptCalls.LoopRun.Orderly (plan : List Candidate) (run : LoopRun ω) : Prop where
  ordered : run.attempts.map (·.candidate) <+: plan
  threw : ∀ error, run.ending = .threw error → ∃ last innerError,
    run.attempts.getLast? = some last ∧ last.error = some innerError ∧
      (error = innerError ∨ ∃ flag, error = .failed innerError flag)

theorem orderly_returned (rest : List Candidate) (plaintext : String) (final : ω) :
    LoopRun.Orderly (candidate :: rest) ⟨[⟨candidate, none⟩], .returned plaintext, final⟩ where
  ordered := ⟨rest, rfl⟩
  threw := by
    intro error herr
    cases herr

theorem orderly_threw (rest : List Candidate) (final : ω)
    (herr : recover call loop innerError = .error error) :
    LoopRun.Orderly (candidate :: rest) ⟨[⟨candidate, some innerError⟩], .threw error, final⟩ where
  ordered := ⟨rest, rfl⟩
  threw := by
    intro thrown hthrown
    cases hthrown
    exact ⟨_, innerError, rfl, rfl, recover_error_reports herr⟩

variable {run : LoopRun ω}

theorem DecryptCalls.LoopRun.Orderly.cons (horderly : run.Orderly plan) (attempt : Attempt) :
    LoopRun.Orderly (attempt.candidate :: plan)
      { run with attempts := attempt :: run.attempts } where
  ordered := by
    obtain ⟨rest, hrest⟩ := horderly.ordered
    exact ⟨rest, by simp [hrest]⟩
  threw := by
    intro error herr
    obtain ⟨last, innerError, hlast, hrest⟩ := horderly.threw error herr
    exact ⟨last, innerError, by simp [getLast?_cons, hlast], hrest⟩

/-- A run of the loop that ends by itself, and fails before the end of the plan only at a final
error. -/
structure DecryptCalls.LoopRun.Settles (plan : List Candidate) (run : LoopRun ω) : Prop
    extends run.Orderly plan where
  ended : run.ending ≠ .exhausted
  exhaustive : ∀ error, run.ending = .threw error → ∀ last ∈ run.attempts.getLast?,
    (∀ innerError ∈ last.error, ¬innerError.Final) → run.attempts.map (·.candidate) = plan

theorem archiveOnRetry_of_not_retried (hretried : loop.retriedAfterArchive = false) :
    loop.archiveOnRetry = loop := by
  unfold DecryptLoop.archiveOnRetry
  rw [hretried]
  rfl

/-- With one attempt for the session at hand and one for each further candidate, the loop settles.
-/
theorem decryptLoop_ratchet (calls : DecryptCalls ω) (hratchet : call.message.isPreKey = false)
    (rest : List DecryptionCandidate) (loop : DecryptLoop) (world : ω)
    (hretried : loop.retriedAfterArchive = false)
    (hrest : call.sessionCandidates.drop loop.currentCandidateIndex = rest) :
    (calls.decryptLoop call (rest.length + 1) loop world).Settles
      (loop.candidate call :: rest.map fun next => .stored next.session) := by
  induction rest generalizing loop world with
  | nil =>
    obtain ⟨plaintext, final, hattempt, hrun⟩ | ⟨innerError, middle, hattempt, hcases⟩ :=
      decryptLoop_cases calls call 0 loop world
    · rw [archiveOnRetry_of_not_retried hretried] at hrun
      rw [length_nil, hrun]
      exact ⟨orderly_returned _ _ _ _, by simp, by simp⟩
    · rw [archiveOnRetry_of_not_retried hretried] at hcases
      obtain ⟨error, hrecover, hrun⟩ | ⟨next, hrecover, hrun⟩ := hcases
      · rw [length_nil, hrun]
        exact ⟨orderly_threw _ _ _ hrecover, by simp, fun _ _ _ _ _ => rfl⟩
      · by_cases hfinal : innerError.Final
        · rw [recover_final hratchet hfinal] at hrecover
          cases hrecover
        · rw [recover_ratchet hratchet hfinal, hrest] at hrecover
          cases hrecover
  | cons following rest ih =>
    obtain ⟨plaintext, final, hattempt, hrun⟩ | ⟨innerError, middle, hattempt, hcases⟩ :=
      decryptLoop_cases calls call (rest.length + 1) loop world
    · rw [archiveOnRetry_of_not_retried hretried] at hrun
      rw [length_cons, hrun]
      exact ⟨orderly_returned _ _ _ _, by simp, by simp⟩
    · rw [archiveOnRetry_of_not_retried hretried] at hcases
      obtain ⟨error, hrecover, hrun⟩ | ⟨next, hrecover, hrun⟩ := hcases
      · rw [length_cons, hrun]
        refine ⟨orderly_threw _ _ _ hrecover, by simp, ?_⟩
        intro thrown _ last hlast hnone
        cases hlast
        have hfinal : ¬innerError.Final := hnone innerError rfl
        rw [recover_ratchet hratchet hfinal, hrest] at hrecover
        cases hrecover
      · by_cases hfinal : innerError.Final
        · rw [recover_final hratchet hfinal] at hrecover
          cases hrecover
        · rw [recover_ratchet hratchet hfinal, hrest] at hrecover
          cases hrecover
          have hdrop : call.sessionCandidates.drop (loop.currentCandidateIndex + 1) = rest := by
            rw [← drop_drop, hrest]
            rfl
          have hnext := ih
            { loop with
              session := some following.session
              currentCandidateIndex := loop.currentCandidateIndex + 1
              usedArchivedCandidate := following.archivedBaseKey } middle hretried hdrop
          rw [length_cons, hrun]
          refine ⟨hnext.toOrderly.cons ⟨loop.candidate call, some innerError⟩, hnext.ended, ?_⟩
          intro error herr last hlast hnone
          obtain ⟨final, thrown, hfound, hthrown⟩ := hnext.threw error herr
          have hsame : last = final := by
            rw [getLast?_cons, hfound] at hlast
            exact (Option.some.inj hlast).symm
          have hplan := hnext.exhaustive error herr last (by rw [hfound, hsame]; rfl) hnone
          simp only [map_cons, hplan]
          rfl

/-- The loop sets the session of a PreKeyMessage aside and fails with the fresh one as well, both
times with an error that it may recover from. -/
def RecoveryFails (calls : DecryptCalls ω) (call : DecryptCall) (loop : DecryptLoop)
    (world : ω) : Prop :=
  call.message.isPreKey ∧ call.MayRecover ∧ ∃ first middle second final,
    calls.attempt call loop world = .error first middle ∧ first.Recoverable ∧
      calls.attempt call { loop with retriedAfterArchive := true }.archiveOnRetry middle =
        .error second final ∧ second.Recoverable

theorem archiveOnRetry_candidate (hpreKey : call.message.isPreKey) :
    { loop with retriedAfterArchive := true : DecryptLoop }.archiveOnRetry.candidate call =
      .fresh := by
  simp [DecryptLoop.archiveOnRetry, DecryptLoop.candidate, hpreKey]

theorem not_recoveryFails_of_ok {plaintext : String} {final : ω}
    (hattempt : calls.attempt call loop world = .ok plaintext final) :
    ¬RecoveryFails calls call loop world := by
  rintro ⟨_, _, first, middle, second, last, hfst, _⟩
  rw [hattempt] at hfst
  cases hfst

/-- The last attempt, on a fresh session. -/
theorem decryptLoop_fresh (calls : DecryptCalls ω) (hpreKey : call.message.isPreKey)
    (loop : DecryptLoop) (world : ω) (hmay : call.MayRecover) :
    (calls.decryptLoop call 1 { loop with retriedAfterArchive := true } world).Orderly [.fresh] ∧
      ((calls.decryptLoop call 1 { loop with retriedAfterArchive := true } world).ending =
          .exhausted ↔
        ∃ second final,
          calls.attempt call { loop with retriedAfterArchive := true }.archiveOnRetry world =
            .error second final ∧ second.Recoverable) := by
  obtain ⟨plaintext, final, hattempt, hrun⟩ | ⟨second, final, hattempt, hcases⟩ :=
    decryptLoop_cases calls call 0 { loop with retriedAfterArchive := true } world
  · rw [hrun, archiveOnRetry_candidate hpreKey]
    refine ⟨orderly_returned _ _ _ _, fun hended => ?_, ?_⟩
    · cases hended
    · rintro ⟨second, last, hsnd, _⟩
      rw [hattempt] at hsnd
      cases hsnd
  · obtain ⟨_, hrecoverable, hretry⟩ | ⟨hnot, error, hrecover⟩ :=
      recover_preKey { loop with retriedAfterArchive := true : DecryptLoop }.archiveOnRetry second
        hpreKey rfl
    · obtain ⟨error, hrecover, _⟩ | ⟨next, _, hrun⟩ := hcases
      · rw [hretry] at hrecover
        cases hrecover
      · rw [hrun, archiveOnRetry_candidate hpreKey]
        refine ⟨⟨⟨[], rfl⟩, fun error herr => ?_⟩, fun _ => ?_, fun _ => rfl⟩
        · cases herr
        · exact ⟨second, final, hattempt, hrecoverable⟩
    · obtain ⟨error, hrecover, hrun⟩ | ⟨next, hretry, _⟩ := hcases
      · rw [hrun, archiveOnRetry_candidate hpreKey]
        refine ⟨orderly_threw _ _ _ hrecover, fun hended => ?_, ?_⟩
        · cases hended
        · rintro ⟨other, last, hother, hrecoverable⟩
          rw [hattempt] at hother
          cases hother
          exact absurd ⟨hmay, hrecoverable⟩ hnot
      · rw [hrecover] at hretry
        cases hretry

/-- A PreKeyMessage takes two attempts at most, and the loop runs out only where both failed. -/
theorem decryptLoop_preKey (calls : DecryptCalls ω) (hpreKey : call.message.isPreKey)
    (loop : DecryptLoop) (world : ω) (hretried : loop.retriedAfterArchive = false) :
    (calls.decryptLoop call 2 loop world).Orderly
        (loop.candidate call :: if call.hadExistingSession then [.fresh] else []) ∧
      ((calls.decryptLoop call 2 loop world).ending = .exhausted ↔
        RecoveryFails calls call loop world) := by
  obtain ⟨plaintext, final, hattempt, hrun⟩ | ⟨first, middle, hattempt, hcases⟩ :=
    decryptLoop_cases calls call 1 loop world
  · rw [archiveOnRetry_of_not_retried hretried] at hrun hattempt
    rw [hrun]
    refine ⟨orderly_returned _ _ _ _, fun hended => ?_, fun hfails => ?_⟩
    · cases hended
    · exact absurd hfails (not_recoveryFails_of_ok hattempt)
  · rw [archiveOnRetry_of_not_retried hretried] at hcases hattempt
    obtain ⟨hmay, hfst, hretry⟩ | ⟨hnot, error, hrecover⟩ :=
      recover_preKey loop first hpreKey hretried
    · obtain ⟨error, hrecover, _⟩ | ⟨next, hrecover, hrun⟩ := hcases
      · rw [hretry] at hrecover
        cases hrecover
      · rw [hretry] at hrecover
        cases hrecover
        rw [hrun, if_pos hmay.1]
        obtain ⟨horderly, hended⟩ := decryptLoop_fresh calls hpreKey loop middle hmay
        refine ⟨horderly.cons ⟨loop.candidate call, some first⟩, hended.trans ⟨?_, ?_⟩⟩
        · rintro ⟨second, final, hsnd, hrecoverable⟩
          exact ⟨hpreKey, hmay, first, middle, second, final, hattempt, hfst, hsnd, hrecoverable⟩
        · rintro ⟨_, _, other, reached, second, final, hother, _, hsnd, hrecoverable⟩
          rw [hattempt] at hother
          cases hother
          exact ⟨second, final, hsnd, hrecoverable⟩
    · obtain ⟨error, hrecover, hrun⟩ | ⟨next, hretry, _⟩ := hcases
      · rw [hrun]
        refine ⟨orderly_threw _ _ _ hrecover, fun hended => ?_, ?_⟩
        · cases hended
        · rintro ⟨_, hmay, other, reached, second, final, hother, hfst, _⟩
          rw [hattempt] at hother
          cases hother
          exact absurd ⟨hmay, hfst⟩ hnot
      · rw [hrecover] at hretry
        cases hretry

theorem findDecryptingSessions_sessions (record : Option SessionRecord) :
    (record.elim [] findDecryptingSessions).map (·.session) = sessionsOf record := by
  cases record with
  | none => rfl
  | some record =>
    simp [findDecryptingSessions, sessionsOf, OrderedMap.values, Function.comp_def]

theorem selectRatchet_settles (calls : DecryptCalls ω) (address : RemoteAddress) (body : String)
    (record : Option SessionRecord) (world : ω) :
    (calls.decryptLoop (selectRatchet address body record).1
        (maxAttempts (selectRatchet address body record).1)
        (selectRatchet address body record).2 world).Settles
      (candidatePlan record (.ratchet body)) := by
  have hsessions := findDecryptingSessions_sessions record
  have hratchet : (selectRatchet address body record).1.message.isPreKey = false := rfl
  cases hcandidates : record.elim [] findDecryptingSessions with
  | nil =>
    have hmax : maxAttempts (selectRatchet address body record).1 = 1 := by
      simp [maxAttempts, selectRatchet, hcandidates, CipherMessage.isPreKey]
    have hplan : candidatePlan record (.ratchet body) =
        [(selectRatchet address body record).2.candidate
          (selectRatchet address body record).1] := by
      rw [hcandidates] at hsessions
      simp [candidatePlan, ← hsessions, selectRatchet, hcandidates, DecryptLoop.candidate,
        CipherMessage.isPreKey]
    rw [hmax, hplan]
    exact decryptLoop_ratchet calls hratchet [] _ world rfl
      (by simp [selectRatchet, hcandidates])
  | cons first rest =>
    have hmax : maxAttempts (selectRatchet address body record).1 = rest.length + 1 := by
      simp [maxAttempts, selectRatchet, hcandidates, CipherMessage.isPreKey]
    have hplan : candidatePlan record (.ratchet body) =
        (selectRatchet address body record).2.candidate (selectRatchet address body record).1 ::
          rest.map fun next => .stored next.session := by
      rw [hcandidates] at hsessions
      simp [candidatePlan, ← hsessions, selectRatchet, hcandidates, DecryptLoop.candidate]
    rw [hmax, hplan]
    exact decryptLoop_ratchet calls hratchet rest _ world rfl
      (by simp [selectRatchet, hcandidates])

theorem selectPreKey_eq_ok {message : PreKeyMessage}
    (hselect : calls.selectPreKey address message record world = .ok (call, loop) started) :
    call.message = .preKey message ∧ loop.session = matchingSession record message ∧
      call.hadExistingSession = (matchingSession record message).isSome ∧
      loop.retriedAfterArchive = false := by
  unfold selectPreKey at hselect
  obtain ⟨deviceId, first, _, hselect⟩ := bind_apply_eq_ok_iff.mp hselect
  obtain ⟨_, second, _, hselect⟩ := bind_apply_eq_ok_iff.mp hselect
  obtain ⟨_, third, _, hselect⟩ := bind_apply_eq_ok_iff.mp hselect
  cases hselect
  exact ⟨rfl, rfl, rfl, rfl⟩

theorem reported_reports (herr : error = innerError ∨ ∃ flag, error = .failed innerError flag) :
    innerError.Reports (reported error) := by
  obtain rfl | ⟨flag, rfl⟩ := herr
  · unfold reported
    split
    case isTrue hcode => exact .duplicated hcode
    case isFalse =>
      split
      · exact .same
      · exact .failed none
  · exact .failed flag

/-- The recovery fails for the record that the decrypt reads. -/
def DecryptFallsThrough (calls : DecryptCalls ω) (address : RemoteAddress)
    (message : CipherMessage) (world : ω) : Prop :=
  ∃ record loaded call loop started, calls.loadRecord world = .ok record loaded ∧
    calls.selectSession address record message loaded = .ok (call, loop) started ∧
    RecoveryFails calls call loop started

theorem DecryptCalls.LoopRun.Orderly.reports (horderly : run.Orderly plan)
    (hended : run.ending ≠ .exhausted) (hres : run.ending.result = .error error)
    {last : Attempt} (hlast : last ∈ run.attempts.getLast?) :
    ∃ innerError, last.error = some innerError ∧ innerError.Reports error := by
  cases hending : run.ending with
  | returned plaintext =>
    rw [hending] at hres
    cases hres
  | threw thrown =>
    rw [hending] at hres
    cases hres
    obtain ⟨final, innerError, hfinal, herr, hthrown⟩ := horderly.threw thrown hending
    rw [hfinal] at hlast
    cases hlast
    exact ⟨innerError, herr, reported_reports hthrown⟩
  | exhausted => exact absurd hending hended

theorem DecryptCalls.LoopRun.Settles.followsPlan
    (hsettles : run.Settles (candidatePlan record message)) :
    DecryptRun.FollowsPlan message
      ⟨record, run.attempts, some run.ending, run.ending.result, run.world⟩ where
  ordered := hsettles.ordered
  ended := fun hended => hsettles.ended (Option.some.inj hended)
  reports := fun _ herr _ hlast => hsettles.toOrderly.reports hsettles.ended herr hlast
  exhaustive := by
    intro _ _ error herr last hlast hnone
    cases hending : run.ending with
    | returned plaintext =>
      rw [hending] at herr
      cases herr
    | threw thrown => exact hsettles.exhaustive thrown hending last hlast hnone
    | exhausted => exact absurd hending hsettles.ended

theorem followsPlan_of_no_attempt (result : Except DecryptError String) (world : ω) :
    DecryptRun.FollowsPlan message ⟨record, [], none, result, world⟩ where
  ordered := nil_prefix
  ended := by simp
  reports := by simp
  exhaustive := by simp

theorem selectPreKey_followsPlan_iff {message : PreKeyMessage}
    (hselect : calls.selectPreKey address message record world = .ok (call, loop) started) :
    DecryptRun.FollowsPlan (.preKey message)
        ⟨record, (calls.decryptLoop call 2 loop started).attempts,
          some (calls.decryptLoop call 2 loop started).ending,
          (calls.decryptLoop call 2 loop started).ending.result,
          (calls.decryptLoop call 2 loop started).world⟩ ↔
      ¬RecoveryFails calls call loop started := by
  obtain ⟨hmsg, hsess, hexist, hretried⟩ := selectPreKey_eq_ok hselect
  have hpreKey : call.message.isPreKey := by rw [hmsg]; rfl
  obtain ⟨horderly, hended⟩ := decryptLoop_preKey calls hpreKey loop started hretried
  have hplan : (loop.candidate call :: if call.hadExistingSession then [.fresh] else []) =
      candidatePlan record (.preKey message) := by
    change _ = (matchingSession record message).toList.map Candidate.stored ++ [.fresh]
    unfold DecryptLoop.candidate
    rw [hsess, hexist, if_pos hpreKey]
    cases matchingSession record message <;> rfl
  rw [hplan] at horderly
  constructor
  · intro hfollows hfails
    exact hfollows.ended (congrArg some (hended.mpr hfails))
  · intro hnot
    have hends : (calls.decryptLoop call 2 loop started).ending ≠ .exhausted :=
      fun hends => hnot (hended.mp hends)
    exact {
      ordered := horderly.ordered
      ended := fun hsome => hends (Option.some.inj hsome)
      reports := fun _ herr _ hlast => horderly.reports hends herr hlast
      exhaustive := by simp }

/-- A decrypt follows its plan exactly when it does not fall through the recovery. -/
theorem decrypt_follows_candidate_plan_iff (calls : DecryptCalls ω) (address : RemoteAddress)
    (message : CipherMessage) (world : ω) :
    (calls.decrypt address message world).FollowsPlan message ↔
      ¬DecryptFallsThrough calls address message world := by
  unfold decrypt
  cases hload : calls.loadRecord world with
  | error error loaded =>
    refine iff_of_true (followsPlan_of_no_attempt _ _) ?_
    rintro ⟨record, other, call, loop, started, hother, _⟩
    rw [hload] at hother
    cases hother
  | ok record loaded =>
    cases hselect : calls.selectSession address record message loaded with
    | error error selected =>
      simp only [hselect]
      refine iff_of_true (followsPlan_of_no_attempt _ _) ?_
      rintro ⟨other, reached, call, loop, started, hother, hsome, _⟩
      rw [hload] at hother
      cases hother
      rw [hselect] at hsome
      cases hsome
    | ok selected started =>
      obtain ⟨call, loop⟩ := selected
      simp only [hselect]
      have hfalls : DecryptFallsThrough calls address message world ↔
          RecoveryFails calls call loop started := by
        refine ⟨?_, fun hfails => ⟨record, loaded, call, loop, started, hload, hselect, hfails⟩⟩
        rintro ⟨other, reached, call, loop, final, hother, hsome, hfails⟩
        rw [hload] at hother
        cases hother
        rw [hselect] at hsome
        cases hsome
        exact hfails
      rw [hfalls]
      cases message with
      | ratchet body =>
        cases hselect
        refine iff_of_true (selectRatchet_settles calls address body record _).followsPlan ?_
        rintro ⟨hpreKey, _⟩
        cases hpreKey
      | preKey message =>
        have hmessage := (selectPreKey_eq_ok hselect).1
        have hmax : maxAttempts call = 2 := by
          simp [maxAttempts, hmessage, CipherMessage.isPreKey]
        rw [hmax]
        exact selectPreKey_followsPlan_iff hselect

/-- A device with a session of the sender, under another base key, whose messages all fail their
MAC check. -/
def mismatchCalls : DecryptCalls Unit where
  getSessionRecord := pure (some ⟨CURRENT_SESSION_RECORD_VERSION,
    { currentSession := some ⟨"earlier", [1], none, ""⟩, archivedSessions := ∅ }⟩)
  deleteSessionRecord := pure ()
  isTrustedIdentity := fun _ _ => pure true
  establishSession := fun message =>
    pure ⟨message.senderEphemeralKey, message.senderIdentity, none, ""⟩
  openMessage := fun _ _ =>
    throw (encryptionError .decryptionFailed "Message authentication failed - MAC mismatch")
  commitSessionTrust := fun _ _ _ _ => pure ()
  now := fun _ => 0

def mismatchedMessage : CipherMessage :=
  .preKey ⟨"alice", some 1, [1], "later", ""⟩

/-- Both attempts fail on their MAC, and the decrypt reports the end of its loop instead. -/
theorem decrypt_falls_through :
    (mismatchCalls.decrypt ⟨"alice", 1⟩ mismatchedMessage ()).ending = some .exhausted ∧
      (mismatchCalls.decrypt ⟨"alice", 1⟩ mismatchedMessage ()).result =
        .error (encryptionError .decryptionFailed "Unexpected end of decrypt retry loop") ∧
      ¬(mismatchCalls.decrypt ⟨"alice", 1⟩ mismatchedMessage ()).FollowsPlan mismatchedMessage := by
  have hended : (mismatchCalls.decrypt ⟨"alice", 1⟩ mismatchedMessage ()).ending =
      some .exhausted := rfl
  exact ⟨hended, rfl, fun hfollows => hfollows.ended hended⟩

end SignalProtocol.Sesame

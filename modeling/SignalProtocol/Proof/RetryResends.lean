import SignalProtocol.Retry.Resends

/-! # One encryption for each answer ID

A record holds the encryption of the posts under its answer ID, as long as no call comes back to an
ID whose record was replaced. -/

namespace SignalProtocol.Retry.Answers

open List Option

variable {world next : AnswerWorld} {id : AnswerId} {resend record : RetryResend}

def RetryResend.bytes (resend : RetryResend) : ℤ × Option Outbox.JsonText :=
  (resend.operationEpochMilliseconds, resend.message)

structure OneEncryption (posts : List RelayPost) : Prop where
  same : ∀ first ∈ posts, ∀ second ∈ posts, first.id = second.id →
    first.resend.bytes = second.resend.bytes
  silent : ∀ post ∈ posts, post.marked = false
  complete : ∀ post ∈ posts, ∀ held ∈ post.held, held.bytes = post.resend.bytes

/-- Nothing was posted under the answer ID of the call, or all of it for the failed envelope of the
call, and the store still has the record of that answer. -/
def ResendCall.Keeps (call : ResendCall) (world : AnswerWorld) : Prop :=
  ∀ attempt, ∀ post ∈ world.posts, retryRequestAttempt call.retry = .ok attempt →
    answerId call.recipient call.retry attempt = .ok post.id →
    post.resend.failedEnvelopeId = call.retry.failedEnvelopeId ∧ ∃ found,
      getRetryResend world.records (call.recipient, call.retry.failedEnvelopeId) call.now =
        .ok found ∧ (call.repeated found).isSome = true

def AnswerStep.Keeps (world : AnswerWorld) : AnswerStep → Prop
  | .call resend _ => resend.Keeps world
  | .ends _ _ _ => True

/-- The posts under an ID carry a resend of one failed envelope. -/
def Agrees (world : AnswerWorld) (id : AnswerId) (resend : RetryResend) : Prop :=
  ∀ post ∈ world.posts, post.id = id → post.resend.bytes = resend.bytes ∧
    post.resend.failedEnvelopeId = resend.failedEnvelopeId

/-- The posts under the ID of a record, as far as they are for its failed envelope. -/
def Fits (world : AnswerWorld) (record : RetryResend) : Prop :=
  record.message.isSome = true → ∀ post ∈ world.posts, record.retryResendAttemptId = .ok post.id →
    post.resend.failedEnvelopeId = record.failedEnvelopeId →
    post.resend.bytes = record.bytes ∧ (post.id ∈ world.marked → record.acceptanceUnknown = true)

structure Kept (world : AnswerWorld) : Prop where
  one : OneEncryption world.posts
  keyed : ∀ key record, world.records key = some record → record.id = key
  fits : ∀ key record, world.records key = some record → Fits world record
  marked : ∀ id ∈ world.marked, ∃ post ∈ world.posts, post.id = id
  accepted : ∀ entry ∈ world.accepted, ∃ post ∈ world.posts,
    post.id = entry.1 ∧ post.resend = entry.2

/-- Every crash in a list of effects leaves such a world. -/
def Safe (world : AnswerWorld) (effects : List Effect) : Prop :=
  ∀ crash after, (effects.take crash).foldlM AnswerWorld.apply world = some after → Kept after

theorem Safe.nil (hkept : Kept world) : Safe world [] := by
  intro crash after hafter
  rw [List.take_nil] at hafter
  exact Option.some.inj hafter ▸ hkept

theorem Safe.cons {effect : Effect} {effects : List Effect} (hkept : Kept world)
    (hrest : ∀ next, world.apply effect = some next → Safe next effects) :
    Safe world (effect :: effects) := by
  rintro (_ | crash) after hafter
  · exact Safe.nil hkept 0 after hafter
  · obtain ⟨next, hnext, hafter⟩ := bind_eq_some_iff.mp hafter
    exact hrest next hnext crash after hafter

theorem Kept.prune (hkept : Kept world) (expired : AnswerId → Bool) :
    Kept { world with records := fun id => if expired id then none else world.records id } :=
  { hkept with
    keyed := fun id record hget => hkept.keyed id record (ite_none_left_eq_some.mp hget).2
    fits := fun id record hget => hkept.fits id record (ite_none_left_eq_some.mp hget).2 }

theorem of_setRecord {found : RetryResend}
    (hfound : (world.setRecord record).records id = some found) :
    found = record ∧ record.id = id ∨ world.records id = some found := by
  change Function.update world.records record.id (some record) id = some found at hfound
  obtain rfl | hne := eq_or_ne id record.id
  · rw [Function.update_self] at hfound
    exact .inl ⟨(Option.some.inj hfound).symm, rfl⟩
  · rw [Function.update_of_ne hne] at hfound
    exact .inr hfound

theorem Kept.setRecord (hkept : Kept world) (hfits : Fits world record) :
    Kept (world.setRecord record) :=
  { hkept with
    keyed := fun id found hfound => by
      obtain ⟨rfl, hid⟩ | hfound := of_setRecord hfound
      · exact hid
      · exact hkept.keyed id found hfound
    fits := fun id found hfound => by
      obtain ⟨rfl, -⟩ | hfound := of_setRecord hfound
      · exact hfits
      · exact hkept.fits id found hfound }

theorem retryResendAttemptId_fst (hid : resend.retryResendAttemptId = .ok id) :
    resend.recipient = id.1 := by
  unfold RetryResend.retryResendAttemptId answerId at hid
  generalize RetryFamilyMember.clientMessageId _ = built at hid
  cases built with
  | error => cases hid
  | ok =>
    cases hid
    rfl

/-- A resend under its ID, which its posts carry and which is in the store. -/
structure Posts (world : AnswerWorld) (id : AnswerId) (resend : RetryResend) : Prop where
  attempt : resend.retryResendAttemptId = .ok id
  record : world.records resend.id = some resend
  agrees : Agrees world id resend

/-- The store has one record for an ID and a failed envelope. -/
theorem Posts.unique {key : AnswerId} (hposts : Posts world id resend) (hkept : Kept world)
    (hfound : world.records key = some record) (hid : record.retryResendAttemptId = .ok id)
    (hfailed : resend.failedEnvelopeId = record.failedEnvelopeId) : record = resend := by
  have hkey : key = resend.id := by
    rw [← hkept.keyed key _ hfound]
    exact Prod.ext ((retryResendAttemptId_fst hid).trans
      (retryResendAttemptId_fst hposts.attempt).symm) hfailed.symm
  rw [hkey, hposts.record] at hfound
  exact (Option.some.inj hfound).symm

/-- The world after a post. -/
structure Posted (world : AnswerWorld) (id : AnswerId) (resend : RetryResend) : Prop where
  kept : Kept world
  attempt : resend.retryResendAttemptId = .ok id
  agrees : Agrees world id resend
  posted : ∃ post ∈ world.posts, post.id = id

theorem Posts.sent {answer : PostAnswer} (hposts : Posts world id resend) (hkept : Kept world)
    (hunmarked : id ∉ world.marked) : Posted (world.sent id resend answer) id resend where
  attempt := hposts.attempt
  posted := ⟨_, mem_append_right _ mem_cons_self, rfl⟩
  agrees post hmem hid := by
    obtain hmem | hmem := mem_append.mp hmem
    · exact hposts.agrees post hmem hid
    · cases mem_singleton.mp hmem
      exact ⟨rfl, rfl⟩
  kept :=
    { keyed := hkept.keyed
      one :=
        { same := fun first hfst second hsnd hid => by
            obtain hfst | hfst := mem_append.mp hfst <;>
              obtain hsnd | hsnd := mem_append.mp hsnd
            · exact hkept.one.same first hfst second hsnd hid
            · cases mem_singleton.mp hsnd
              exact (hposts.agrees first hfst hid).1
            · cases mem_singleton.mp hfst
              exact (hposts.agrees second hsnd hid.symm).1.symm
            · cases mem_singleton.mp hfst
              cases mem_singleton.mp hsnd
              rfl
          silent := fun post hmem => by
            obtain hmem | hmem := mem_append.mp hmem
            · exact hkept.one.silent post hmem
            · cases mem_singleton.mp hmem
              exact decide_eq_false hunmarked
          complete := fun post hmem held hheld => by
            obtain hmem | hmem := mem_append.mp hmem
            · exact hkept.one.complete post hmem held hheld
            · cases mem_singleton.mp hmem
              obtain ⟨-, hheld⟩ := ite_none_right_eq_some.mp hheld
              obtain ⟨entry, hentry, rfl⟩ := map_eq_some_iff.mp hheld
              obtain ⟨post, hpost, hid, hresend⟩ :=
                hkept.accepted entry (mem_of_find?_eq_some hentry)
              have hfound : entry.1 = id := by simpa using find?_some hentry
              rw [← hresend]
              exact (hposts.agrees post hpost (hid.trans hfound)).1 }
      fits := fun key record hfound hmsg post hmem hid hfailed => by
        obtain hmem | hmem := mem_append.mp hmem
        · exact hkept.fits key record hfound hmsg post hmem hid hfailed
        · cases mem_singleton.mp hmem
          obtain rfl := hposts.unique hkept hfound hid hfailed
          exact ⟨rfl, fun hmarked => absurd hmarked hunmarked⟩
      marked := fun id hid => by
        obtain ⟨post, hpost, hid⟩ := hkept.marked id hid
        exact ⟨post, mem_append_left _ hpost, hid⟩
      accepted := fun entry hentry => by
        have hold : entry ∈ world.accepted ∨ entry = (id, resend) := by
          unfold AnswerWorld.sent at hentry
          dsimp only at hentry
          split at hentry
          · exact (mem_append.mp hentry).imp_right mem_singleton.mp
          · exact .inl hentry
        obtain hold | rfl := hold
        · obtain ⟨post, hpost, hentry⟩ := hkept.accepted entry hold
          exact ⟨post, mem_append_left _ hpost, hentry⟩
        · exact ⟨_, mem_append_right _ mem_cons_self, rfl, rfl⟩ }

theorem Kept.mark (hkept : Kept world) (hagrees : Agrees world id resend)
    (hid : resend.retryResendAttemptId = .ok id) (hposted : ∃ post ∈ world.posts, post.id = id)
    (hunknown : resend.acceptanceUnknown = true) :
    Kept { world.setRecord resend with marked := id :: world.marked } := by
  have hset : Kept (world.setRecord resend) := hkept.setRecord fun _ post hmem hpost _ =>
    ⟨(hagrees post hmem (Except.ok.inj (hpost.symm.trans hid))).1, fun _ => hunknown⟩
  have hposts : Posts (world.setRecord resend) id resend := ⟨hid, Function.update_self .., hagrees⟩
  refine
    { hset with
      fits := fun key record hfound hmsg post hmem hpost hfailed => ?_
      marked := fun other hother => ?_ }
  · obtain ⟨hbytes, hmarked⟩ := hset.fits key record hfound hmsg post hmem hpost hfailed
    refine ⟨hbytes, fun hother => ?_⟩
    obtain hother | hother := mem_cons.mp hother
    · rw [hother] at hpost
      obtain rfl := hposts.unique hset hfound hpost
        ((hagrees post hmem hother).2.symm.trans hfailed)
      exact hunknown
    · exact hmarked hother
  · obtain rfl | hother := mem_cons.mp hother
    · exact hposted
    · exact hkept.marked other hother

theorem safe_post {answer : PostAnswer} {expired : AnswerId → Answered} (hkept : Kept world)
    (hposts : ∀ id, resend.retryResendAttemptId = .ok id →
      Posts world id resend ∧ id ∉ world.marked)
    (hexp : ∀ next id, Posted next id resend → Safe next (expired id).effects) :
    Safe world (post resend answer expired).effects := by
  unfold post
  split
  · exact .nil hkept
  · next id hid =>
    have hposted {next : AnswerWorld} (hnext : world.apply (.post id resend answer) = some next) :
        Posted next id resend :=
      Option.some.inj (ite_none_left_eq_some.mp hnext).2 ▸
        (hposts id hid).1.sent hkept (hposts id hid).2
    cases answer with
    | accepted | held | failed => exact .cons hkept fun next hnext => .nil (hposted hnext).kept
    | operationExpired => exact .cons hkept fun next hnext => hexp next id (hposted hnext)
    | unsent => exact .nil hkept

theorem safe_storeRetryResend {expired : AnswerId → Bool} {write : Effect} {rest : Answered}
    (hkept : Kept world) (hwrite : ∀ pruned next, Kept pruned → pruned.posts = world.posts →
      pruned.apply write = some next → Safe next rest.effects) :
    Safe world (storeRetryResend expired record write rest).effects := by
  unfold storeRetryResend
  split
  · exact .nil hkept
  · split
    · refine .cons hkept fun pruned hpruned => ?_
      cases hpruned
      exact .cons (hkept.prune expired) fun next => hwrite _ next (hkept.prune expired) rfl
    · exact .nil hkept

variable {call : ResendCall} {attempt : ℕ}

theorem safe_repeatStored (hkept : Kept world) (hmsg : resend.message.isSome = true)
    (hposts : ∀ id, resend.retryResendAttemptId = .ok id → Posts world id resend) :
    Safe world (call.repeatStored resend).effects := by
  unfold ResendCall.repeatStored
  split
  · exact .nil hkept
  · next hknown =>
    refine safe_post hkept (fun id hid => ⟨hposts id hid, fun hmarked => ?_⟩) ?_
    · obtain ⟨post, hpost, rfl⟩ := hkept.marked id hmarked
      exact hknown ((hkept.fits _ resend (hposts _ hid).record hmsg post hpost hid
        ((hposts _ hid).agrees post hpost rfl).2).2 hmarked)
    · intro next id hposted
      refine safe_storeRetryResend hposted.kept fun pruned last hpruned hevents hlast => .nil ?_
      cases hlast
      refine hpruned.mark ?_ hposted.attempt (hevents ▸ hposted.posted) rfl
      exact fun post hmem => hposted.agrees post (hevents ▸ hmem)

theorem safe_encryptAndPost {content : String} (hkept : Kept world)
    (hfresh : ∀ post ∈ world.posts, answerId call.recipient call.retry attempt ≠ .ok post.id) :
    Safe world (call.encryptAndPost attempt content).effects := by
  unfold ResendCall.encryptAndPost
  split
  · exact .nil hkept
  · refine safe_storeRetryResend hkept fun pruned last hpruned hevents hlast => ?_
    rw [← hevents] at hfresh
    cases hlast
    refine safe_post (hpruned.setRecord fun _ post hpost hid => absurd hid (hfresh post hpost))
      (fun id hid => ⟨⟨hid, Function.update_self .., ?_⟩, fun hmarked => ?_⟩)
      fun next id hposted => .nil hposted.kept
    · rintro post hpost rfl
      exact absurd hid (hfresh post hpost)
    · obtain ⟨post, hpost, rfl⟩ := hpruned.marked id hmarked
      exact hfresh post hpost hid

theorem retryRequestAttempt_eq_ok {target : RetryResendTarget}
    (hattempt : retryRequestAttempt target = .ok attempt) :
    retryFamilyMember target.requestEnvelopeId = some ⟨target.retryId, .retryRequest, attempt⟩ := by
  unfold retryRequestAttempt at hattempt
  split at hattempt
  · next hmember =>
    split at hattempt
    · next heq =>
      cases hattempt
      rw [hmember, heq]
    · cases hattempt
  · cases hattempt

/-- A call posts the stored resend that it repeats under its own answer ID. -/
theorem of_repeated {found : Option RetryResend}
    (hattempt : retryRequestAttempt call.retry = .ok attempt)
    (hfound : getRetryResend world.records (call.recipient, call.retry.failedEnvelopeId) call.now =
      .ok found) (hrepeated : call.repeated found = some resend) :
    world.records resend.id = some resend ∧ resend.message.isSome = true ∧
      resend.failedEnvelopeId = call.retry.failedEnvelopeId ∧
      resend.retryResendAttemptId = answerId call.recipient call.retry attempt := by
  obtain ⟨rfl, hstored⟩ := filter_eq_some_iff.mp hrepeated
  obtain ⟨hmsg, hrequest, hkind⟩ := of_decide_eq_true hstored
  unfold getRetryResend at hfound
  split at hfound
  · cases hfound
  · next record hrec =>
    split at hfound
    · next hvalid =>
      obtain rfl := Option.some.inj (ite_none_left_eq_some.mp (Except.ok.inj hfound)).2
      obtain ⟨hid, -, -, hanswers⟩ := hvalid
      have hmember := (of_decide_eq_true hanswers).symm.trans
        ((congrArg retryFamilyMember hrequest).trans (retryRequestAttempt_eq_ok hattempt))
      obtain ⟨hretryId, -, hnumber⟩ := RetryFamilyMember.mk.inj (Option.some.inj hmember)
      refine ⟨hid ▸ hrec, hmsg, congrArg Prod.snd hid, ?_⟩
      have hdevice : record.recipient = call.recipient := congrArg Prod.fst hid
      unfold RetryResend.retryResendAttemptId answerId
      rw [hdevice, hkind, hretryId, hnumber]
    · cases hfound

theorem safe_resendToDevice (hkept : Kept world) (hkeeps : call.Keeps world) :
    Safe world (call.resendToDevice world.records).effects := by
  unfold ResendCall.resendToDevice
  split
  · exact .nil hkept
  · next attempt hattempt =>
    split
    · exact .nil hkept
    · next found hfound =>
      split
      · next stored hrepeated =>
        obtain ⟨hrec, hmsg, hfailed, hanswer⟩ := of_repeated hattempt hfound hrepeated
        refine safe_repeatStored hkept hmsg fun id hid => ⟨hid, hrec, fun post hmem hpost => ?_⟩
        subst hpost
        have hsame := (hkeeps attempt post hmem hattempt (hanswer.symm.trans hid)).1.trans
          hfailed.symm
        exact ⟨(hkept.fits _ stored hrec hmsg post hmem hid hsame).1, hsame⟩
      · next hnone _ =>
        refine safe_encryptAndPost hkept fun post hmem hid => ?_
        obtain ⟨-, other, hother, hsome⟩ := hkeeps attempt post hmem hattempt hid
        cases hfound.symm.trans hother
        rw [hnone] at hsome
        cases hsome
      · exact .nil hkept

theorem kept_of_reachable (hreach : (answerRuns AnswerStep.Keeps).Reachable world) :
    Kept world := by
  refine hreach.invariant ?_ ?_
  · rintro _ rfl
    exact ⟨⟨forall_mem_nil _, forall_mem_nil _, forall_mem_nil _⟩, nofun, nofun,
      forall_mem_nil _, forall_mem_nil _⟩
  · rintro before after hkept ⟨step, hkeeps, hnext⟩
    cases step with
    | call call crash => exact safe_resendToDevice hkept hkeeps crash after hnext
    | ends record expired crash =>
      refine safe_storeRetryResend hkept (fun pruned next hpruned _ hwrite => ?_) crash after hnext
      cases hwrite
      exact .nil (hpruned.setRecord nofun)

/-- A call for one failed envelope, whose encryption is `message`. -/
def answerTo (attempt message : String) (answer : PostAnswer) : ResendCall where
  recipient := ⟨"bob", 1⟩
  content := some "hello"
  retry := ⟨"01234567-89ab-4def-8123-456789abcdef",
    "01234567-89ab-4def-8123-456789abcdef:retry-request" ++ attempt, "failed", .resend⟩
  now := 0
  encryptResend := fun _ => .ok ⟨0, message⟩
  expired := fun _ => false
  answer

end SignalProtocol.Retry.Answers

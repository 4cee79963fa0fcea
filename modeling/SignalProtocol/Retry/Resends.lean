import SignalProtocol.Library.Transition
import SignalProtocol.Outbox.Intent
import SignalProtocol.Retry.Ledger

/-! # The stored answers to retry requests

The sender keeps one record for a failed envelope and the device that asked: its last encryption,
or the end of its answer. -/

namespace SignalProtocol.Retry.Answers

open Outbox

structure RetryResendTarget where
  retryId : RetryId
  requestEnvelopeId : EnvelopeId
  failedEnvelopeId : EnvelopeId
  kind : MemberKind

structure EncryptedResend where
  operationEpochMilliseconds : ℤ
  /-- The JSON text of the message with its transport mode, authorization and content hint. -/
  message : JsonText

/-- A `StoredRetryResend`, or a `RetryResendTerminal` without a message and with the time of the
end as its epoch. -/
structure RetryResend extends RetryResendTarget where
  recipient : OutgoingGroupDevice
  attempt : ℕ
  operationEpochMilliseconds : ℤ
  message : Option JsonText
  acceptanceUnknown : Bool := false

def retryRequestAttempt (target : RetryResendTarget) : Except String ℕ :=
  match retryFamilyMember target.requestEnvelopeId with
  | some ⟨retryId, .retryRequest, attempt⟩ =>
    if retryId = target.retryId then .ok attempt
    else .error "A retry resend answers a retry request of its retry ID"
  | _ => .error "A retry resend answers a retry request of its retry ID"

/-- The device of an answer with its failed envelope, or with its client message ID. -/
abbrev AnswerId := OutgoingGroupDevice × EnvelopeId

def answerId (recipient : OutgoingGroupDevice) (target : RetryResendTarget) (attempt : ℕ) :
    Except String AnswerId :=
  (RetryFamilyMember.clientMessageId ⟨target.retryId, target.kind, attempt⟩).map (recipient, ·)

namespace RetryResend

variable (record : RetryResend)

def id : AnswerId := (record.recipient, record.failedEnvelopeId)

def retryResendAttemptId : Except String AnswerId :=
  answerId record.recipient record.toRetryResendTarget record.attempt

def answersItsRequestAttempt : Bool :=
  retryFamilyMember record.requestEnvelopeId = some ⟨record.retryId, .retryRequest, record.attempt⟩

end RetryResend

def getRetryResend (records : AnswerId → Option RetryResend) (id : AnswerId) (now : ℤ) :
    Except String (Option RetryResend) :=
  match records id with
  | none => .ok none
  | some record =>
    if record.id = id ∧ isRetryId record.retryId.toList ∧ record.kind ≠ .retryRequest ∧
        record.answersItsRequestAttempt then
      .ok (if record.operationEpochMilliseconds < now - RELIABILITY_RECORD_TTL_MS then none
        else some record)
    else .error "Corrupt retry-resend record"

/-- `held` is RETRY_CONFLICT, or DELIVERY_ALREADY_ACCEPTED under protocol version 2. -/
inductive PostAnswer where
  | accepted
  | held
  | operationExpired
  /-- Another error, or none. The Relay may have the post. -/
  | failed (message : String) (reached : Bool)
  /-- An error before the request. -/
  | unsent (message : String)
  deriving DecidableEq

def PostAnswer.reaches : PostAnswer → Bool
  | .accepted | .failed _ true => true
  | _ => false

/-- What a call does, up to an await at which a crash can end it. -/
inductive Effect where
  /-- The prune of the expired buckets deletes these records. -/
  | prune (expired : AnswerId → Bool)
  | write (record : RetryResend)
  /-- The write of a resend whose acceptance is unknown. -/
  | mark (id : AnswerId) (resend : RetryResend)
  | post (id : AnswerId) (resend : RetryResend) (answer : PostAnswer)

structure Answered where
  effects : List Effect := []
  result : Except String Bool

def Answered.after (effects : List Effect) (rest : Answered) : Answered :=
  { rest with effects := effects ++ rest.effects }

def storeRetryResend (expired : AnswerId → Bool) (record : RetryResend) (write : Effect)
    (rest : Answered) : Answered :=
  match retryRequestAttempt record.toRetryResendTarget with
  | .error message => { result := .error message }
  | .ok attempt =>
    if record.attempt = attempt then rest.after [.prune expired, write]
    else { result := .error "A retry resend carries the attempt number of its request" }

/-- The post of a resend, with what follows an OPERATION_EXPIRED. -/
def post (resend : RetryResend) (answer : PostAnswer) (expired : AnswerId → Answered) :
    Answered :=
  match resend.retryResendAttemptId with
  | .error message => { result := .error message }
  | .ok id =>
    match answer with
    | .accepted | .held => { effects := [.post id resend answer], result := .ok true }
    | .operationExpired => (expired id).after [.post id resend answer]
    | .failed message _ => { effects := [.post id resend answer], result := .error message }
    | .unsent message => { result := .error message }

structure ResendCall where
  recipient : OutgoingGroupDevice
  content : Option String
  retry : RetryResendTarget
  now : ℤ
  encryptResend : String → Except String EncryptedResend
  expired : AnswerId → Bool
  answer : PostAnswer

namespace ResendCall

variable (records : AnswerId → Option RetryResend) (call : ResendCall)

/-- The stored encryption that the call posts again. -/
def repeated (found : Option RetryResend) : Option RetryResend :=
  found.filter fun stored => stored.message.isSome ∧
    stored.requestEnvelopeId = call.retry.requestEnvelopeId ∧ stored.kind = call.retry.kind

def repeatStored (stored : RetryResend) : Answered :=
  if stored.acceptanceUnknown then { result := .ok call.content.isSome }
  else
    post stored call.answer fun id =>
      storeRetryResend call.expired { stored with acceptanceUnknown := true }
        (.mark id { stored with acceptanceUnknown := true }) { result := .ok call.content.isSome }

def encrypted (attempt : ℕ) (encrypted : EncryptedResend) : RetryResend :=
  { call.retry with
    recipient := call.recipient
    attempt
    operationEpochMilliseconds := encrypted.operationEpochMilliseconds
    message := some encrypted.message }

def encryptAndPost (attempt : ℕ) (content : String) : Answered :=
  match call.encryptResend content with
  | .error message => { result := .error message }
  | .ok encrypted =>
    storeRetryResend call.expired (call.encrypted attempt encrypted)
      (.write (call.encrypted attempt encrypted))
      (post (call.encrypted attempt encrypted) call.answer fun _ =>
        { result := .error "OPERATION_EXPIRED" })

def resendToDevice : Answered :=
  match retryRequestAttempt call.retry with
  | .error message => { result := .error message }
  | .ok attempt =>
    match getRetryResend records (call.recipient, call.retry.failedEnvelopeId) call.now with
    | .error message => { result := .error message }
    | .ok found =>
      match call.repeated found, call.content with
      | some stored, _ => call.repeatStored stored
      | none, some content => call.encryptAndPost attempt content
      | none, none => { result := .ok false }

end ResendCall

/-- A post, with whether its ID was marked before, and with what the Relay holds under the ID when
it answers so. -/
structure RelayPost where
  id : AnswerId
  resend : RetryResend
  marked : Bool
  held : Option RetryResend

/-- The store of the sender, its marks and posts, and the posts that the Relay accepted. -/
structure AnswerWorld where
  records : AnswerId → Option RetryResend := fun _ => none
  accepted : List (AnswerId × RetryResend) := []
  marked : List AnswerId := []
  posts : List RelayPost := []

/-- A call that a crash can end after some of its effects, or the end of an answer. -/
inductive AnswerStep where
  | call (call : ResendCall) (crash : ℕ)
  | ends (record : RetryResend) (expired : AnswerId → Bool) (crash : ℕ)

namespace AnswerWorld

variable (world : AnswerWorld)

def setRecord (record : RetryResend) : AnswerWorld :=
  { world with records := Function.update world.records record.id (some record) }

/-- The Relay keeps the first post that it accepts under an ID. -/
def held (id : AnswerId) : Option RetryResend :=
  (world.accepted.find? (·.1 = id)).map Prod.snd

def sent (id : AnswerId) (resend : RetryResend) (answer : PostAnswer) : AnswerWorld :=
  { world with
    accepted := if answer.reaches then world.accepted ++ [(id, resend)] else world.accepted
    posts := world.posts ++ [⟨id, resend, id ∈ world.marked,
      if answer = .held then world.held id else none⟩] }

def apply (world : AnswerWorld) : Effect → Option AnswerWorld
  | .prune expired =>
    some { world with records := fun id => if expired id then none else world.records id }
  | .write record => some (world.setRecord record)
  | .mark id resend => some { world.setRecord resend with marked := id :: world.marked }
  | .post id resend answer =>
    if answer = .held ∧ (world.held id).isNone then none else some (world.sent id resend answer)

def effects : AnswerStep → List Effect
  | .call call crash => (call.resendToDevice world.records).effects.take crash
  | .ends record expired crash =>
    (storeRetryResend expired { record with message := none }
      (.write { record with message := none }) { result := .ok true }).effects.take crash

def next (step : AnswerStep) : Option AnswerWorld := (world.effects step).foldlM apply world

end AnswerWorld

/-- The runs whose steps all meet a condition on the state before. -/
def answerRuns (condition : AnswerWorld → AnswerStep → Prop) : TransitionSystem AnswerWorld where
  init world := world = {}
  step before after := ∃ step, condition before step ∧ before.next step = some after

end SignalProtocol.Retry.Answers

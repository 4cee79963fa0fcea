import Mathlib.Data.List.Sort
import SignalProtocol.Outbox.Intent

/-! # The declared recipient phase of a direct send

The device messages of a direct intent are to one account. -/

namespace SignalProtocol.Outbox

structure DeclaredMessage where
  recipientDeviceId : ℕ
  recipientRegistrationId : Option ℕ
  ciphertext : String
  deriving DecidableEq

/-- The registered devices of the account. A Relay leaves out the own device of the sender, which a
send to the own account has. -/
structure RelayAccount where
  registrations : OrderedMap ℕ ℕ
  own : Option ℕ := none
  own_left_out : ∀ deviceId ∈ registrations.keys, own ≠ some deviceId

inductive DeviceSetRefusal where
  | mismatch (missingDeviceIds extraDeviceIds : List ℕ)
  | stale (staleDeviceIds : List ℕ)

namespace RelayAccount

def answer (account : RelayAccount) (declared : List ℕ) (message : DeclaredMessage) :
    Except DeviceSetRefusal Unit :=
  let missing := account.registrations.keys.filter (· ∉ declared)
  let extra := declared.filter (· ∉ account.registrations.keys)
  if missing ≠ [] ∨ extra ≠ [] then .error (.mismatch missing extra)
  else if message.recipientRegistrationId.any fun named =>
      account.registrations.get? message.recipientDeviceId ≠ some named then
    .error (.stale [message.recipientDeviceId])
  else .ok ⟨⟩

end RelayAccount

structure DeviceSetAccountRepair where
  missingDeviceIds : List ℕ
  extraDeviceIds : List ℕ
  staleDeviceIds : List ℕ

namespace DeviceSetRefusal

def missing : DeviceSetRefusal → List ℕ
  | .mismatch missingDeviceIds _ => missingDeviceIds
  | .stale _ => []

def extra : DeviceSetRefusal → List ℕ
  | .mismatch _ extraDeviceIds => extraDeviceIds
  | .stale _ => []

def staleIds : DeviceSetRefusal → List ℕ
  | .mismatch _ _ => []
  | .stale staleDeviceIds => staleDeviceIds

end DeviceSetRefusal

def refusalOf : Except DeviceSetRefusal Unit → Option DeviceSetRefusal
  | .ok _ => none
  | .error refusal => some refusal

def sorted (deviceIds : List ℕ) : List ℕ := deviceIds.dedup.insertionSort (· ≤ ·)

def mergeDeviceSetRefusals (refusals : List DeviceSetRefusal) : DeviceSetAccountRepair :=
  let extra := refusals.flatMap DeviceSetRefusal.extra
  { missingDeviceIds := sorted ((refusals.flatMap DeviceSetRefusal.missing).filter (· ∉ extra))
    extraDeviceIds := sorted extra
    staleDeviceIds := sorted ((refusals.flatMap DeviceSetRefusal.staleIds).filter (· ∉ extra)) }

structure DeviceSession where
  remoteRegistrationId : Option ℕ
  canSend : Bool

structure LocalDevices where
  sessions : ℕ → Option DeviceSession
  /-- The devices with a record not marked removed. -/
  listed : List ℕ
  pendingVerification : List ℕ := []

namespace LocalDevices

def setSession (devices : LocalDevices) (deviceId : ℕ) (session : Option DeviceSession) :
    LocalDevices :=
  { devices with sessions := Function.update devices.sessions deviceId session }

def removeDevice (devices : LocalDevices) (deviceId : ℕ) : LocalDevices :=
  { devices.setSession deviceId none with listed := devices.listed.filter (· ≠ deviceId) }

def relistDevice (devices : LocalDevices) (deviceId : ℕ) : LocalDevices :=
  if deviceId ∈ devices.listed then devices
  else { devices with listed := devices.listed ++ [deviceId] }

def getRemoteRegistrationId (devices : LocalDevices) (deviceId : ℕ) : Option ℕ :=
  (devices.sessions deviceId).bind DeviceSession.remoteRegistrationId

end LocalDevices

def bundleSession (account : RelayAccount) (deviceId : ℕ) : Option DeviceSession :=
  (account.registrations.get? deviceId).map fun registration => ⟨some registration, true⟩

structure RepairState where
  devices : LocalDevices
  removed : List ℕ := []
  ready : List ℕ := []
  bundleMissing : List ℕ := []

section

variable (account : RelayAccount)

def establishDevice (state : RepairState) (deviceId : ℕ) : RepairState :=
  match state.devices.sessions deviceId with
  | some _ => { state with
      devices := state.devices.relistDevice deviceId
      ready := state.ready ++ [deviceId] }
  | none =>
    match bundleSession account deviceId with
    | some session => { state with
        devices := (state.devices.setSession deviceId (some session)).relistDevice deviceId
        ready := state.ready ++ [deviceId] }
    | none => { state with bundleMissing := state.bundleMissing ++ [deviceId] }

def establish (state : RepairState) (deviceIds : List ℕ) : RepairState :=
  deviceIds.foldl (establishDevice account) state

def removeExtra (state : RepairState) (deviceId : ℕ) : RepairState :=
  { state with
    devices := state.devices.removeDevice deviceId
    removed := state.removed ++ [deviceId] }

/-- The current session already has another registration than the refused post named. -/
def isRefreshed (devices : LocalDevices) (posted : Option ℕ) (deviceId : ℕ) : Bool :=
  posted.isSome ∧ (devices.getRemoteRegistrationId deviceId).isSome ∧
    devices.getRemoteRegistrationId deviceId ≠ posted

def refreshStale (postedRegistration : ℕ → Option ℕ) (state : RepairState) (deviceId : ℕ) :
    RepairState :=
  let left := { state with removed := state.removed ++ [deviceId] }
  if isRefreshed state.devices (postedRegistration deviceId) deviceId then
    { left with ready := left.ready ++ [deviceId] }
  else
    let refreshed := { left with
      devices := left.devices.setSession deviceId (bundleSession account deviceId) }
    if (bundleSession account deviceId).isSome then
      { refreshed with ready := refreshed.ready ++ [deviceId] }
    else establish account refreshed [deviceId]

/-- The devices of an unposted account that lack a bundle leave the send, and each other device of
the account record, else of the Relay, gets a session. -/
def repairUnposted (state : RepairState) : RepairState :=
  if state.bundleMissing = [] then state
  else
    let dropped := state.bundleMissing.foldl removeExtra { state with bundleMissing := [] }
    let held := dropped.devices.listed.filter (account.own ≠ some ·)
    let remaining := held.filter (· ∉ dropped.ready)
    if remaining ≠ [] then establish account dropped remaining
    else if held = [] then
      establish account dropped (account.registrations.keys.filter (account.own ≠ some ·))
    else dropped

def repairRefusedDevices (postedRegistration : ℕ → Option ℕ) (unposted : Bool)
    (devices : LocalDevices) (repair : DeviceSetAccountRepair) : RepairState :=
  let extra := repair.extraDeviceIds.foldl removeExtra { devices := devices }
  let refreshed := repair.staleDeviceIds.foldl (refreshStale account postedRegistration) extra
  let established := establish account refreshed repair.missingDeviceIds
  if unposted then repairUnposted account established else established

end

inductive SendError where
  | pendingVerification (deviceId : ℕ)
  | noActiveSession (deviceId : ℕ)
  | sessionTooOld (deviceId : ℕ)
  | replacesTransmission (deviceId : ℕ)
  | noDeviceToPostTo
  deriving DecidableEq

def sendMessage (encrypt : ℕ → ℕ → String) (restarts : ℕ) (devices : LocalDevices)
    (deviceId : ℕ) : Except SendError DeclaredMessage :=
  if deviceId ∈ devices.pendingVerification then throw (.pendingVerification deviceId)
  else
    match devices.sessions deviceId with
    | none => throw (.noActiveSession deviceId)
    | some session =>
      if session.canSend then
        pure ⟨deviceId, session.remoteRegistrationId, encrypt restarts deviceId⟩
      else throw (.sessionTooOld deviceId)

def appendOutgoingDeviceMessage (messages : List DeclaredMessage) (message : DeclaredMessage) :
    Except SendError (List DeclaredMessage) :=
  match messages.find? (·.recipientDeviceId = message.recipientDeviceId) with
  | some prior =>
    if prior ≠ message then throw (.replacesTransmission message.recipientDeviceId)
    else pure messages
  | none => pure (messages ++ [message])

def repairOutgoingDeviceSet (stored : List DeclaredMessage) (removed : List ℕ)
    (added : List DeclaredMessage) : Except SendError (List DeclaredMessage) :=
  added.foldlM appendOutgoingDeviceMessage
    (stored.filter (·.recipientDeviceId ∉ removed))

def deviceSetRestartsMaximum : ℕ := 10

structure DeclaredIntent where
  deviceMessages : List DeclaredMessage
  nodup : (deviceMessages.map DeclaredMessage.recipientDeviceId).Nodup
  bundleMissing : List ℕ := []
  restarts : ℕ := 0
  accepted : List ℕ := []
  /-- The devices with a stored refusal for good. -/
  refused : List ℕ := []

structure DeclaredSend where
  account : RelayAccount
  settled : List ℕ
  encrypt : ℕ → ℕ → String

structure PhaseState where
  stored : List DeclaredMessage
  unposted : List ℕ
  devices : LocalDevices

inductive PhaseEnd where
  | accepted (posted : List DeclaredMessage) (restarts : ℕ)
  | unresolved
  | failed (error : SendError)
  deriving DecidableEq

namespace DeclaredSend

variable (send : DeclaredSend)

def postable (messages : List DeclaredMessage) : List DeclaredMessage :=
  messages.filter fun message => send.account.own ≠ some message.recipientDeviceId

def posts (messages : List DeclaredMessage) : List DeclaredMessage :=
  messages.filter (·.recipientDeviceId ∉ send.settled)

/-- The refusals of a pass: those of the Relay, or the one of an account with no post. -/
def pass (messages : List DeclaredMessage) (unposted : List ℕ) : List DeviceSetRefusal :=
  let declared := (messages.map DeclaredMessage.recipientDeviceId).insertionSort (· ≤ ·)
  if messages = [] then
    if unposted = [] then [] else [.mismatch unposted []]
  else
    (send.posts messages).filterMap fun message =>
      refusalOf (send.account.answer declared message)

def postedRegistration (messages : List DeclaredMessage) (deviceId : ℕ) : Option ℕ :=
  (messages.find? (·.recipientDeviceId = deviceId)).bind DeclaredMessage.recipientRegistrationId

def repair (state : PhaseState) (restarts : ℕ) (refusals : List DeviceSetRefusal) :
    Except SendError PhaseState := do
  let messages := send.postable state.stored
  let repaired := repairRefusedDevices send.account (postedRegistration messages)
    (messages = []) state.devices (mergeDeviceSetRefusals refusals)
  let added ← repaired.ready.mapM (sendMessage send.encrypt restarts repaired.devices)
  let stored ← repairOutgoingDeviceSet state.stored repaired.removed added
  pure ⟨stored, repaired.bundleMissing, repaired.devices⟩

def runPasses : (left : ℕ) → PhaseState → PhaseEnd
  | left, state =>
    let messages := send.postable state.stored
    if messages = [] ∧ state.unposted = [] ∧ send.account.own = none then
      .failed .noDeviceToPostTo
    else
      match send.pass messages state.unposted with
      | [] => .accepted (send.posts messages) (deviceSetRestartsMaximum - left)
      | refusal :: refusals =>
        match left with
        | 0 => .unresolved
        | left + 1 =>
          match send.repair state (deviceSetRestartsMaximum - left) (refusal :: refusals) with
          | .ok next => runPasses left next
          | .error error => .failed error

end DeclaredSend

def runDeclaredPhase (account : RelayAccount) (encrypt : ℕ → ℕ → String) (intent : DeclaredIntent)
    (devices : LocalDevices) : PhaseEnd :=
  DeclaredSend.runPasses ⟨account, intent.accepted ++ intent.refused, encrypt⟩
    (deviceSetRestartsMaximum - intent.restarts)
    ⟨intent.deviceMessages, intent.bundleMissing, devices⟩

end SignalProtocol.Outbox

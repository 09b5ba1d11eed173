import Mathlib.Logic.Function.Basic
import WittyService.GuardedRuns

/-! Joining a channel by a QR code. A call of `begin`, `poll` or `cancel` runs without
interruption from one `await` to the next. An attempt is named by its place among all, and so is
its state file, whose reference is a digest of the attempt's id. Moments are in microseconds. -/
namespace WittyService

inductive ProvisioningStatus where
  | waiting
  | succeeded
  | expired
  | failed
  | cancelled
  deriving DecidableEq, Repr

def CHANNEL_PROVISIONING_EXPIRED : String := "CHANNEL_PROVISIONING_EXPIRED"
def CHANNEL_PROVISIONING_FAILED : String := "CHANNEL_PROVISIONING_FAILED"

/-- `channel` and `owner_ref`. -/
abbrev ProvisioningKey := String × Option String

/-- A row of `channel_provisionings`. -/
structure Attempt where
  channel : String
  ownerRef : Option String
  agentId : Option String
  status : ProvisioningStatus
  qrContent : Option String
  pollIntervalMs : Nat
  expiresAt : Int
  stateRef : Option Nat
  errorCode : Option String
  deriving DecidableEq, Repr

def Attempt.key (attempt : Attempt) : ProvisioningKey := (attempt.channel, attempt.ownerRef)

/-- The temporary credential of the platform, outside the database. -/
structure StateFile where
  state : List UInt8
  expiresAt : Int
  deriving DecidableEq, Repr

/-- An instance that was created for an attempt; `kept` is off once it was rolled back. -/
structure ProvisionedInstance where
  attempt : Nat
  channel : String
  ownerRef : Option String
  agentId : Option String
  kept : Bool
  deriving DecidableEq, Repr

inductive LockedOp where
  | poll (force : Bool)
  | cancel
  deriving DecidableEq, Repr

/-- Where a call waits: in `begin` for the platform, for the lock of its attempt, under that lock
for the platform or for `_on_instance_ready`. -/
inductive ProvisioningCall where
  | beginning (channel : String) (ownerRef agentId : Option String)
  | queued (id : Nat) (op : LockedOp)
  | polling (id : Nat) (attempt : Attempt)
  | notifying (id : Nat)
  | ended
  deriving DecidableEq, Repr

def ProvisioningCall.holds (id : Nat) : ProvisioningCall → Bool
  | polling i _ | notifying i => i = id
  | beginning .. | queued .. | ended => false

structure ProvisioningSession where
  qrContent : String
  expiresAt : Int
  pollIntervalMs : Nat
  state : List UInt8
  deriving DecidableEq, Repr

/-- How `begin` of the driver ends, and what is stored then. Whether the driver, the file or the
row fails, nothing is left. -/
inductive BeginOutcome where
  | session (session : ProvisioningSession)
  | raises
  deriving DecidableEq, Repr

/-- How `persist_instance_from_credentials` ends: before an instance exists it may refuse, and
afterwards it takes the instance back. -/
inductive Persistence where
  | stored
  | refused (errorCode : Option String)
  | rolledBack (errorCode : Option String)
  deriving DecidableEq, Repr

/-- How `poll` of the driver ends; `raises` is also for a state that cannot be read back, and
`failed` for every other status. -/
inductive ProvisioningOutcome where
  | waiting (state : Option (List UInt8)) (writable : Bool) (qrContent : Option String)
      (expiresAt : Option Int)
  | expired (errorCode : Option String)
  | succeeded (credentials : List (String × String)) (errorCode : Option String)
      (persistence : Persistence)
  | failed (errorCode : Option String)
  | raises
  deriving DecidableEq, Repr

/-- `value or default` of texts. -/
def orText (value : Option String) (default : Option String) : Option String :=
  match value with
  | some text => if text = "" then default else some text
  | none => default

/-- The flow with the rows and files it writes, every instance it created and every call so far. -/
structure ProvisioningFlow where
  now : Int
  attempts : List Attempt
  files : Nat → Option StateFile
  inflight : ProvisioningKey → Option Nat
  lastPollAt : Nat → Option Int
  instances : List ProvisionedInstance
  calls : List ProvisioningCall

inductive ProvisioningAction where
  | tick (elapsed : Nat)
  | restart
  | begin (channel : String) (ownerRef agentId : Option String)
  | began (call : Nat) (outcome : BeginOutcome)
  | locked (id : Nat) (op : LockedOp)
  | lockFree (call : Nat)
  | polled (call : Nat) (outcome : ProvisioningOutcome)
  | notified (call : Nat)
  | cancelCall (call : Nat)

namespace ProvisioningFlow

variable (s : ProvisioningFlow)

def fresh (now : Int) : ProvisioningFlow where
  now := now
  attempts := []
  files _ := none
  inflight _ := none
  lastPollAt _ := none
  instances := []
  calls := []

def Live (attempt : Attempt) : Prop := attempt.status = .waiting ∧ s.now < attempt.expiresAt

instance (attempt : Attempt) : Decidable (s.Live attempt) := inferInstanceAs (Decidable (_ ∧ _))

/-- `find_waiting_provisioning`, with the latest attempt first. -/
def findWaiting (key : ProvisioningKey) : Option Nat :=
  (List.range s.attempts.length).reverse.find? fun id =>
    s.attempts[id]?.any fun attempt => attempt.key = key ∧ s.Live attempt

def addCall (call : ProvisioningCall) : ProvisioningFlow := { s with calls := s.calls ++ [call] }

def setCall (k : Nat) (call : ProvisioningCall) : ProvisioningFlow :=
  { s with calls := s.calls.set k call }

def updateProvisioning (id : Nat) (change : Attempt → Attempt) : ProvisioningFlow :=
  { s with attempts := s.attempts.modify id change }

def clearState (attempt : Attempt) : ProvisioningFlow :=
  match attempt.stateRef with
  | none => s
  | some ref => { s with files := Function.update s.files ref none }

def forget (id : Nat) (attempt : Attempt) : ProvisioningFlow :=
  { s with
    inflight := Function.update s.inflight attempt.key none
    lastPollAt := Function.update s.lastPollAt id none }

def leave (id : Nat) (attempt : Attempt) (change : Attempt → Attempt) : ProvisioningFlow :=
  ((s.updateProvisioning id fun row => { change row with stateRef := none }).clearState
    attempt).forget id attempt

/-- `_find_inflight` after the registration in memory has not helped. -/
def findStored (key : ProvisioningKey) : Option Nat × ProvisioningFlow :=
  match s.findWaiting key with
  | some id => (some id, { s with inflight := Function.update s.inflight key (some id) })
  | none => (none, s)

def findInflight (key : ProvisioningKey) : Option Nat × ProvisioningFlow :=
  match s.inflight key with
  | some id =>
    if s.attempts[id]?.any fun attempt => attempt.status = .waiting then (some id, s)
    else { s with inflight := Function.update s.inflight key none }.findStored key
  | none => s.findStored key

/-- `prune_expired` of the store. -/
def pruneExpired : ProvisioningFlow :=
  { s with files := fun ref => (s.files ref).filter fun file => s.now < file.expiresAt }

/-- `begin` up to its await. -/
def beginCall (channel : String) (ownerRef agentId : Option String) : ProvisioningFlow :=
  match s.findInflight (channel, ownerRef) with
  | (some _, found) => found.addCall .ended
  | (none, found) => found.pruneExpired.addCall (.beginning channel ownerRef agentId)

/-- `begin` after its await: the state goes into its file first and then the row is created. -/
def store (channel : String) (ownerRef agentId : Option String) (session : ProvisioningSession) :
    ProvisioningFlow :=
  let id := s.attempts.length
  { s with
    files := Function.update s.files id (some ⟨session.state, session.expiresAt⟩)
    attempts := s.attempts ++ [⟨channel, ownerRef, agentId, .waiting, some session.qrContent,
      session.pollIntervalMs, session.expiresAt, some id, none⟩]
    inflight := Function.update s.inflight (channel, ownerRef) (some id) }

def throttled (id : Nat) (attempt : Attempt) : Bool :=
  match s.lastPollAt id with
  | some last => 0 < attempt.pollIntervalMs ∧ s.now - last < attempt.pollIntervalMs * 1000
  | none => false

/-- `_poll_locked` of call `k`, up to its await. -/
def pollLocked (k id : Nat) (force : Bool) : ProvisioningFlow :=
  match s.attempts[id]? with
  | none => s.setCall k .ended
  | some attempt =>
    if attempt.status ≠ .waiting then s.setCall k .ended
    else if attempt.expiresAt ≤ s.now then
      (s.leave id attempt fun row =>
        { row with status := .expired, errorCode := some CHANNEL_PROVISIONING_EXPIRED }).setCall
          k .ended
    else if !force && s.throttled id attempt then s.setCall k .ended
    else
      { s with lastPollAt := Function.update s.lastPollAt id (some s.now) }.setCall k
        (.polling id attempt)

def cancelLocked (k id : Nat) : ProvisioningFlow :=
  match s.attempts[id]? with
  | none => s.setCall k .ended
  | some attempt =>
    if attempt.status ≠ .waiting then s.setCall k .ended
    else (s.leave id attempt fun row => { row with status := .cancelled }).setCall k .ended

/-- Call `k` has got the lock. -/
def enter (k id : Nat) : LockedOp → ProvisioningFlow
  | .poll force => s.pollLocked k id force
  | .cancel => s.cancelLocked k id

def isLocked (id : Nat) : Bool := s.calls.any (ProvisioningCall.holds id)

/-- `poll` and `cancel`: they go on at once when nobody has the lock. -/
def lockedCall (id : Nat) (op : LockedOp) : ProvisioningFlow :=
  if s.isLocked id then s.addCall (.queued id op)
  else (s.addCall (.queued id op)).enter s.calls.length id op

def fail (id : Nat) (attempt : Attempt) (errorCode : Option String) : ProvisioningFlow :=
  s.leave id attempt fun row => { row with status := .failed, errorCode := errorCode }

/-- `_rotate_state`; its result is whether the state could be kept. -/
def rotateState (attempt : Attempt) (state : Option (List UInt8)) (writable : Bool)
    (expiresAt : Option Int) : Option ProvisioningFlow :=
  match state, attempt.stateRef with
  | some state, some ref =>
    if writable then
      let file : StateFile := ⟨state, expiresAt.getD attempt.expiresAt⟩
      some { s with files := Function.update s.files ref (some file) }
    else none
  | _, _ => some s

def addInstance (id : Nat) (attempt : Attempt) (kept : Bool) : ProvisioningFlow :=
  { s with
    instances := s.instances ++
      [⟨id, attempt.channel, attempt.ownerRef, attempt.agentId, kept⟩] }

/-- `_finish_succeeded`, up to `_on_instance_ready`. -/
def finishSucceeded (k id : Nat) (attempt : Attempt) : Persistence → ProvisioningFlow
  | .stored =>
    ((s.addInstance id attempt true).leave id attempt fun row =>
      { row with status := .succeeded, errorCode := none }).setCall k (.notifying id)
  | .refused errorCode =>
    (s.fail id attempt (some (errorCode.getD CHANNEL_PROVISIONING_FAILED))).setCall k .ended
  | .rolledBack errorCode =>
    ((s.addInstance id attempt false).fail id attempt
      (some (errorCode.getD CHANNEL_PROVISIONING_FAILED))).setCall k .ended

def applyOutcome (k id : Nat) (attempt : Attempt) : ProvisioningOutcome → ProvisioningFlow
  | .waiting state writable qrContent expiresAt =>
    match s.rotateState attempt state writable expiresAt with
    | none => (s.fail id attempt (some CHANNEL_PROVISIONING_FAILED)).setCall k .ended
    | some rotated =>
      (rotated.updateProvisioning id fun row =>
        { row with
          qrContent := orText qrContent attempt.qrContent
          expiresAt := expiresAt.getD attempt.expiresAt }).setCall k .ended
  | .expired errorCode =>
    (s.leave id attempt fun row =>
      { row with
        status := .expired
        errorCode := orText errorCode (some CHANNEL_PROVISIONING_EXPIRED) }).setCall k .ended
  | .succeeded credentials errorCode persistence =>
    if credentials = [] then
      (s.fail id attempt (orText errorCode (some CHANNEL_PROVISIONING_FAILED))).setCall k .ended
    else s.finishSucceeded k id attempt persistence
  | .failed errorCode =>
    (s.fail id attempt (orText errorCode (some CHANNEL_PROVISIONING_FAILED))).setCall k .ended
  | .raises => (s.fail id attempt (some CHANNEL_PROVISIONING_FAILED)).setCall k .ended

def restarted : ProvisioningFlow :=
  { s with inflight := fun _ => none, lastPollAt := fun _ => none, calls := [] }

end ProvisioningFlow

open ProvisioningFlow in
def provisioningStep (s : ProvisioningFlow) : ProvisioningAction → Option ProvisioningFlow
  | .tick elapsed => some { s with now := s.now + elapsed }
  | .restart => some s.restarted
  | .begin channel ownerRef agentId => some (s.beginCall channel ownerRef agentId)
  | .began k outcome =>
    match s.calls[k]?, outcome with
    | some (.beginning channel ownerRef agentId), .session session =>
      some ((s.store channel ownerRef agentId session).setCall k .ended)
    | some (.beginning ..), .raises => some (s.setCall k .ended)
    | _, _ => none
  | .locked id op => some (s.lockedCall id op)
  | .lockFree k =>
    match s.calls[k]? with
    | some (.queued id op) => if s.isLocked id then none else some (s.enter k id op)
    | _ => none
  | .polled k outcome =>
    match s.calls[k]? with
    | some (.polling id attempt) => some (s.applyOutcome k id attempt outcome)
    | _ => none
  | .notified k =>
    match s.calls[k]? with
    | some (.notifying _) => some (s.setCall k .ended)
    | _ => none
  | .cancelCall k => if k < s.calls.length then some (s.setCall k .ended) else none

end WittyService

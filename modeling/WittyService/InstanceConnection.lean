import Mathlib.Data.List.Basic
import WittyService.GuardedRuns

/-! The connections of one channel instance. The supervisor and the calls of the interface work
on the same supervision state; from one `await` to the next a call runs without interruption. -/
namespace WittyService

/-- A transport from its creation. An unhealthy one is no longer alive for its adapter, though
nobody has closed it. -/
inductive Link where
  | connecting
  | alive
  | unhealthy
  | closed
  deriving DecidableEq, Repr

/-- The supervision state of an instance with its adapter, which holds a transport by its place
among all. -/
structure InstanceSupervision where
  connected : Bool
  started : Bool
  transport : Option Nat
  deriving DecidableEq, Repr

def InstanceSupervision.built : InstanceSupervision := ⟨false, false, none⟩

/-- What follows once a transport is closed: in `start`, `_connect` or there the new transport;
in `connect_instance` the new adapter; the end of `disconnect_instance`, for itself, in
`reconnect_instance` or in `_sync_instances`. -/
inductive AfterClose where
  | connect (state : Nat)
  | openTransport (state : Nat)
  | replace
  | unregister
  | reconnect
  | swept
  deriving DecidableEq, Repr

inductive CallAwait where
  | closing (transport : Nat) (next : AfterClose)
  | connecting (state transport : Nat)
  deriving DecidableEq, Repr

structure Call where
  byTick : Bool
  await : CallAwait
  deriving DecidableEq, Repr

/-- The supervisor while it is busy with other instances: before it removes and builds what the
rows ask for, as it read them, and before it comes to the state it listed for the instance. -/
inductive TickPhase where
  | syncing (present sweep : Bool)
  | visiting (state : Nat)
  deriving DecidableEq, Repr

/-- The row of the instance, whether an adapter can be built from it, all supervision states and
transports there were, the state and the runtime that the gateway and the router have for the
instance, and the calls. `disconnected` is set when `disconnect_instance` returns and taken back
when an adapter is built again. -/
structure InstanceConnection where
  present : Bool
  usable : Bool
  states : List InstanceSupervision
  links : List Link
  current : Option Nat
  router : Option Nat
  tick : Option TickPhase
  calls : List Call
  disconnected : Bool
  deriving DecidableEq, Repr

namespace InstanceConnection

variable (s : InstanceConnection)

def modifyState (k : Nat) (f : InstanceSupervision → InstanceSupervision) : InstanceConnection :=
  { s with states := s.states.modify k f }

def setLink (transport : Nat) (link : Link) : InstanceConnection :=
  { s with links := s.links.set transport link }

def suspend (byTick : Bool) (await : CallAwait) : InstanceConnection :=
  { s with calls := s.calls ++ [⟨byTick, await⟩] }

def transportOf (k : Nat) : Option Nat := s.states[k]?.bind InstanceSupervision.transport

def startedOf (k : Nat) : Bool := s.states[k]?.any InstanceSupervision.started

/-- `is_alive` of the adapter. -/
def isAlive (k : Nat) : Bool :=
  s.startedOf k && (s.transportOf k).any fun transport => s.links[transport]? = some .alive

/-- `_disconnect`, up to its await: the adapter lets go of its transport. -/
def disconnect (byTick : Bool) (k transport : Nat) (next : AfterClose) : InstanceConnection :=
  (s.modifyState k fun state => { state with transport := none }).suspend byTick
    (.closing transport next)

def openTransport (byTick : Bool) (k : Nat) : InstanceConnection :=
  { s with links := s.links ++ [Link.connecting] }.suspend byTick (.connecting k s.links.length)

/-- `_connect`. -/
def connectAdapter (byTick : Bool) (k : Nat) : InstanceConnection :=
  match s.transportOf k with
  | some transport => s.disconnect byTick k transport (.openTransport k)
  | none => s.openTransport byTick k

/-- `_attempt_connect` after `start` has returned. -/
def connectedInstance (k : Nat) : InstanceConnection :=
  { s.modifyState k fun state => { state with connected := true } with router := some k }

/-- The connection is dead: `start` goes on to `_connect`. -/
def restart (byTick : Bool) (k : Nat) : InstanceConnection :=
  (s.modifyState k fun state => { state with started := false }).connectAdapter byTick k

/-- `_attempt_connect` and in it `start`. -/
def attemptConnect (byTick : Bool) (k : Nat) : InstanceConnection :=
  if s.startedOf k then
    if s.isAlive k then s.connectedInstance k
    else
      match s.transportOf k with
      | some transport => s.disconnect byTick k transport (.connect k)
      | none => s.restart byTick k
  else s.connectAdapter byTick k

/-- `_build`, and its state for the instance. -/
def build : InstanceConnection :=
  if s.usable then
    { s with
      states := s.states ++ [.built]
      current := some s.states.length
      disconnected := false }
  else s

/-- `connect_instance` after the old adapter is stopped. -/
def replace : InstanceConnection :=
  let built := { s with current := none }.build
  match built.current with
  | some k => built.attemptConnect false k
  | none => built

/-- `_stop_adapter` of an adapter that is alive, up to its await. -/
def stopAdapter (byTick : Bool) (k transport : Nat) (next : AfterClose) : InstanceConnection :=
  (s.modifyState k fun state => { state with connected := false, started := false }).disconnect
    byTick k transport next

/-- The transport that `_stop_adapter` closes: it skips an adapter that is not alive. -/
def stopped? (k : Nat) : Option Nat := if s.isAlive k then s.transportOf k else none

def connectInstance : InstanceConnection :=
  if s.present then
    match s.current with
    | none => s.replace
    | some k =>
      if s.isAlive k && s.states[k]?.any InstanceSupervision.connected then s
      else
        match s.stopped? k with
        | some transport => s.stopAdapter false k transport .replace
        | none => s.replace
  else s

/-- The end of `disconnect_instance`. -/
def afterDisconnect : AfterClose → InstanceConnection
  | .reconnect => { s with disconnected := true }.connectInstance
  | .swept => { s with disconnected := true, tick := some (.syncing false false) }
  | _ => { s with disconnected := true }

def disconnectInstance (byTick : Bool) (next : AfterClose) : InstanceConnection :=
  let popped := { s with current := none }
  match s.current with
  | none => popped.afterDisconnect next
  | some k =>
    match s.stopped? k with
    | some transport => popped.stopAdapter byTick k transport next
    | none => { popped with router := none }.afterDisconnect next

def closed (byTick : Bool) : AfterClose → InstanceConnection
  | .connect k => s.restart byTick k
  | .openTransport k => s.openTransport byTick k
  | .replace => s.replace
  | next => { s with router := none }.afterDisconnect next

/-- The transport of `start` is connected, or has failed and closed itself. -/
def connectEnds (k transport : Nat) (success : Bool) : InstanceConnection :=
  if success then
    ((s.setLink transport .alive).modifyState k fun state =>
      { state with transport := some transport, started := true }).connectedInstance k
  else (s.setLink transport .closed).modifyState k fun state => { state with connected := false }

/-- `_sync_instances` for the instance, and the list of the states that the tick visits. -/
def syncInstances (present sweep : Bool) : InstanceConnection :=
  if sweep then { s with tick := none }.disconnectInstance true .swept
  else
    let synced := if present && s.current.isNone then s.build else s
    { synced with tick := synced.current.map .visiting }

def visit (k : Nat) : InstanceConnection :=
  let s := { s with tick := none }
  if s.isAlive k then s.modifyState k fun state => { state with connected := true }
  else s.attemptConnect true k

end InstanceConnection

/-- The row and what can be built from it change, a transport falters or its peer closes it; the
supervisor begins a tick, goes on with it, or skips the state because its backoff is not over;
the interface calls; a transport is closed, or the attempt to connect it ends. -/
inductive ConnectionAction where
  | setPresent (present : Bool)
  | setUsable (usable : Bool)
  | falter (transport : Nat)
  | peerCloses (transport : Nat)
  | tick
  | tickGoesOn
  | tickSkips
  | connect
  | disconnect
  | reconnect
  | closed (call : Nat)
  | connectEnds (call : Nat) (success : Bool)
  deriving DecidableEq, Repr

open InstanceConnection in
def connectionStep (s : InstanceConnection) : ConnectionAction → Option InstanceConnection
  | .setPresent present => some { s with present := present }
  | .setUsable usable => some { s with usable := usable }
  | .falter transport =>
    if s.links[transport]? = some .alive then some (s.setLink transport .unhealthy) else none
  | .peerCloses transport =>
    if s.links[transport]? = some .alive ∨ s.links[transport]? = some .unhealthy then
      some (s.setLink transport .closed)
    else none
  | .tick =>
    if s.tick.isNone && s.calls.all (!·.byTick) then
      some { s with tick := some (.syncing s.present (s.current.isSome && !s.present)) }
    else none
  | .tickGoesOn =>
    s.tick.map fun
      | .syncing present sweep => s.syncInstances present sweep
      | .visiting k => s.visit k
  | .tickSkips =>
    match s.tick with
    | some (.visiting k) => if s.isAlive k then none else some { s with tick := none }
    | _ => none
  | .connect => some s.connectInstance
  | .disconnect => some (s.disconnectInstance false .unregister)
  | .reconnect => some (s.disconnectInstance false .reconnect)
  | .closed call =>
    match s.calls[call]? with
    | some ⟨byTick, .closing transport next⟩ =>
      some (({ s with calls := s.calls.eraseIdx call }.setLink transport .closed).closed
        byTick next)
    | _ => none
  | .connectEnds call success =>
    match s.calls[call]? with
    | some ⟨_, .connecting k transport⟩ =>
      some ({ s with calls := s.calls.eraseIdx call }.connectEnds k transport success)
    | _ => none

def InstanceConnection.fresh (present usable : Bool) : InstanceConnection where
  present := present
  usable := usable
  states := []
  links := []
  current := none
  router := none
  tick := none
  calls := []
  disconnected := false

end WittyService

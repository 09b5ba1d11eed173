import Mathlib.Logic.Function.Basic

/-! The WebSocket connections of one session: the pool entry of its key, the clients that were
ever registered there, and the turns and aborts that use them. An action is what one task does
between two suspension points. A turn may be any of the three message operations, which all
prepare, read and close in the same way; what else they await only delays their actions. No
task is cancelled, and a `close` of the `websockets` library does not raise. -/
namespace WittyService

/-- `websockets.State`; a number that has not been given out yet counts as closed. -/
inductive ConnectionState where
  | opened
  | closing
  | closed
  deriving DecidableEq, Repr

/-- `WebSocketClient`: its `_ws` and `_connected` fields. -/
structure WebSocketClient where
  ws : Option Nat
  connected : Bool
  deriving DecidableEq, Repr

def WebSocketClient.new : WebSocketClient := ⟨none, false⟩

/-- Where a turn stands. `connecting` and `sending` are suspended inside
`_prepare_ws_message_client`, `prepared` has its client and has not begun to read,
`receiving` reads the connection it found there, `closing` awaits the close. -/
inductive SocketPhase where
  | idle
  | connecting (client : Nat)
  | sending (client conn : Nat)
  | prepared (client conn : Nat)
  | receiving (client conn : Nat)
  | closing (client conn : Nat)
  | over
  deriving DecidableEq, Repr

namespace SocketPhase

def InProgress (p : SocketPhase) : Prop := p ≠ .idle ∧ p ≠ .over

def client : SocketPhase → Option Nat
  | .connecting cl | .sending cl _ | .prepared cl _ | .receiving cl _ | .closing cl _ => some cl
  | .idle | .over => none

def held : SocketPhase → Option (Nat × Nat)
  | .sending cl c | .prepared cl c | .receiving cl c | .closing cl c => some (cl, c)
  | .idle | .connecting _ | .over => none

def reads : SocketPhase → Bool
  | .sending _ _ | .prepared _ _ | .receiving _ _ => true
  | .idle | .connecting _ | .closing _ _ | .over => false

end SocketPhase

/-- `aborts a` is the client and the connection that the abort `a` waits to see closed.
`senders` and `consumed` are no data of the program: the turns whose `message.create` went out
on a connection, and every frame with its connection and the turn that took it. -/
structure SessionSockets where
  pool : Option Nat
  clients : Nat → WebSocketClient
  clientCount : Nat
  conns : Nat → ConnectionState
  connCount : Nat
  turns : Nat → SocketPhase
  aborts : Nat → Option (Nat × Nat)
  senders : Nat → List Nat
  consumed : List (Nat × Nat)

inductive SocketAction where
  | prepare (t : Nat)
  | connected (t : Nat)
  | connectFails (t : Nat)
  | sent (t : Nat)
  | sendFails (t : Nat)
  | recv (t : Nat)
  | frame (t : Nat)
  | finish (t : Nat) (connectionClosed : Bool)
  | closed (t : Nat)
  | abort (a : Nat)
  | abortClosed (a : Nat)
  | peerCloses (c : Nat)
  deriving DecidableEq, Repr

namespace SessionSockets

def new : SessionSockets :=
  ⟨none, fun _ => .new, 0, fun _ => .closed, 0, fun _ => .idle, fun _ => none, fun _ => [], []⟩

def setTurn (s : SessionSockets) (t : Nat) (p : SocketPhase) : SessionSockets :=
  { s with turns := Function.update s.turns t p }

def setClient (s : SessionSockets) (cl : Nat) (client : WebSocketClient) : SessionSockets :=
  { s with clients := Function.update s.clients cl client }

def setConn (s : SessionSockets) (c : Nat) (state : ConnectionState) : SessionSockets :=
  { s with conns := Function.update s.conns c state }

def setAbort (s : SessionSockets) (a : Nat) (waits : Option (Nat × Nat)) : SessionSockets :=
  { s with aborts := Function.update s.aborts a waits }

def getClient (s : SessionSockets) : SessionSockets × Nat :=
  match s.pool with
  | some cl => (s, cl)
  | none => ({ s.setClient s.clientCount .new with
      pool := some s.clientCount
      clientCount := s.clientCount + 1 }, s.clientCount)

/-- `WebSocketClientPool.remove_client` for the key of this session. -/
def removeClient (s : SessionSockets) : SessionSockets := { s with pool := none }

/-- `WebSocketClient.send` up to its suspension; it raises when there is nothing to send on,
and then the turn is over with nothing closed. -/
def send (s : SessionSockets) (t cl : Nat) : SessionSockets :=
  match s.clients cl with
  | ⟨some c, true⟩ => s.setTurn t (.sending cl c)
  | _ => s.setTurn t .over

/-- `_prepare_ws_message_client` up to its first suspension. -/
def prepareWsMessageClient (s : SessionSockets) (t : Nat) : SessionSockets :=
  let (s', cl) := s.getClient
  if (s'.clients cl).connected then s'.send t cl else s'.setTurn t (.connecting cl)

/-- `WebSocketClient.connect` after `websockets.connect` has returned the connection. -/
def connect (s : SessionSockets) (cl : Nat) : SessionSockets :=
  { (s.setClient cl ⟨some s.connCount, true⟩).setConn s.connCount .opened with
    connCount := s.connCount + 1 }

/-- `WebSocketClient.disconnect` of a client whose `_ws` is `c`, up to its suspension. -/
def disconnect (s : SessionSockets) (cl c : Nat) : SessionSockets :=
  let s' := s.setClient cl { s.clients cl with connected := false }
  if s.conns c = .opened then s'.setConn c .closing else s'

/-- The rest of `disconnect` and of `_close_ws_message_client`. -/
def disconnected (s : SessionSockets) (cl c : Nat) : SessionSockets :=
  ((s.setConn c .closed).setClient cl { s.clients cl with ws := none }).removeClient

/-- `_close_ws_message_client` at the end of turn `t`. -/
def closeWsMessageClient (s : SessionSockets) (t cl : Nat) : SessionSockets :=
  match (s.clients cl).ws with
  | some c => (s.disconnect cl c).setTurn t (.closing cl c)
  | none => s.removeClient.setTurn t .over

/-- `abort_session` from `_get_active_ws_client` on. -/
def abortSession (s : SessionSockets) (a : Nat) : SessionSockets :=
  let (s', cl) := s.getClient
  match s'.clients cl with
  | ⟨_, false⟩ => s'
  | ⟨some c, true⟩ => (s'.disconnect cl c).setAbort a (some (cl, c))
  | ⟨none, true⟩ => s'.removeClient

end SessionSockets

def socketStep (s : SessionSockets) : SocketAction → Option SessionSockets
  | .prepare t =>
    match s.turns t with
    | .idle => some (s.prepareWsMessageClient t)
    | _ => none
  | .connected t =>
    -- `send` follows without a suspension and finds the connection just made
    match s.turns t with
    | .connecting cl => some ((s.connect cl).send t cl)
    | _ => none
  | .connectFails t =>
    match s.turns t with
    | .connecting _ => some (s.setTurn t .over)
    | _ => none
  | .sent t =>
    match s.turns t with
    | .sending cl c =>
      if s.conns c = .closed then none
      else some { s.setTurn t (.prepared cl c) with
        senders := Function.update s.senders c (s.senders c ++ [t]) }
    | _ => none
  | .sendFails t =>
    -- the library raises on a connection that is not open any more
    match s.turns t with
    | .sending _ c => if s.conns c = .opened then none else some (s.setTurn t .over)
    | _ => none
  | .recv t =>
    match s.turns t with
    | .prepared cl _ =>
      match s.clients cl with
      | ⟨some c, true⟩ => some (s.setTurn t (.receiving cl c))
      | _ => some (s.closeWsMessageClient t cl)
    | _ => none
  | .frame t =>
    match s.turns t with
    | .receiving _ c => some { s with consumed := s.consumed ++ [(c, t)] }
    | _ => none
  | .finish t connectionClosed =>
    -- the terminal event, the end of the iteration or an exception; `recv` resets the flag
    -- when it sees `ConnectionClosed`
    match s.turns t with
    | .receiving cl _ =>
      if connectionClosed then
        some ((s.setClient cl { s.clients cl with connected := false }).closeWsMessageClient t cl)
      else some (s.closeWsMessageClient t cl)
    | _ => none
  | .closed t =>
    match s.turns t with
    | .closing cl c => some ((s.disconnected cl c).setTurn t .over)
    | _ => none
  | .abort a =>
    match s.aborts a with
    | none => some (s.abortSession a)
    | some _ => none
  | .abortClosed a =>
    match s.aborts a with
    | some (cl, c) => some ((s.disconnected cl c).setAbort a none)
    | none => none
  | .peerCloses c => if c < s.connCount then some (s.setConn c .closed) else none

/-- What an enabled action finds and what it leaves, one case per outcome. -/
inductive SocketMove (s : SessionSockets) : SocketAction → SessionSockets → Prop where
  | share {t : Nat} (h : s.turns t = .idle) (hc : (s.getClient.1.clients s.getClient.2).connected) :
    SocketMove s (.prepare t) (s.getClient.1.send t s.getClient.2)
  | prepare {t : Nat} (h : s.turns t = .idle)
      (hc : (s.getClient.1.clients s.getClient.2).connected = false) :
    SocketMove s (.prepare t) (s.getClient.1.setTurn t (.connecting s.getClient.2))
  | connected {t cl : Nat} (h : s.turns t = .connecting cl) :
    SocketMove s (.connected t) ((s.connect cl).setTurn t (.sending cl s.connCount))
  | connectFails {t cl : Nat} (h : s.turns t = .connecting cl) :
    SocketMove s (.connectFails t) (s.setTurn t .over)
  | sent {t cl c : Nat} (h : s.turns t = .sending cl c) :
    SocketMove s (.sent t) { s.setTurn t (.prepared cl c) with
      senders := Function.update s.senders c (s.senders c ++ [t]) }
  | sendFails {t cl c : Nat} (h : s.turns t = .sending cl c) (ho : s.conns c ≠ .opened) :
    SocketMove s (.sendFails t) (s.setTurn t .over)
  | recv {t cl c c' : Nat} (h : s.turns t = .prepared cl c) (hw : (s.clients cl).ws = some c') :
    SocketMove s (.recv t) (s.setTurn t (.receiving cl c'))
  | recvFails {t cl c : Nat} (h : s.turns t = .prepared cl c) :
    SocketMove s (.recv t) (s.closeWsMessageClient t cl)
  | frame {t cl c : Nat} (h : s.turns t = .receiving cl c) :
    SocketMove s (.frame t) { s with consumed := s.consumed ++ [(c, t)] }
  | finish {t cl c : Nat} (h : s.turns t = .receiving cl c) (connected : Bool)
      (hc : connected → (s.clients cl).connected) (lost : Bool) :
    SocketMove s (.finish t lost)
      ((s.setClient cl { s.clients cl with connected := connected }).closeWsMessageClient t cl)
  | closed {t cl c : Nat} (h : s.turns t = .closing cl c) :
    SocketMove s (.closed t) ((s.disconnected cl c).setTurn t .over)
  | abortNothing {a : Nat} (h : s.aborts a = none)
      (hc : (s.getClient.1.clients s.getClient.2).connected = false) :
    SocketMove s (.abort a) s.getClient.1
  | abort {a c : Nat} (h : s.aborts a = none)
      (hc : s.getClient.1.clients s.getClient.2 = ⟨some c, true⟩) :
    SocketMove s (.abort a)
      ((s.getClient.1.disconnect s.getClient.2 c).setAbort a (some (s.getClient.2, c)))
  | abortRemoves {a : Nat} (h : s.aborts a = none)
      (hc : s.getClient.1.clients s.getClient.2 = ⟨none, true⟩) :
    SocketMove s (.abort a) s.getClient.1.removeClient
  | abortClosed {a cl c : Nat} (h : s.aborts a = some (cl, c)) :
    SocketMove s (.abortClosed a) ((s.disconnected cl c).setAbort a none)
  | peerCloses {c : Nat} :
    SocketMove s (.peerCloses c) (s.setConn c .closed)

namespace SessionSockets

section

variable (s : SessionSockets)

@[simp] theorem setClient_self (cl : Nat) :
    s.setClient cl (s.clients cl) = s := by
  simp [setClient]

theorem connect_send (t cl : Nat) :
    (s.connect cl).send t cl = (s.connect cl).setTurn t (.sending cl s.connCount) := by
  simp [send, connect, setClient, setConn]

@[simp] theorem getClient_turns : s.getClient.1.turns = s.turns := by
  unfold getClient
  split <;> rfl

@[simp] theorem getClient_aborts : s.getClient.1.aborts = s.aborts := by
  unfold getClient
  split <;> rfl

@[simp] theorem getClient_conns : s.getClient.1.conns = s.conns := by
  unfold getClient
  split <;> rfl

end

theorem getClient_pool {s : SessionSockets} {cl : Nat} (h : s.pool = some cl) :
    s.getClient.1.pool = some cl := by
  simp [getClient, h]

section Disconnect

variable (s : SessionSockets) (cl c : Nat)

@[simp] theorem disconnect_pool : (s.disconnect cl c).pool = s.pool := by
  unfold disconnect
  split <;> rfl

@[simp] theorem disconnect_clientCount : (s.disconnect cl c).clientCount = s.clientCount := by
  unfold disconnect
  split <;> rfl

@[simp] theorem disconnect_connCount : (s.disconnect cl c).connCount = s.connCount := by
  unfold disconnect
  split <;> rfl

@[simp] theorem disconnect_turns : (s.disconnect cl c).turns = s.turns := by
  unfold disconnect
  split <;> rfl

@[simp] theorem disconnect_aborts : (s.disconnect cl c).aborts = s.aborts := by
  unfold disconnect
  split <;> rfl

@[simp] theorem disconnect_senders : (s.disconnect cl c).senders = s.senders := by
  unfold disconnect
  split <;> rfl

@[simp] theorem disconnect_consumed : (s.disconnect cl c).consumed = s.consumed := by
  unfold disconnect
  split <;> rfl

theorem disconnect_clients : (s.disconnect cl c).clients =
    (s.setClient cl { s.clients cl with connected := false }).clients := by
  unfold disconnect
  split <;> rfl

@[simp] theorem disconnect_ws (cl' : Nat) :
    ((s.disconnect cl c).clients cl').ws = (s.clients cl').ws := by
  rw [disconnect_clients]
  by_cases h : cl' = cl
  · simp [setClient, h]
  · simp [setClient, Function.update_of_ne h]

theorem connected_of_disconnect {cl' : Nat} (h : ((s.disconnect cl c).clients cl').connected) :
    (s.clients cl').connected ∧ cl' ≠ cl := by
  rw [disconnect_clients] at h
  by_cases heq : cl' = cl
  · simp [setClient, heq] at h
  · exact ⟨by simpa [setClient, Function.update_of_ne heq] using h, heq⟩

theorem disconnect_conns (c' : Nat) :
    (s.disconnect cl c).conns c' = s.conns c' ∧ (c' = c → s.conns c ≠ .opened) ∨
      c' = c ∧ s.conns c = .opened ∧ (s.disconnect cl c).conns c' = .closing := by
  unfold disconnect
  split
  · rename_i hopen
    by_cases h : c' = c
    · exact .inr ⟨h, hopen, by simp [setConn, h]⟩
    · exact .inl ⟨by simp [setConn, setClient, Function.update_of_ne h], fun heq => absurd heq h⟩
  · rename_i hopen
    exact .inl ⟨rfl, fun _ => hopen⟩

end Disconnect

end SessionSockets

theorem socket_move_of_step {s s' : SessionSockets} {a : SocketAction}
    (h : socketStep s a = some s') : SocketMove s a s' := by
  cases a with
  | prepare t =>
    simp only [socketStep] at h
    split at h <;> cases h
    rename_i hidle
    simp only [SessionSockets.prepareWsMessageClient]
    cases hc : (s.getClient.1.clients s.getClient.2).connected with
    | true => exact .share hidle hc
    | false => exact .prepare hidle hc
  | connected t =>
    simp only [socketStep] at h
    split at h <;> cases h
    rename_i cl hconnecting
    rw [SessionSockets.connect_send]
    exact .connected hconnecting
  | connectFails t =>
    simp only [socketStep] at h
    split at h <;> cases h
    rename_i cl hconnecting
    exact .connectFails hconnecting
  | sent t =>
    simp only [socketStep] at h
    split at h
    · rename_i cl c hsending
      split at h <;> cases h
      exact .sent hsending
    · cases h
  | sendFails t =>
    simp only [socketStep] at h
    split at h
    · rename_i cl c hsending
      split at h <;> cases h
      rename_i hopen
      exact .sendFails hsending hopen
    · cases h
  | recv t =>
    simp only [socketStep] at h
    split at h
    · rename_i cl c hprepared
      split at h <;> cases h
      · rename_i c' hclient
        exact .recv hprepared (by rw [hclient])
      · exact .recvFails hprepared
    · cases h
  | frame t =>
    simp only [socketStep] at h
    split at h <;> cases h
    rename_i cl c hreceiving
    exact .frame hreceiving
  | finish t lost =>
    simp only [socketStep] at h
    split at h
    · rename_i cl c hreceiving
      cases lost with
      | true =>
        cases h
        exact .finish hreceiving false (by simp) true
      | false =>
        cases h
        have hmove := SocketMove.finish hreceiving (s.clients cl).connected id false
        rwa [SessionSockets.setClient_self] at hmove
    · cases h
  | closed t =>
    simp only [socketStep] at h
    split at h <;> cases h
    rename_i cl c hclosing
    exact .closed hclosing
  | abort a =>
    simp only [socketStep] at h
    split at h <;> cases h
    rename_i hfree
    simp only [SessionSockets.abortSession]
    split
    · rename_i ws hc
      exact .abortNothing hfree (by rw [hc])
    · rename_i c hc
      exact .abort hfree hc
    · rename_i hc
      exact .abortRemoves hfree hc
  | abortClosed a =>
    simp only [socketStep] at h
    split at h <;> cases h
    rename_i cl c hwaits
    exact .abortClosed hwaits
  | peerCloses c =>
    simp only [socketStep] at h
    split at h <;> cases h
    exact .peerCloses

end WittyService

import WittyService.GuardedRuns
import WittyService.OrderedDict

/-! The docker backend of the sandboxes: `start`, `stop` and `cleanup`, with what it keeps in
memory and a daemon that may fail to answer. Of a container the id, the name, whether it runs and
its host port are kept. -/
namespace WittyService.Docker

structure Container where
  id : ℕ
  name : String
  running : Bool
  port : ℕ
  deriving DecidableEq, Repr

/-- The containers that an answer has shown running, with their names, are kept for the
statements only. -/
structure Daemon where
  containers : List Container := []
  nextId : ℕ := 0
  seen : List (String × ℕ) := []
  deriving DecidableEq, Repr

inductive Reply where
  | answered
  | apiError
  | connectionError
  deriving DecidableEq, Repr

/-- One call to the daemon: the containers that exit before it, how it ends, and the host port
of a container it creates. `NotFound` is an answer. -/
structure Attempt where
  exited : List ℕ := []
  reply : Reply := .answered
  port : ℕ := 0
  deriving DecidableEq, Repr

structure ContainerObject where
  id : ℕ
  running : Bool
  port : Option ℕ
  deriving DecidableEq, Repr

structure SandboxHandle where
  sandboxId : ℕ
  agentId : String
  workspacePath : String
  containerId : ℕ
  hostPort : ℕ
  reconnected : Bool := false
  deriving DecidableEq, Repr

inductive Failure where
  | notFound
  | apiError
  | connectionError
  | sandboxStartFailed (message : String)
  | sandboxStopFailed (message : String)
  | sandboxNotFound (sandboxId : ℕ)
  deriving DecidableEq, Repr

/-- The daemon and the memory of the service. What a call meets is told by `script`; where it
ends, every call is answered. -/
structure System where
  daemon : Daemon := {}
  script : List Attempt := []
  handles : OrderedDict ℕ SandboxHandle := .empty
  containers : OrderedDict ℕ ContainerObject := .empty
  nextSandbox : ℕ := 0

abbrev DockerM := ExceptT Failure (StateM System)

namespace Daemon

def exit (d : Daemon) (ids : List ℕ) : Daemon :=
  { d with containers := d.containers.map fun c =>
      if c.id ∈ ids then { c with running := false } else c }

def named (d : Daemon) (name : String) : Option Container :=
  d.containers.find? fun c => c.name = name

def withId (d : Daemon) (id : ℕ) : Option Container := d.containers.find? fun c => c.id = id

end Daemon

def Container.show (c : Container) : ContainerObject :=
  ⟨c.id, c.running, if c.running then some c.port else none⟩

def fetch {α : Type} (answer : Attempt → System → Except Failure α × System) : DockerM α :=
  fun s =>
    let attempt := s.script.headD {}
    let s := { s with daemon := s.daemon.exit attempt.exited, script := s.script.tail }
    match attempt.reply with
    | .answered => answer attempt s
    | .apiError => (.error .apiError, s)
    | .connectionError => (.error .connectionError, s)

def containersGet (name : String) : DockerM ContainerObject := fetch fun _ s =>
  match s.daemon.named name with
  | some c => (.ok c.show, s)
  | none => (.error .notFound, s)

/-- `containers.run` with `detach`; a name that is taken is a conflict. The object is the one of
the container before it was started, so that it has no port yet. -/
def containersRun (name : String) : DockerM ContainerObject := fetch fun attempt s =>
  match s.daemon.named name with
  | some _ => (.error .apiError, s)
  | none =>
    let c : Container := ⟨s.daemon.nextId, name, true, attempt.port⟩
    let daemon : Daemon :=
      ⟨s.daemon.containers ++ [c], s.daemon.nextId + 1, s.daemon.seen ++ [(name, c.id)]⟩
    (.ok ⟨c.id, false, none⟩, { s with daemon })

def reload (container : ContainerObject) : DockerM ContainerObject := fetch fun _ s =>
  match s.daemon.withId container.id with
  | some c =>
    let seen := if c.running then s.daemon.seen ++ [(c.name, c.id)] else s.daemon.seen
    (.ok c.show, { s with daemon := { s.daemon with seen } })
  | none => (.error .notFound, s)

def containerStop (id : ℕ) : DockerM Unit := fetch fun _ s =>
  match s.daemon.withId id with
  | some _ => (.ok (), { s with daemon := s.daemon.exit [id] })
  | none => (.error .notFound, s)

/-- `container.remove` with `force`. -/
def containerRemove (id : ℕ) : DockerM Unit := fetch fun _ s =>
  match s.daemon.withId id with
  | some _ =>
    let containers := s.daemon.containers.filter fun c => c.id ≠ id
    (.ok (), { s with daemon := { s.daemon with containers } })
  | none => (.error .notFound, s)

/-- `except` and `contextlib.suppress`. -/
def suppress {α : Type} (caught : Failure → Bool) (fallback : α) (x : DockerM α) : DockerM α :=
  tryCatch x fun error => if caught error then pure fallback else throw error

/-- `except` with the error kept. -/
def caughtError (x : DockerM Unit) : DockerM (Option Failure) :=
  tryCatch (do x; return none) fun error =>
    match error with
    | .notFound => return none
    | error => return some error

def Failure.isRetried (error : Failure) : Bool := error = .apiError ∨ error = .connectionError

def Failure.isDockerError (error : Failure) : Bool := error = .notFound ∨ error.isRetried

/-- The attempts of `_with_retry` when `n` more may follow the next one. -/
def retryLoop {α : Type} (operation : DockerM α) : ℕ → DockerM α
  | 0 => operation
  | n + 1 => tryCatch operation fun error =>
      if error.isRetried then retryLoop operation n else throw error

/-- `_with_retry` with its three attempts. -/
def withRetry {α : Type} (operation : DockerM α) : DockerM α := retryLoop operation 2

def CONTAINER_NAME_PREFIX : String := "witty-sandbox-"

def containerName (agentId : String) : String := CONTAINER_NAME_PREFIX ++ agentId

def System.findHandleByAgentId (s : System) (agentId : String) : Option SandboxHandle :=
  (s.handles.entries.find? fun entry => entry.2.agentId = agentId).map Prod.snd

def tryFindContainer (name : String) : DockerM (Option ContainerObject) := do
  let found ← suppress (· = .notFound) none (some <$> withRetry (containersGet name))
  match found with
  | none => return none
  | some container =>
    let reloaded ← suppress Failure.isDockerError none (some <$> withRetry (reload container))
    match reloaded with
    | none => return none
    | some container =>
      if container.running then return some container
      -- what has exited is removed, so that its name is free again
      suppress (fun error => error = .notFound ∨ error = .apiError) ()
        (containerRemove container.id)
      return none

def tryFindContainerByName (agentId : String) : DockerM (Option ContainerObject) :=
  suppress (fun error => error = .notFound ∨ error = .apiError) none
    (some <$> withRetry (containersGet (containerName agentId)))

def noHostPort : Failure := .sandboxStartFailed "Failed to extract host port from container."

/-- `_extract_host_port`, with the object that it may have reloaded. -/
def extractHostPort (container : ContainerObject) : DockerM (ContainerObject × ℕ) :=
  match container.port with
  | some port => return (container, port)
  | none => do
    let reloaded ← suppress Failure.isDockerError none (some <$> withRetry (reload container))
    match reloaded with
    | none => throw noHostPort
    | some container =>
      match container.port with
      | some port => return (container, port)
      | none => throw noHostPort

/-- `_build_handle_from_container`; sandbox ids are never given twice. -/
def buildHandleFromContainer (container : ContainerObject) (agentId workspacePath : String) :
    DockerM SandboxHandle := do
  let (container, hostPort) ← extractHostPort container
  let s ← get
  let handle : SandboxHandle :=
    ⟨s.nextSandbox, agentId, workspacePath, container.id, hostPort, false⟩
  set { s with
    handles := s.handles.set handle.sandboxId handle
    containers := s.containers.set handle.sandboxId container
    nextSandbox := s.nextSandbox + 1 }
  return handle

structure StartRequest where
  agentId : String
  workspacePath : String
  imageTag : Option String
  deriving DecidableEq, Repr

/-- `start`; `validate` is `_validate_workspace_path`. -/
def start (validate : String → Except String String) (request : StartRequest) :
    DockerM SandboxHandle := do
  match validate request.workspacePath with
  | .error message => throw (.sandboxStartFailed message)
  | .ok workspacePath =>
    match (← get).findHandleByAgentId request.agentId with
    | some handle => return handle
    | none =>
      let name := containerName request.agentId
      match ← tryFindContainer name with
      | some container =>
        -- a container that an earlier service has left running
        let handle ← buildHandleFromContainer container request.agentId workspacePath
        let handle := { handle with reconnected := true }
        modify fun s => { s with handles := s.handles.set handle.sandboxId handle }
        return handle
      | none =>
        match request.imageTag with
        | none | some "" => throw (.sandboxStartFailed "Docker sandbox requires 'image_tag' kwarg.")
        | some _ =>
          let container ← tryCatch (containersRun name) fun _ =>
            throw (.sandboxStartFailed "Failed to start docker sandbox.")
          buildHandleFromContainer container request.agentId workspacePath

inductive HandleRef where
  | object (handle : SandboxHandle)
  | id (sandboxId : ℕ)
  deriving DecidableEq, Repr

def HandleRef.sandboxId : HandleRef → ℕ
  | .object handle => handle.sandboxId
  | .id sandboxId => sandboxId

/-- `_resolve_handle`: a handle is taken as it is. -/
def System.resolveHandle (s : System) : HandleRef → Option SandboxHandle
  | .object handle => some handle
  | .id sandboxId => s.handles.get? sandboxId

def resolveHandle (ref : HandleRef) : DockerM SandboxHandle := do
  match (← get).resolveHandle ref with
  | some handle => return handle
  | none => throw (.sandboxNotFound ref.sandboxId)

def findContainer (handle : SandboxHandle) : DockerM (Option ContainerObject) := do
  match (← get).containers.get? handle.sandboxId with
  | some container => return some container
  | none => tryFindContainerByName handle.agentId

def forget (sandboxId : ℕ) : DockerM Unit := modify fun s =>
  { s with containers := s.containers.erase sandboxId, handles := s.handles.erase sandboxId }

def stopContainer (container : ContainerObject) : DockerM Unit := do
  match ← caughtError (withRetry (containerStop container.id)) with
  | some _ => throw (.sandboxStopFailed "Failed to stop docker sandbox.")
  | none => suppress (fun _ => true) () (withRetry (containerRemove container.id))

def stop (ref : HandleRef) : DockerM Unit := do
  let handle ← resolveHandle ref
  let container ← findContainer handle
  container.elim (pure ()) stopContainer
  forget handle.sandboxId

def cleanupContainer (container : ContainerObject) : DockerM (Option Failure × Option Failure) := do
  let stopError ← caughtError (withRetry (containerStop container.id))
  let removeError ← caughtError (withRetry (containerRemove container.id))
  return (stopError, removeError)

def cleanup (ref : HandleRef) : DockerM Unit := do
  let handle ← resolveHandle ref
  let container ← findContainer handle
  let errors ← container.elim (pure (none, none)) cleanupContainer
  -- the handle is forgotten before the errors are looked at
  forget handle.sandboxId
  if errors = (none, none) then pure ()
  else throw (.sandboxStopFailed "Failed to cleanup docker sandbox.")

/-- The system between two calls, with the handles that `start` has returned so far. -/
structure State where
  system : System := {}
  issued : List SandboxHandle := []

inductive Event where
  | start (request : StartRequest) (script : List Attempt)
  | stop (ref : HandleRef) (script : List Attempt)
  | cleanup (ref : HandleRef) (script : List Attempt)
  /-- Containers exit on their own. -/
  | exit (ids : List ℕ)
  /-- The service is started again and has lost its memory. -/
  | restart
  deriving DecidableEq, Repr

def System.restarted (s : System) : System := { daemon := s.daemon, nextSandbox := s.nextSandbox }

variable (validate : String → Except String String)

/-- What a call returns, a handle where it is a `start` that succeeds, and the state after it. -/
def perform (s : State) : Event → Except Failure (Option SandboxHandle) × State
  | .start request script =>
    match start validate request { s.system with script } with
    | (.ok handle, system) => (.ok (some handle), ⟨system, s.issued ++ [handle]⟩)
    | (.error error, system) => (.error error, { s with system })
  | .stop ref script =>
    let (result, system) := stop ref { s.system with script }
    (result.map fun _ => none, { s with system })
  | .cleanup ref script =>
    let (result, system) := cleanup ref { s.system with script }
    (result.map fun _ => none, { s with system })
  | .exit ids => (.ok none, { s with
      system := { s.system with daemon := s.system.daemon.exit ids } })
  | .restart => (.ok none, { s with system := s.system.restarted })

/-- A handle that is given to a call comes from `start`. -/
def Event.handlesIssued (issued : List SandboxHandle) : Event → Bool
  | .stop (.object handle) _ | .cleanup (.object handle) _ => handle ∈ issued
  | _ => true

def step (s : State) (event : Event) : Option State :=
  if event.handlesIssued s.issued then some (perform validate s event).2 else none

end WittyService.Docker

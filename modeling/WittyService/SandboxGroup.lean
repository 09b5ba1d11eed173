import WittyService.GuardedRuns
import WittyService.ProcStat

/-! One sandbox of the local process backend: `status`, `stop` and `cleanup` read what `/proc` has
of its leader, signal its process group and wait for both. Between two of their steps the processes
do what they like. -/
namespace WittyService

/-- What the handle keeps of the sandbox. `start` gives the leader a session of its own, so that
`pgid` is the pid. -/
structure SandboxMetadata where
  pid : ℕ
  processStartTime : Option PyStr
  port : ℕ
  deriving DecidableEq, Repr

def AGENT_SERVER_APP : PyStr := "witty_agent_server.app:create_app".toList

def PORT_OPTION : PyStr := "--port".toList

def portInCmdline (expected : PyStr) : List PyStr → Bool
  | arg :: value :: rest =>
    if arg = PORT_OPTION then value = expected else portInCmdline expected (value :: rest)
  | _ => false

namespace SandboxMetadata

variable (metadata : SandboxMetadata)

/-- `_pid_is_our_agent_server` as far as `/proc/<pid>/stat` decides it. -/
def statVerdict : Option (PyStr × PyStr × PyStr) → Option Bool
  | none => some false
  | some (state, _, startTime) =>
    match metadata.processStartTime with
    | none => none
    | some recorded =>
      if recorded = [] then none
      else if startTime ≠ recorded then some false
      -- the command line of a zombie is empty, but the start time is enough
      else if state = ['Z'] then some true
      else none

/-- The rest of `_pid_is_our_agent_server`. -/
def cmdlineVerdict : Option (List PyStr) → Bool
  | none => false
  | some cmdline => AGENT_SERVER_APP ∈ cmdline ∧ portInCmdline (pyStrOfNat metadata.port) cmdline

end SandboxMetadata

/-- A sandbox that this backend has started, and the start time its leader really has. -/
structure LocalSandbox where
  metadata : SandboxMetadata
  startTime : ℕ
  recorded : metadata.processStartTime = none ∨
    metadata.processStartTime = some (pyStrOfNat startTime)

/-- The sandbox `start` makes of the process it has launched. -/
def LocalSandbox.start (leader : Process) (port : ℕ) (readable : Bool) : LocalSandbox where
  metadata := {
    pid := leader.pid
    processStartTime := if readable then
      (leader.statFile.bind readProcStat).map fun stat => stat.2.2 else none
    port }
  startTime := leader.startTime
  recorded := by
    dsimp only
    split_ifs
    · cases hfile : leader.statFile with
      | none => exact .inl rfl
      | some raw =>
        right
        rw [Option.bind_some, Process.readProcStat_statFile hfile, Option.map_some]
    · exact .inl rfl

inductive SandboxCall where
  | status
  | stop
  | cleanup
  deriving DecidableEq, Repr

/-- Where a call is. `verified` says that `_verified_process_group` has returned the group, and
`killed` that the signal is SIGKILL rather than SIGTERM. -/
inductive StopPhase where
  | idle
  /-- `again`: the second identification that `_reap_untracked_sandbox` makes. -/
  | readStat (again : Bool)
  | readCmdline (again : Bool)
  | poll (verified : Bool)
  | signalGroup (killed : Bool)
  | signalLeader (verified killed : Bool)
  | awaitLeader (verified killed : Bool)
  /-- `_reap_process_group`. -/
  | reapGroup (killed : Bool)
  | probeGroup (killed : Bool)
  | scanGroup (killed : Bool)
  /-- A leader without a group of its own. -/
  | signalPid (killed : Bool)
  | awaitPid (killed : Bool)
  deriving DecidableEq, Repr

inductive StopOutcome where
  | returned
  | raised
  deriving DecidableEq, Repr

/-- What the system does at one instant: whether a deadline has passed, a signal is not permitted,
`/proc` cannot be listed, and which of its files cannot be read. -/
structure Instant where
  timedOut : Bool := false
  denied : Bool := false
  listed : Bool := true
  unread : List ℕ := []

structure SandboxState where
  /-- The processes of the system, in the order `/proc` lists them. -/
  table : List Process
  /-- The leader has been waited for, so that `returncode` is set. -/
  reaped : Bool := false
  /-- `_processes` and `_handles` have the sandbox. -/
  tracked : Bool := true
  phase : StopPhase := .idle
  /-- The call that is under way is `cleanup`. -/
  pops : Bool := false
  /-- How the last `stop` or `cleanup` ended. -/
  ended : Option StopOutcome := none
  /-- What signals have been sent to. -/
  signalled : List Process := []

inductive SandboxAction where
  /-- A call with the handle itself, or with its id. -/
  | call (call : SandboxCall) (byId : Bool)
  /-- The processes go on. -/
  | env (table : List Process)
  /-- The call that is under way goes on. -/
  | tick (instant : Instant)

namespace SandboxState

variable (o : LocalSandbox) (s : SandboxState) (instant : Instant)

def entry : Option Process := s.table.find? fun p => p.pid = o.metadata.pid

/-- The processes `killpg` reaches, zombies included. -/
def group : List Process := s.table.filter fun p => p.pgrp = o.metadata.pid

/-- `read_proc_stat`. The error is the one of a text that is no UTF-8. -/
def readStat (p : Process) : Except Unit (Option (PyStr × PyStr × PyStr)) :=
  if p.pid ∈ instant.unread then .ok none
  else match p.statFile with
    | none => .error ()
    | some raw => .ok (readProcStat raw)

def readEntryStat : Except Unit (Option (PyStr × PyStr × PyStr)) :=
  match s.entry o with
  | none => .ok none
  | some p => readStat instant p

def readEntryCmdline : Option (List PyStr) :=
  (s.entry o).bind fun p => if p.pid ∈ instant.unread then none else p.readCmdline

/-- `process.poll()` waits for the leader once it is a zombie. -/
def poll : SandboxState :=
  if s.reaped = false ∧ (s.entry o).any fun p => p.state = .zombie then
    { s with
      reaped := true
      table := s.table.filter fun p => p.pid ≠ o.metadata.pid }
  else s

/-- The end of a call. A `cleanup` whose `stop` has returned forgets the sandbox. -/
def finish (outcome : StopOutcome) : SandboxState :=
  { s with
    phase := .idle
    tracked := s.tracked && !(s.pops && outcome = .returned)
    ended := some outcome }

/-- `_signal_process_group`. -/
def killGroup : SandboxState :=
  if instant.denied then s else { s with signalled := s.signalled ++ s.group o }

/-- `os.kill(pid, sig)`, where a process that is gone is no error. -/
def killPid (next : StopPhase) : SandboxState :=
  match s.entry o with
  | none => { s with phase := next }
  | some p =>
    if instant.denied then s.finish .raised
    else { s with signalled := s.signalled ++ [p], phase := next }

/-- What `stop` does with the answer of `_pid_is_our_agent_server`. -/
def identified (again verdict : Bool) : SandboxState :=
  if s.tracked then { s with phase := .poll verdict }
  else if again then
    if verdict then { s with phase := .signalPid false } else s.finish .returned
  else { s with phase := if verdict then .reapGroup false else .readStat true }

def leaderGone (verified : Bool) : SandboxState :=
  if verified then { s with phase := .reapGroup false } else s.finish .returned

/-- `_group_has_live_member`, as far as the entries can be read. -/
def hasLiveMember : List Process → Except Unit Bool
  | [] => .ok false
  | p :: rest =>
    match readStat instant p with
    | .error e => .error e
    | .ok none => hasLiveMember rest
    | .ok (some (state, pgrp, _)) =>
      if pgrp = pyStrOfNat o.metadata.pid ∧ state ≠ ['Z'] then .ok true else hasLiveMember rest

/-- `_wait_until` after the group has been found alive. -/
def groupSurvives (killed : Bool) : SandboxState :=
  if instant.timedOut then
    if killed then s.finish .raised else { s with phase := .reapGroup true }
  else { s with phase := .probeGroup killed }

def tick : Option SandboxState :=
  match s.phase with
  | .idle => none
  | .readStat again =>
    match s.readEntryStat o instant with
    | .error _ => some (s.finish .raised)
    | .ok stat =>
      match o.metadata.statVerdict stat with
      | some verdict => some (s.identified again verdict)
      | none => some { s with phase := .readCmdline again }
  | .readCmdline again =>
    some (s.identified again (o.metadata.cmdlineVerdict (s.readEntryCmdline o instant)))
  | .poll verified =>
    let s := s.poll o
    if s.reaped then some (s.leaderGone verified)
    else some { s with
      phase := if verified then .signalGroup false else .signalLeader false false }
  | .signalGroup killed => some { s.killGroup o instant with phase := .signalLeader true killed }
  | .signalLeader verified killed =>
    -- `send_signal` polls first
    let s := s.poll o
    if s.reaped then some { s with phase := .awaitLeader verified killed }
    else some (s.killPid o instant (.awaitLeader verified killed))
  | .awaitLeader verified killed =>
    let s := s.poll o
    if s.reaped then some (s.leaderGone verified)
    else if instant.timedOut then
      if killed then some (s.finish .raised)
      else some { s with phase := if verified then .signalGroup true else .signalLeader false true }
    else some s
  | .reapGroup killed => some { s.killGroup o instant with phase := .probeGroup killed }
  | .probeGroup killed =>
    -- signal 0
    if s.group o = [] then some (s.finish .returned)
    else if instant.denied then some (s.groupSurvives instant killed)
    else some { s with phase := .scanGroup killed }
  | .scanGroup killed =>
    if instant.listed then
      match hasLiveMember o instant s.table with
      | .error _ => some (s.finish .raised)
      | .ok true => some (s.groupSurvives instant killed)
      | .ok false => some (s.finish .returned)
    else some (s.finish .returned)
  | .signalPid killed => some (s.killPid o instant (.awaitPid killed))
  | .awaitPid killed =>
    match s.readEntryStat o instant with
    | .error _ => some (s.finish .raised)
    | .ok stat =>
      -- `_process_exists`
      if stat.any fun stat => stat.1 ≠ ['Z'] then
        if instant.timedOut then
          if killed then some (s.finish .raised) else some { s with phase := .signalPid true }
        else some s
      else some (s.finish .returned)

/-- `stop` and `cleanup` come one after the other. An id that `_handles` does not have is not
found. -/
def beginStop (pops byId : Bool) : Option SandboxState :=
  if s.phase ≠ .idle then none
  else if byId ∧ s.tracked = false then some { s with ended := some .raised }
  else some { s with phase := .readStat false, pops, ended := none }

/-- `status` may come at any time. -/
def call : SandboxCall → Bool → Option SandboxState
  | .status, _ => some (if s.tracked then s.poll o else s)
  | .stop, byId => s.beginStop false byId
  | .cleanup, byId => s.beginStop true byId

def step : SandboxAction → Option SandboxState
  | .call c byId => s.call o c byId
  | .env table => some { s with table }
  | .tick instant => s.tick o instant

end SandboxState

end WittyService

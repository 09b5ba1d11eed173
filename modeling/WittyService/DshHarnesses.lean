import Mathlib.Logic.Function.Basic
import WittyService.GuardedRuns

/-! The harnesses of `DshClient`: the current one and the retired ones, their reference counts and
drains. The tables are keyed by the address of a harness, which a later harness may have once the
first is no longer alive. Each section under `_harness_lock` is one step. -/
namespace WittyService

instance lawfulBEqCloser : LawfulBEq (Nat × Bool) := inferInstance

/-- Where `stream_turn` is with its harness: after `_acquire_harness`, after its prompt succeeded,
after `_ensure_notification_drain`, or released. -/
inductive HarnessTurnPhase where
  | acquired
  | prompted
  | streaming
  | released
  deriving DecidableEq, Repr

structure HarnessTurn where
  harness : Nat
  phase : HarnessTurnPhase := .acquired
  deriving DecidableEq, Repr

def HarnessTurn.isActive (t : HarnessTurn) : Bool := t.phase ≠ .released

/-- The client with its harnesses, which are named in the order in which they are built. `closers`
are the running calls of `_close_harness_safely`, with whether they have popped the drain. What a
harness was built from, how often it was closed, whether `close_harness` has taken it, and whether a
prompt succeeded on it and a drain runs for it, are not kept by the client. -/
structure DshHarnesses (κ : Type) where
  config : κ
  /-- The configuration changes that have not detached the harness yet. -/
  changing : Nat
  created : Nat
  address : Nat → Nat
  current : Option Nat
  refs : Nat → Nat
  retired : List (Nat × Nat)
  drains : List Nat
  turns : List HarnessTurn
  closers : List (Nat × Bool)
  builtFrom : Nat → κ
  closes : Nat → Nat
  stopped : Nat → Bool
  prompted : Nat → Bool
  drained : Nat → Bool

inductive DshHarnessAction (κ : Type) where
  | ensureHarness (address : Nat) (builtFrom : κ)
  | changes (config : κ)
  | sets (config : κ)
  | detaches
  | closeHarness
  | acquires
  | prompts (i : Nat)
  | ensuresDrain (i : Nat)
  | releases (i : Nat)
  | closes (k : Nat) (popped : Bool)

namespace DshHarnesses

variable {κ : Type} (s : DshHarnesses κ)

def fresh (config : κ) : DshHarnesses κ where
  config
  changing := 0
  created := 0
  address _ := 0
  current := none
  refs _ := 0
  retired := []
  drains := []
  turns := []
  closers := []
  builtFrom _ := config
  closes _ := 0
  stopped _ := false
  prompted _ := false
  drained _ := false

/-- The turns that hold harness `k`. -/
def users (k : Nat) : Nat := s.turns.countP fun t => t.isActive && t.harness == k

/-- Something still refers to harness `k`. -/
def IsAlive (k : Nat) : Prop := k < s.created ∧ (s.closes k = 0 ∨ 0 < s.users k)

instance (k : Nat) : Decidable (s.IsAlive k) := by
  unfold IsAlive
  infer_instance

/-- Turn `i` goes on to `phase`. -/
def setPhase (i : Nat) (t : HarnessTurn) (phase : HarnessTurnPhase) : DshHarnesses κ :=
  { s with turns := s.turns.set i { t with phase } }

/-- The body of `_detach_harness`. -/
def detach : DshHarnesses κ :=
  match s.current with
  | none => s
  | some k =>
    if s.refs (s.address k) = 0 then
      { s with current := none, closers := (k, false) :: s.closers }
    else
      { s with
        current := none
        retired := (s.address k, k) :: s.retired.filter fun entry => entry.1 ≠ s.address k }

/-- The section of `close_harness` under the lock. -/
def close : DshHarnesses κ :=
  let taken := s.retired.map Prod.snd ++ s.current.toList
  { s with
    current := none
    retired := []
    closers := taken.map (·, false) ++ s.closers
    stopped := fun k => s.stopped k || taken.contains k }

/-- The body of `_release_harness` for a turn on harness `k`. -/
def release (k : Nat) : DshHarnesses κ :=
  if s.refs (s.address k) ≤ 1 then
    let s := { s with refs := Function.update s.refs (s.address k) 0 }
    if (s.retired.map Prod.fst).contains (s.address k) then
      { s with
        retired := s.retired.filter fun entry => entry.1 ≠ s.address k
        closers := (k, false) :: s.closers }
    else s
  else { s with refs := Function.update s.refs (s.address k) (s.refs (s.address k) - 1) }

/-- The drain step of a turn on harness `k`. -/
def ensureDrain (k : Nat) : DshHarnesses κ :=
  if s.address k ∈ s.drains then s
  else { s with
    drains := s.address k :: s.drains
    drained := Function.update s.drained k true }

/-- `ensure_harness` builds from the configuration, or from a mixture while it is being changed. The
address is one that nothing alive has. -/
def ensure [DecidableEq κ] (s : DshHarnesses κ) (address : Nat) (builtFrom : κ) :
    Option (DshHarnesses κ) :=
  match s.current with
  | some _ => some s
  | none =>
    if (s.changing = 0 → builtFrom = s.config) ∧
        ∀ k < s.created, s.IsAlive k → s.address k ≠ address then
      some { s with
        created := s.created + 1
        address := Function.update s.address s.created address
        builtFrom := Function.update s.builtFrom s.created builtFrom
        current := some s.created }
    else none

def step [DecidableEq κ] (s : DshHarnesses κ) : DshHarnessAction κ → Option (DshHarnesses κ)
  | .ensureHarness address builtFrom => s.ensure address builtFrom
  | .changes config => some { s with config, changing := s.changing + 1 }
  | .sets config => if s.changing = 0 then none else some { s with config }
  | .detaches =>
    if s.changing = 0 then none else some { s with changing := s.changing - 1 }.detach
  | .closeHarness => some s.close
  | .acquires => s.current.map fun k =>
    { s with
      refs := Function.update s.refs (s.address k) (s.refs (s.address k) + 1)
      turns := s.turns ++ [{ harness := k }] }
  | .prompts i => s.turns[i]?.bind fun t =>
    if t.phase = .acquired then
      some { s.setPhase i t .prompted with prompted := Function.update s.prompted t.harness true }
    else none
  | .ensuresDrain i => s.turns[i]?.bind fun t =>
    if t.phase = .prompted then some ((s.setPhase i t .streaming).ensureDrain t.harness) else none
  | .releases i => s.turns[i]?.bind fun t =>
    if t.phase = .acquired ∨ t.phase = .streaming then
      some ((s.setPhase i t .released).release t.harness)
    else none
  | .closes k false =>
    if (k, false) ∈ s.closers then
      some { s with
        drains := s.drains.filter (· ≠ s.address k)
        closers := (k, true) :: s.closers.erase (k, false) }
    else none
  | .closes k true =>
    if (k, true) ∈ s.closers then
      some { s with
        closes := Function.update s.closes k (s.closes k + 1)
        closers := s.closers.erase (k, true) }
    else none

end DshHarnesses

end WittyService

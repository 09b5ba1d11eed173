import Mathlib.Data.List.Count
import Mathlib.Data.List.Nodup

/-! `SessionStreamRegistry` of the agent manager, as seen by one session. Every method of
the class takes the session's id and touches that key of the four dictionaries only, so an
absent key is `none` here. A queue is kept as everything that was ever put into it. -/
namespace WittyService

variable {E : Type*}

/-- The `asyncio.Queue` objects by identity; `none` is the end sentinel. -/
abbrev Queues (E : Type*) := Nat → List (Option E)

structure SessionStreamRegistry (E : Type*) where
  subscribers : Option (List Nat)
  buffers : Option (List E)
  terminated : Bool
  generation : Option Nat
  queues : Queues E
  nextQueue : Nat

def SessionStreamRegistry.new : SessionStreamRegistry E :=
  ⟨none, none, false, none, fun _ => [], 0⟩

/-- `for q in subs: q.put_nowait(item)`; the queues are unbounded. -/
def putAll (item : Option E) (subs : List Nat) (queues : Queues E) : Queues E :=
  fun q => queues q ++ List.replicate (subs.count q) item

namespace SessionStreamRegistry

def endStream (r : SessionStreamRegistry E) : SessionStreamRegistry E :=
  { r with
    terminated := true
    queues := putAll none (r.subscribers.getD []) r.queues }

def nextGeneration (r : SessionStreamRegistry E) : Nat := r.generation.getD 0 + 1

def startStream (r : SessionStreamRegistry E) : SessionStreamRegistry E :=
  { r.endStream with
    generation := some r.nextGeneration
    subscribers := some []
    buffers := some []
    terminated := false }

def isActive (r : SessionStreamRegistry E) : Bool :=
  r.subscribers.isSome && !r.terminated

def tryStartStream (r : SessionStreamRegistry E) : Option (SessionStreamRegistry E) :=
  if r.isActive then none else some r.startStream

def pushEvent (r : SessionStreamRegistry E) (event : E) (generation : Nat) :
    SessionStreamRegistry E :=
  if r.generation ≠ some generation then r
  else { r with
    buffers := r.buffers.map (· ++ [event])
    queues := putAll (some event) (r.subscribers.getD []) r.queues }

def releaseStream (r : SessionStreamRegistry E) (generation : Nat) : SessionStreamRegistry E :=
  if r.generation = some generation then r.endStream else r

def getBufferedEvents (r : SessionStreamRegistry E) : List E := r.buffers.getD []

/-- The new queue is `r.nextQueue`. -/
def subscribe (r : SessionStreamRegistry E) : SessionStreamRegistry E :=
  { r with
    subscribers := some (r.subscribers.getD [] ++ [r.nextQueue])
    nextQueue := r.nextQueue + 1 }

def unsubscribe (r : SessionStreamRegistry E) (queue : Nat) : SessionStreamRegistry E :=
  { r with subscribers := r.subscribers.map fun subs => subs.erase queue }

def cleanup (r : SessionStreamRegistry E) : SessionStreamRegistry E :=
  { r with subscribers := none, buffers := none, terminated := false, generation := none }

end SessionStreamRegistry

namespace SessionStreamRegistry

section

variable (r : SessionStreamRegistry E)

theorem isActive_iff :
    r.isActive = true ↔ r.subscribers.isSome ∧ r.terminated = false := by
  simp [isActive]

theorem isActive_endStream : r.endStream.isActive = false := by
  simp [isActive, endStream]

theorem isActive_unsubscribe (q : Nat) :
    (r.unsubscribe q).isActive = r.isActive := by
  simp [isActive, unsubscribe]

variable (e : E) (g : Nat)

theorem isActive_pushEvent (g : Nat) : (r.pushEvent e g).isActive = r.isActive := by
  unfold pushEvent
  split_ifs <;> rfl

theorem isActive_subscribe :
    r.subscribe.isActive = !r.terminated := by
  simp [isActive, subscribe]

theorem generation_pushEvent (g : Nat) : (r.pushEvent e g).generation = r.generation := by
  unfold pushEvent
  split_ifs <;> rfl

theorem subscribers_pushEvent (g : Nat) : (r.pushEvent e g).subscribers = r.subscribers := by
  unfold pushEvent
  split_ifs <;> rfl

theorem terminated_pushEvent (g : Nat) : (r.pushEvent e g).terminated = r.terminated := by
  unfold pushEvent
  split_ifs <;> rfl

theorem nextQueue_pushEvent (g : Nat) : (r.pushEvent e g).nextQueue = r.nextQueue := by
  unfold pushEvent
  split_ifs <;> rfl

theorem nextQueue_releaseStream : (r.releaseStream g).nextQueue = r.nextQueue := by
  unfold releaseStream
  split_ifs <;> rfl

theorem generation_releaseStream : (r.releaseStream g).generation = r.generation := by
  unfold releaseStream
  split_ifs <;> rfl

theorem subscribers_releaseStream : (r.releaseStream g).subscribers = r.subscribers := by
  unfold releaseStream
  split_ifs <;> rfl

end

end SessionStreamRegistry

def readable : List (Option E) → List E
  | some e :: items => e :: readable items
  | _ => []

@[simp] theorem readable_nil : readable ([] : List (Option E)) = [] := rfl

@[simp] theorem readable_some (e : E) (items : List (Option E)) :
    readable (some e :: items) = e :: readable items := rfl

@[simp] theorem readable_none (items : List (Option E)) : readable (none :: items) = [] := rfl

theorem readable_append_none (items : List (Option E)) (n : ℕ) :
    readable (items ++ List.replicate n none) = readable items := by
  induction items with
  | nil => cases n <;> rfl
  | cons a items ih => cases a <;> simp [ih]

variable {items : List (Option E)}

theorem readable_append_of_ended (h : none ∈ items)
    (later : List (Option E)) : readable (items ++ later) = readable items := by
  induction items with
  | nil => cases h
  | cons a items ih =>
    cases a with
    | none => rfl
    | some e => simp [ih (by simpa using h)]

theorem readable_append_of_running (h : none ∉ items)
    (later : List (Option E)) : readable (items ++ later) = readable items ++ readable later := by
  induction items with
  | nil => rfl
  | cons a items ih =>
    cases a with
    | none => exact absurd List.mem_cons_self h
    | some e => simp [ih (by simpa using h)]

section

variable {item : Option E} {subs : List Nat} {queues : Queues E} {q : Nat}

theorem putAll_of_notMem (h : q ∉ subs) : putAll item subs queues q = queues q := by
  simp [putAll, List.count_eq_zero_of_not_mem h]

theorem putAll_of_mem (hn : subs.Nodup) (h : q ∈ subs)
    : putAll item subs queues q = queues q ++ [item] := by
  simp [putAll, List.count_eq_one_of_mem hn h]

end

end WittyService

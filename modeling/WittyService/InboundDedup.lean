import Mathlib.Data.List.Nodup
import Mathlib.Tactic.Linarith
import WittyService.GuardedRuns

/-! The table of inbound events, by which a redelivery is told from a new event, and the cleanup
that keeps it small. Times are in microseconds. -/
namespace WittyService

open GuardedRuns

def MICROSECONDS_PER_DAY : ℤ := 86400000000

/-- A row of `channel_inbound_events`. `received_at` keeps the fields of the datetime it was
given and drops its offset. `acceptedAt` is no column: it is the time of the server when the
row was stored. -/
structure InboundEventRow where
  channelInstanceId : String
  platformEventId : String
  receivedAt : ℤ
  acceptedAt : ℤ
  deriving DecidableEq, Repr

def InboundEventRow.key (row : InboundEventRow) : String × String :=
  (row.channelInstanceId, row.platformEventId)

structure InboundEvents where
  rows : List InboundEventRow
  unique : (rows.map InboundEventRow.key).Nodup

namespace InboundEvents

/-- `register_inbound_event`: false for an `IntegrityError`, which the unique constraint and the
foreign key of the instance raise. -/
def registerInboundEvent (table : InboundEvents) (instances : List String) (now : ℤ)
    (instanceId platformEventId : String) (receivedAt : Option ℤ) : Bool × InboundEvents :=
  let row : InboundEventRow := ⟨instanceId, platformEventId, receivedAt.getD now, now⟩
  if h : row.key ∈ table.rows.map InboundEventRow.key then (false, table)
  else if instanceId ∈ instances then
    (true, ⟨row :: table.rows, List.nodup_cons.mpr ⟨h, table.unique⟩⟩)
  else (false, table)

theorem registerInboundEvent_cases (table : InboundEvents) (instances : List String) (now : ℤ)
    (instanceId platformEventId : String) (receivedAt : Option ℤ) :
    table.registerInboundEvent instances now instanceId platformEventId receivedAt =
        (false, table) ∨
      (∀ row ∈ table.rows, row.key ≠ (instanceId, platformEventId)) ∧
        ∃ row : InboundEventRow, ∃ stored : InboundEvents,
          row.key = (instanceId, platformEventId) ∧ row.acceptedAt = now ∧
          stored.rows = row :: table.rows ∧
          table.registerInboundEvent instances now instanceId platformEventId receivedAt =
            (true, stored) := by
  unfold registerInboundEvent
  dsimp only
  split_ifs with hknown hinstance
  · exact .inl rfl
  · refine .inr ⟨?_, ⟨instanceId, platformEventId, receivedAt.getD now, now⟩, _, rfl, rfl,
      rfl, rfl⟩
    intro row hrow hkey
    apply hknown
    change (instanceId, platformEventId) ∈ _
    rw [← hkey]
    exact List.mem_map_of_mem hrow
  · exact .inl rfl

/-- `prune_inbound_events`, with the number of rows it removes. -/
def pruneInboundEvents (table : InboundEvents) (before : ℤ) : ℕ × InboundEvents :=
  (table.rows.countP (·.receivedAt < before),
    ⟨table.rows.filter fun row => ¬ row.receivedAt < before,
      table.unique.sublist (List.filter_sublist.map _)⟩)

end InboundEvents

def retentionCutoff (days now : ℤ) : ℤ := now - max 1 days * MICROSECONDS_PER_DAY

inductive DedupVerdict where
  | accepted
  | duplicate
  deriving DecidableEq, Repr

/-- An `InboundDedup` with its database and the clock of the server. `accepted` is the history
of what it accepted, the last first, and no data of the program. -/
structure InboundDedup where
  retentionDays : ℤ
  instances : List String
  table : InboundEvents
  now : ℤ
  accepted : List (ℤ × String × String)

namespace InboundDedup

/-- `InboundDedup(repository, retention_days=...)` at some time, on any table. -/
def new (retentionDays : ℤ) (instances : List String) (table : InboundEvents) (now : ℤ) :
    InboundDedup :=
  ⟨max 1 retentionDays, instances, table, now, []⟩

def register (s : InboundDedup) (instanceId platformEventId : String)
    (receivedAt : Option ℤ) : DedupVerdict × InboundDedup :=
  let (accepted, table) :=
    s.table.registerInboundEvent s.instances s.now instanceId platformEventId receivedAt
  if accepted then
    (.accepted, { s with
      table := table
      accepted := (s.now, instanceId, platformEventId) :: s.accepted })
  else (.duplicate, { s with table := table })

def cutoff (s : InboundDedup) : ℤ := retentionCutoff s.retentionDays s.now

/-- The part of `cleanup` that is about inbound events, at the time of the server. -/
def cleanup (s : InboundDedup) : InboundDedup :=
  { s with table := (s.table.pruneInboundEvents s.cutoff).2 }

inductive DedupCall where
  | register (instanceId platformEventId : String) (receivedAt : Option ℤ)
  | cleanup

structure DedupStep where
  elapsed : ℕ
  call : DedupCall

def step (s : InboundDedup) (a : DedupStep) : Option InboundDedup :=
  let s := { s with now := s.now + a.elapsed }
  some (match a.call with
    | .register instanceId platformEventId receivedAt =>
      (s.register instanceId platformEventId receivedAt).2
    | .cleanup => s.cleanup)

def retention (s : InboundDedup) : ℤ := max 1 s.retentionDays * MICROSECONDS_PER_DAY

/-- Two acceptances of one event are a retention period apart. -/
def Separated (s : InboundDedup) : Prop :=
  s.accepted.Pairwise fun later earlier =>
    later.2 = earlier.2 → s.retention ≤ later.1 - earlier.1

/-- A cleanup removes no event that was accepted within the retention period. -/
def KeepsRecent (s : InboundDedup) (a : DedupStep) : Prop :=
  a.call = .cleanup →
    ∀ row ∈ s.table.rows, row.receivedAt < retentionCutoff s.retentionDays (s.now + a.elapsed) →
      row.acceptedAt ≤ retentionCutoff s.retentionDays (s.now + a.elapsed)

/-- What was accepted within the retention period is still in the table. -/
structure Remembers (s : InboundDedup) : Prop where
  separated : s.Separated
  kept : ∀ entry ∈ s.accepted,
    (∃ row ∈ s.table.rows, row.key = entry.2 ∧ entry.1 ≤ row.acceptedAt) ∨
      s.retention ≤ s.now - entry.1

variable {s s' : InboundDedup} {a : DedupStep}

theorem register_cases (s : InboundDedup) (instanceId platformEventId : String)
    (receivedAt : Option ℤ) :
    (s.register instanceId platformEventId receivedAt).2 = s ∨
      (∀ row ∈ s.table.rows, row.key ≠ (instanceId, platformEventId)) ∧
        ∃ row : InboundEventRow, ∃ table : InboundEvents,
          row.key = (instanceId, platformEventId) ∧ row.acceptedAt = s.now ∧
          table.rows = row :: s.table.rows ∧
          (s.register instanceId platformEventId receivedAt).2 =
            { s with
              table := table
              accepted := (s.now, instanceId, platformEventId) :: s.accepted } := by
  rcases s.table.registerInboundEvent_cases s.instances s.now instanceId platformEventId
    receivedAt with hsame | ⟨hnew, row, table, hkey, haccepted, hrows, heq⟩
  · left
    simp [register, hsame]
  · right
    refine ⟨hnew, row, table, hkey, haccepted, hrows, ?_⟩
    simp [register, heq]

theorem register_new {instanceId platformEventId : String}
    (hnew : (instanceId, platformEventId) ∉ s.table.rows.map InboundEventRow.key)
    (hinstance : instanceId ∈ s.instances) (receivedAt : Option ℤ) :
    (s.register instanceId platformEventId receivedAt).2 =
      { s with
        table := (s.table.registerInboundEvent s.instances s.now instanceId platformEventId
          receivedAt).2
        accepted := (s.now, instanceId, platformEventId) :: s.accepted } := by
  have haccepted : (s.table.registerInboundEvent s.instances s.now instanceId platformEventId
      receivedAt).1 = true := by
    unfold InboundEvents.registerInboundEvent
    dsimp only
    split_ifs with hknown
    · exact absurd hknown hnew
    · rfl
  simp [register, haccepted]

theorem Remembers.elapse (h : s.Remembers) (elapsed : ℕ) :
    Remembers { s with now := s.now + elapsed } where
  separated := h.separated
  kept := by
    intro entry hentry
    rcases h.kept entry hentry with hrow | hold
    · exact .inl hrow
    · right
      change s.retention ≤ s.now + elapsed - entry.1
      linarith

theorem Remembers.register (h : s.Remembers) (instanceId platformEventId : String)
    (receivedAt : Option ℤ) :
    Remembers (s.register instanceId platformEventId receivedAt).2 := by
  rcases s.register_cases instanceId platformEventId receivedAt with
    hsame | ⟨hnew, row, table, hkey, haccepted, hrows, heq⟩
  · rwa [hsame]
  · rw [heq]
    constructor
    · -- a known event would have its row, or it was accepted long ago
      refine List.pairwise_cons.mpr ⟨?_, h.separated⟩
      intro entry hentry hsame
      rcases h.kept entry hentry with ⟨known, hknown, hkey, -⟩ | hold
      · exact absurd (hkey.trans hsame.symm) (hnew known hknown)
      · exact hold
    · intro entry hentry
      rcases List.mem_cons.mp hentry with rfl | hentry
      · exact .inl ⟨row, hrows ▸ List.mem_cons_self, hkey, haccepted.ge⟩
      · rcases h.kept entry hentry with ⟨known, hknown, hknownKey⟩ | hold
        · exact .inl ⟨known, hrows ▸ List.mem_cons_of_mem _ hknown, hknownKey⟩
        · exact .inr hold

theorem Remembers.cleanup (h : s.Remembers)
    (hkeep : ∀ row ∈ s.table.rows, row.receivedAt < s.cutoff → row.acceptedAt ≤ s.cutoff) :
    Remembers s.cleanup where
  separated := h.separated
  kept := by
    intro entry hentry
    rcases h.kept entry hentry with ⟨row, hrow, hkey, hle⟩ | hold
    · by_cases hremoved : row.receivedAt < s.cutoff
      · right
        have hearly := hkeep row hrow hremoved
        change s.retention ≤ s.now - entry.1
        unfold cutoff retentionCutoff at hearly
        unfold retention
        linarith
      · refine .inl ⟨row, List.mem_filter.mpr ⟨hrow, ?_⟩, hkey, hle⟩
        simpa using hremoved
    · exact .inr hold

theorem remembers_step (h : s.Remembers) (hg : s.KeepsRecent a) (hs : s.step a = some s') :
    s'.Remembers := by
  obtain ⟨elapsed, call⟩ := a
  have helapsed := h.elapse elapsed
  cases hs
  cases call with
  | register instanceId platformEventId receivedAt =>
    exact helapsed.register instanceId platformEventId receivedAt
  | cleanup => exact helapsed.cleanup (hg rfl)

/-- Without the condition the guarantee is lost at once: a redelivery right after the cleanup is
accepted, although the event was accepted within the retention period. -/
theorem redelivery_accepted {row : InboundEventRow} (hrow : row ∈ s.table.rows)
    (hentry : (row.acceptedAt, row.key) ∈ s.accepted)
    (hinstance : row.channelInstanceId ∈ s.instances)
    (hremoved : row.receivedAt < s.cutoff) (hrecent : s.cutoff < row.acceptedAt)
    (receivedAt : Option ℤ) :
    ¬ Separated (s.cleanup.register row.channelInstanceId row.platformEventId receivedAt).2 := by
  have hgone : row.key ∉ s.cleanup.table.rows.map InboundEventRow.key := by
    intro hmem
    obtain ⟨other, hother, hkey⟩ := List.mem_map.mp hmem
    obtain ⟨hother, hkept⟩ := List.mem_filter.mp hother
    have hsame := List.inj_on_of_nodup_map s.table.unique hother hrow hkey
    rw [hsame] at hkept
    simp [cutoff] at hremoved hkept
    omega
  have hnew := register_new (s := s.cleanup) hgone hinstance receivedAt
  intro hseparated
  rw [hnew] at hseparated
  have hle := (List.pairwise_cons.mp hseparated).1 _ hentry rfl
  unfold cutoff retentionCutoff at hrecent
  have hlate : s.retention ≤ s.now - row.acceptedAt := hle
  unfold retention at hlate
  linarith

/-- An event that comes with the time of its receipt, and again after the retention period. -/
def promptEvent : List DedupStep := [
  ⟨0, .register "i" "e" none⟩,
  ⟨7 * 86400000000 + 1, .cleanup⟩,
  ⟨0, .register "i" "e" none⟩]

end InboundDedup

end WittyService
